/-!
# Text — blanks

The *white* characters are those with Unicode's white space property.  The *blanks* are these and
the four information separators `U+001C` to `U+001F`.  **`trim`** removes the blanks at both ends
of a text.
-/

namespace SuiteBalance.Text

/-- White space of any script. -/
def isWhite (c : Char) : Bool :=
  let n := c.toNat
  (0x9 ≤ n && n ≤ 0xd) || n == 0x20 || n == 0x85 || n == 0xa0 || n == 0x1680 ||
    (0x2000 ≤ n && n ≤ 0x200a) || n == 0x2028 || n == 0x2029 || n == 0x202f || n == 0x205f ||
    n == 0x3000

/-- White space of any script, and the information separators. -/
def isBlank (c : Char) : Bool := isWhite c || (0x1c ≤ c.toNat && c.toNat ≤ 0x1f)

/-- The characters without those of a kind at either end. -/
def stripChars (kind : Char → Bool) (s : List Char) : List Char :=
  ((s.dropWhile kind).reverse.dropWhile kind).reverse

/-- The characters without the blanks at either end. -/
def trimChars (s : List Char) : List Char := stripChars isBlank s

/-- The text without the blanks at either end. -/
def trim (s : String) : String := String.ofList (trimChars s.toList)

end SuiteBalance.Text
