/-!
# Text — ranges of code points

Properties of characters that the Unicode character database fixes by enumeration are kept as
ascending lists of closed ranges of code points, and looked up here.
-/

namespace SuiteBalance.Text

/-- Whether the code point of `c` lies in one of the closed ranges. -/
def inRanges (ranges : Array (Nat × Nat)) (c : Char) : Bool :=
  ranges.any fun r => r.1 ≤ c.toNat && c.toNat ≤ r.2

end SuiteBalance.Text
