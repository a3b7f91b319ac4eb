/-!
# Entries in order

A mapping whose order shows is a list of pairs with distinct keys.  **`get?`** looks a key up;
**`put`** overwrites the value of a key that is there and keeps the key's place, and appends a key
that is new.
-/

namespace SuiteBalance

/-- A mapping that remembers the order in which its keys came. -/
abbrev Entries (κ α : Type) := List (κ × α)

namespace Entries

variable {κ α : Type} [BEq κ]

/-- The value of a key. -/
def get? (entries : Entries κ α) (key : κ) : Option α := List.lookup key entries

/-- Sets the value of a key, in place or at the end. -/
def put : Entries κ α → κ → α → Entries κ α
  | [], key, value => [(key, value)]
  | (k, v) :: rest, key, value =>
    if k == key then (k, value) :: rest else (k, v) :: put rest key value

/-- The keys in their order. -/
def keys (entries : Entries κ α) : List κ := entries.map Prod.fst

/-- A key has the value that was set last. -/
theorem get?_put [LawfulBEq κ] (entries : Entries κ α) (key other : κ) (value : α) :
    (put entries key value).get? other =
      if other == key then some value else get? entries other := by
  induction entries with
  | nil => grind [put, get?]
  | cons entry rest ih => grind [put, get?]

/-- A key that is new comes last; one that is there keeps its place. -/
theorem keys_put [LawfulBEq κ] (entries : Entries κ α) (key : κ) (value : α) :
    keys (put entries key value) =
      if key ∈ keys entries then keys entries else keys entries ++ [key] := by
  induction entries with
  | nil => rfl
  | cons entry rest ih => grind [put, keys]

end Entries

end SuiteBalance
