/-!
White space as the property of that name has it, and text without it at its ends.
-/

namespace PubSub.Text

/-- The property White_Space. -/
def blank (c : Char) : Bool :=
  let n := c.toNat
  (0x9 ≤ n && n ≤ 0xd) || n = 0x20 || n = 0x85 || n = 0xa0 || n = 0x1680 ||
    (0x2000 ≤ n && n ≤ 0x200a) || n = 0x2028 || n = 0x2029 || n = 0x202f || n = 0x205f ||
    n = 0x3000

/-- The text without blanks at its two ends. -/
def trim (cs : List Char) : List Char :=
  ((cs.dropWhile blank).reverse.dropWhile blank).reverse

def digit? (c : Char) : Option Nat := if c.isDigit then some (c.toNat - 48) else none

/-- The number that decimal digits stand for. -/
def ofDigits (ds : List Nat) : Nat := ds.foldl (fun n d => 10 * n + d) 0

/-- A number below `bound` in decimal digits, with an optional plus sign. -/
def natBelow? (bound : Nat) (cs : List Char) : Option Nat := do
  let body := match cs with
    | '+' :: r => r
    | r => r
  let ds ← body.mapM digit?
  if ds = [] then none else if ofDigits ds < bound then some (ofDigits ds) else none

end PubSub.Text
