import PubSub.Json.Basic
import PubSub.Text.Blank

/-!
The numbers of JSON. A literal without point and exponent that fits sixty-four bits is a
whole number; every other literal is a double, computed as the digits that fit sixty-four
bits, multiplied or divided by a power of ten in double arithmetic.
-/

namespace PubSub.Json

/-- Digits read so far: the ones kept, and the power of ten that they stand in. -/
structure Decimal where
  digits : Nat
  scale : Int
  full : Bool
deriving Inhabited

namespace Decimal

/-- A digit before the point: one too many for sixty-four bits is counted and not kept. -/
def pushWhole (x : Decimal) (d : Nat) : Decimal :=
  if x.full ∨ UInt64.size ≤ 10 * x.digits + d then { x with scale := x.scale + 1, full := true }
  else { x with digits := 10 * x.digits + d }

/-- A digit after the point: from the first that does not fit on, all are ignored. -/
def pushPart (x : Decimal) (d : Nat) : Decimal :=
  if x.full ∨ UInt64.size ≤ 10 * x.digits + d then { x with full := true }
  else { x with digits := 10 * x.digits + d, scale := x.scale - 1 }

def read (whole part : List Nat) : Decimal :=
  part.foldl pushPart { whole.foldl pushWhole ⟨0, 0, false⟩ with full := false }

end Decimal

/-- `f * 10 ^ e` in steps that a double can hold; nothing if the result is not finite. -/
def scaled (f : Float) (e : Int) : Option Float :=
  if e.natAbs ≤ 308 then
    let p := Float.ofScientific 1 false e.natAbs
    if e < 0 then some (f / p) else if (f * p).isInf then none else some (f * p)
  else if f == 0 then some f
  else if 0 ≤ e then none
  else scaled (f / Float.ofScientific 1 false 308) (e + 308)
termination_by e.natAbs
decreasing_by omega

/-- A number literal in its parts. -/
structure Literal where
  minus : Bool
  whole : List Nat
  part : Option (List Nat)
  power : Option Int

/-- The longest run of digits at the front. -/
def takeDigits : List Char → List Nat × List Char
  | [] => ([], [])
  | c :: r =>
    match Text.digit? c with
    | some d => let (ds, r') := takeDigits r; (d :: ds, r')
    | none => ([], c :: r)

/-- The exponent of a literal: a letter, an optional sign and digits. -/
def readPower : List Char → Option (Option Int)
  | [] => some none
  | c :: r =>
    if c = 'e' ∨ c = 'E' then
      let (minus, r) := match r with
        | '+' :: r => (false, r)
        | '-' :: r => (true, r)
        | r => (false, r)
      match takeDigits r with
      | (d :: ds, []) =>
        let n : Int := Text.ofDigits (d :: ds)
        some (some (if minus then -n else n))
      | _ => none
    else none

/-- The parts of a literal: no zero in front of other digits, digits on both sides of a point. -/
def readLiteral (word : List Char) : Option Literal := do
  let (minus, r) := match word with
    | '-' :: r => (true, r)
    | r => (false, r)
  let (whole, r) := takeDigits r
  if whole = [] ∨ (whole.head? = some 0 ∧ 1 < whole.length) then none
  else
    match r with
    | '.' :: r =>
      let (part, r) := takeDigits r
      if part = [] then none
      else return ⟨minus, whole, some part, ← readPower r⟩
    | r => return ⟨minus, whole, none, ← readPower r⟩

/-- The value of a literal that is no whole number in range. -/
def Literal.toReal (l : Literal) : Option Json := do
  let x := Decimal.read l.whole (l.part.getD [])
  let f ← scaled x.digits.toUInt64.toFloat (x.scale + l.power.getD 0)
  return .real (.ofFloat (if l.minus then -f else f))

/-- Minus zero is the double, since no whole number has its sign. -/
def Literal.value (l : Literal) : Option Json :=
  match l.part, l.power with
  | none, none =>
    let n := Text.ofDigits l.whole
    if l.minus then
      if n ≠ 0 ∧ n ≤ UInt64.size / 2 then some (.int (-n)) else l.toReal
    else if n < UInt64.size then some (.int n)
    else l.toReal
  | _, _ => l.toReal

/-- The value of a word that is neither text nor punctuation. -/
def ofWord (word : List Char) : Option Json :=
  if word = ['n', 'u', 'l', 'l'] then some .null
  else if word = ['t', 'r', 'u', 'e'] then some (.bool true)
  else if word = ['f', 'a', 'l', 's', 'e'] then some (.bool false)
  else (readLiteral word).bind Literal.value

end PubSub.Json
