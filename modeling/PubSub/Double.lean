/-!
Double-precision numbers by their bits, and the two decimal texts written for them: the
fewest digits that read back, and a fixed number of places.

A finite double is `mantissa * 2 ^ exponent` exactly, so both texts are computed in natural
numbers and nothing is rounded on the way.
-/

namespace PubSub

/-- A double, held as its sixty-four bits. -/
structure Double where
  bits : UInt64
deriving DecidableEq, Inhabited

namespace Double

def ofFloat (f : Float) : Double := ⟨f.toBits⟩

def toFloat (d : Double) : Float := Float.ofBits d.bits

def negative (d : Double) : Bool := (d.bits.toNat >>> 63) = 1

/-- The exponent field, `0` for subnormal numbers and zero. -/
def field (d : Double) : Nat := (d.bits.toNat >>> 52) % 2048

/-- The mantissa of a finite double, with the leading one of a normal number. -/
def mantissa (d : Double) : Nat :=
  d.bits.toNat % (1 <<< 52) + if d.field = 0 then 0 else 1 <<< 52

/-- A finite double is `mantissa * 2 ^ exponent` up to its sign. -/
def exponent (d : Double) : Int := (Nat.max d.field 1 : Int) - 1075

/-- The quotient rounded to the nearest whole number, a half going to the even neighbour. -/
def roundDiv (num den : Nat) : Nat :=
  let q := num / den
  let r := num % den
  if den < 2 * r ∨ (den = 2 * r ∧ q % 2 = 1) then q + 1 else q

/-- A positive fraction. -/
structure Ratio where
  num : Nat
  den : Nat

/-- `m * 2 ^ q`. -/
def Ratio.dyadic (m : Nat) (q : Int) : Ratio := ⟨m <<< q.toNat, 1 <<< (-q).toNat⟩

/-- The fraction times `10 ^ k`. -/
def Ratio.shift (x : Ratio) (k : Int) : Ratio := 
  ⟨x.num * Nat.pow 10 k.toNat, x.den * Nat.pow 10 (-k).toNat⟩

/-- The power of ten of the leading digit of a positive fraction. -/
def Ratio.magnitude (x : Ratio) : Int :=
  if x.den ≤ x.num then ((toString (x.num / x.den)).length : Int) - 1
  else -((toString ((x.den - 1) / x.num)).length : Int)

/-- The reals that round to `m * 2 ^ q`, in quarters of its last place; the ends belong to
the interval iff `m` is even. -/
structure Rounding where
  low : Nat
  value : Nat
  high : Nat
  ends : Bool

def rounding (d : Double) : Rounding :=
  let m := d.mantissa
  { low := if m = 1 <<< 52 ∧ 1 < d.field then 4 * m - 1 else 4 * m - 2
    value := 4 * m
    high := 4 * m + 2
    ends := m % 2 = 0 }

/-- Whether `n * 10 ^ k` rounds to the double. -/
def readsBack (d : Double) (n : Nat) (k : Int) : Bool :=
  let r := d.rounding
  -- `n * 10 ^ k` against quarters `c * 2 ^ (q - 2)`, both sides cleared of denominators
  let q := d.exponent - 2
  let left := (n * Nat.pow 10 k.toNat) <<< (-q).toNat
  let scale := Nat.pow 10 (-k).toNat <<< q.toNat
  let inside (a b : Nat) : Bool := if r.ends then a ≤ b else a < b
  inside (r.low * scale) left && inside left (r.high * scale)

/-- The whole number nearest to the double on the grid of `10 ^ k`, of those two neighbours
that read back. -/
def onGrid? (d : Double) (k : Int) : Option Nat :=
  let x := (Ratio.dyadic d.mantissa d.exponent).shift (-k)
  let below := x.num / x.den
  let near := roundDiv x.num x.den
  let far := if near = below then below + 1 else below
  if d.readsBack near k then some near
  else if d.readsBack far k then some far
  else none

/-- Tries one digit more at a time, from `n` digits on; seventeen always read back. -/
def shortestFrom (d : Double) (e : Int) : Nat → Nat → Nat × Int
  | 0, n => (d.onGrid? (e + 1 - n) |>.getD 0, e + 1 - n)
  | fuel + 1, n =>
    match d.onGrid? (e + 1 - n) with
    | some digits => (digits, e + 1 - n)
    | none => shortestFrom d e fuel (n + 1)

/-- The shortest decimal `digits * 10 ^ k` that reads back as the positive double. -/
def shortest (d : Double) : Nat × Int :=
  shortestFrom d (Ratio.dyadic d.mantissa d.exponent).magnitude 16 1

/-- Decimal digits with the zeros at the end taken off. -/
def significant (n : Nat) : List Char :=
  ((toString n).toList.reverse.dropWhile (· = '0')).reverse

/-- A decimal text: positional while the leading digit stands for `10 ^ -5` to `10 ^ 15`,
otherwise with one digit before the point and a signed power of ten. -/
def layout (digits : List Char) (e : Int) : List Char :=
  if -5 ≤ e ∧ e ≤ 15 then
    if (digits.length : Int) ≤ e + 1 then
      digits ++ List.replicate (e + 1 - digits.length).toNat '0' ++ ['.', '0']
    else if 0 ≤ e then
      digits.take (e + 1).toNat ++ ['.'] ++ digits.drop (e + 1).toNat
    else
      ['0', '.'] ++ List.replicate (-e - 1).toNat '0' ++ digits
  else
    digits.take 1 ++ (if digits.length = 1 then [] else '.' :: digits.drop 1) ++
      ['e', if e < 0 then '-' else '+'] ++ (toString e.natAbs).toList

/-- The text with the fewest digits that reads back as the finite double. -/
def text (d : Double) : List Char :=
  let sign := if d.negative then ['-'] else []
  if d.mantissa = 0 then sign ++ ['0', '.', '0']
  else
    let (n, k) := d.shortest
    sign ++ layout (significant n) (k + (toString n).length - 1)

/-- The text of a non-negative finite double with one decimal place. -/
def oneDecimal (d : Double) : String :=
  let x := (Ratio.dyadic d.mantissa d.exponent).shift 1
  let n := roundDiv x.num x.den
  s!"{n / 10}.{n % 10}"

end Double

end PubSub
