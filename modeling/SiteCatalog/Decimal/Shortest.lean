/-!
# The shortest decimal of a binary float

A positive finite double is `m · 2^q`; the reals that round to it form an interval around it, ends
included exactly if `m` is even. Its shortest decimal is the point of the coarsest decimal grid that
has one in that interval, and of two such points the nearer. All arithmetic is exact, on `Nat`.
-/

namespace SiteCatalog.Decimal

/-- The number `digits · 10^exponent`. -/
structure Scientific where
  digits : Nat
  exponent : Int
  deriving DecidableEq, Repr

/-- The number `mantissa · 2^exponent`; `boundary` says that the next smaller float is only half as
far away as the next larger one. -/
structure Binary where
  mantissa : Nat
  exponent : Int
  boundary : Bool

namespace Binary

/-- The magnitude that the bits of a finite double encode. -/
def ofBits (bits : UInt64) : Binary :=
  let fraction : Nat := bits.toNat % Nat.pow 2 52
  let field : Nat := bits.toNat / Nat.pow 2 52 % Nat.pow 2 11
  if field = 0 then ⟨fraction, -1074, false⟩
  else ⟨Nat.pow 2 52 + fraction, (field : Int) - 1075, decide (fraction = 0 ∧ 1 < field)⟩

/-- Numerator and denominator of `quarters · 2^(exponent - 2) / 10^grid`. -/
def onGrid (exponent : Int) (grid : Int) (quarters : Nat) : Nat × Nat :=
  let q := exponent - 2
  (quarters * Nat.pow 2 q.toNat * Nat.pow 10 (-grid).toNat,
    Nat.pow 2 (-q).toNat * Nat.pow 10 grid.toNat)

/-- Whether the point `d` of a grid rounds to the number. -/
def contains (b : Binary) (grid : Int) (d : Nat) : Bool :=
  let (low, den) := onGrid b.exponent grid (4 * b.mantissa - if b.boundary then 1 else 2)
  let (high, _) := onGrid b.exponent grid (4 * b.mantissa + 2)
  if b.mantissa % 2 = 0 then low ≤ d * den && d * den ≤ high
  else low < d * den && d * den < high

/-- The point of a grid that rounds to the number, the nearer one if there are two. -/
def point? (b : Binary) (grid : Int) : Option Nat :=
  let (num, den) := onGrid b.exponent grid (4 * b.mantissa)
  let d := num / den
  match d != 0 && b.contains grid d, b.contains grid (d + 1) with
  | true, true => some (if 2 * num < (2 * d + 1) * den then d
      else if 2 * num = (2 * d + 1) * den then (if d % 2 = 0 then d else d + 1) else d + 1)
  | true, false => some d
  | false, true => some (d + 1)
  | false, false => none

/-- Tries grids from `grid` on, each ten times finer than the one before. -/
def search (b : Binary) : Nat → Int → Scientific
  | 0, grid => ⟨0, grid⟩
  | steps + 1, grid =>
    match b.point? grid with
    | some d => ⟨d, grid⟩
    | none => search b steps (grid - 1)

/-- The shortest decimal of a positive number. The search starts at a grid that is coarser than the
number; seventeen digits always suffice. -/
def shortest (b : Binary) : Scientific :=
  let top := (((Nat.log2 b.mantissa : Int) + b.exponent) * 30103).fdiv 100000 + 2
  b.search 40 top

end Binary

/-- The decimal digits of a number, most significant first. -/
def digits (n : Nat) : List Char :=
  Nat.toDigits 10 n

/-- The double nearest to `digits · 10^exponent`. Exponents that lie outside the range of doubles
for any number of this many digits are cut off, so that no needless power of ten is computed. -/
def nearestFloat (significand : Nat) (exponent : Int) : Float :=
  let scale := (digits significand).length + exponent
  if significand = 0 ∨ scale < -400 then 0.0
  else if 400 < scale then Float.ofScientific 1 false 400
  else if exponent < 0 then Float.ofScientific significand true (-exponent).toNat
  else Float.ofScientific significand false exponent.toNat

end SiteCatalog.Decimal
