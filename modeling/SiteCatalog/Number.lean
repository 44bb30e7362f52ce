import SiteCatalog.Decimal.Shortest

/-!
# Numbers of data formats

The three kinds of number that documents hold: unsigned and negative 64-bit integers, and doubles.
A double is written with the fewest digits that read back.
-/

namespace SiteCatalog

/-- A number of a document. -/
inductive Number
  | unsigned (n : UInt64)
  | negative (i : Int64)
  | float (x : Float)

namespace Number

/-- An integer that fits in one of the two integer forms. -/
def ofInt? (i : Int) : Option Number :=
  if 0 ≤ i then if i < UInt64.size then some (.unsigned (UInt64.ofNat i.toNat)) else none
  else if -0x8000000000000000 ≤ i then some (.negative (Int64.ofInt i)) else none

/-- The number as a signed 64-bit integer. -/
def toInt64? : Number → Option Int64
  | unsigned n => if n.toNat < 0x8000000000000000 then some (Int64.ofInt n.toNat) else none
  | negative i => some i
  | float _ => none

/-- Whether two numbers are the same key of a mapping. All NaNs are one key, as are the two
zeros. -/
def sameKey : Number → Number → Bool
  | unsigned m, unsigned n => m = n
  | negative i, negative j => i = j
  | float x, float y => if x.isNaN && y.isNaN then true else x == y
  | _, _ => false

/-- How the shortest decimal of a double is laid out: positional for numbers of up to sixteen places
before the point or four zeros after it, with an exponent otherwise. -/
def layout (d : Decimal.Scientific) : List Char :=
  let ds := Decimal.digits d.digits
  let point : Int := ds.length + d.exponent
  if 0 ≤ d.exponent ∧ point ≤ 16 then ds ++ List.replicate d.exponent.toNat '0' ++ ['.', '0']
  else if 0 < point ∧ point ≤ 16 then ds.take point.toNat ++ ['.'] ++ ds.drop point.toNat
  else if -5 < point ∧ point ≤ 0 then ['0', '.'] ++ List.replicate (-point).toNat '0' ++ ds
  else
    let scale := point - 1
    let mantissa := match ds with
      | [d] => [d]
      | d :: rest => d :: '.' :: rest
      | [] => []
    mantissa ++ ['e'] ++ (if scale < 0 then ['-'] else []) ++ Decimal.digits scale.natAbs

/-- The text of a finite double. -/
def finiteText (x : Float) : List Char :=
  let bits := x.toBits
  let b := Decimal.Binary.ofBits bits
  (if bits.toNat < 0x8000000000000000 then [] else ['-'])
    ++ if b.mantissa = 0 then ['0', '.', '0'] else layout b.shortest

/-- The text of a number; infinities and NaN are written with a leading point. -/
def text : Number → String
  | unsigned n => toString n.toNat
  | negative i => toString i.toInt
  | float x =>
    if x.isNaN then ".nan"
    else if x.isInf then (if x < 0.0 then "-.inf" else ".inf")
    else String.ofList (finiteText x)

end Number

end SiteCatalog
