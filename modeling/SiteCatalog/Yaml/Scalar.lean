import SiteCatalog.Decimal.Shortest
import SiteCatalog.Number

/-!
# Plain scalars

What an unquoted text of YAML stands for: null, a truth value, a number or itself. Integers are
decimal or, after `0x`, `0o` and `0b`, hexadecimal, octal and binary; a decimal integer with a
needless leading zero is a string.
-/

namespace SiteCatalog.Yaml

/-- What a plain scalar stands for. -/
inductive Scalar
  | null
  | bool (b : Bool)
  | number (n : Number)
  /-- An integer that fits in 128 bits but not in 64. -/
  | wide
  | text

/-- Whether a text is a word for null. -/
def isNullWord (s : String) : Bool :=
  s = "null" || s = "Null" || s = "NULL" || s = "~"

/-- The truth value that a text is a word for. -/
def boolWord? (s : String) : Option Bool :=
  if s = "true" || s = "True" || s = "TRUE" then some true
  else if s = "false" || s = "False" || s = "FALSE" then some false
  else none

/-- The value of a digit in a radix. -/
def digitValue? (radix : Nat) (c : Char) : Option Nat :=
  let n :=
    if '0' ≤ c ∧ c ≤ '9' then c.toNat - 48
    else if 'a' ≤ c ∧ c ≤ 'z' then c.toNat - 87
    else if 'A' ≤ c ∧ c ≤ 'Z' then c.toNat - 55
    else 36
  if n < radix then some n else none

/-- Adds digits to the right of a number. -/
def appendDigits (radix : Nat) : Nat → List Char → Option Nat
  | acc, [] => some acc
  | acc, c :: rest =>
    match digitValue? radix c with
    | some d => appendDigits radix (acc * radix + d) rest
    | none => none

/-- The number that digits write, of which there is at least one. -/
def natural? (radix : Nat) (cs : List Char) : Option Nat :=
  if cs.isEmpty then none else appendDigits radix 0 cs

/-- The number after a mark for its radix. -/
def marked? : List Char → Option Nat
  | '0' :: 'x' :: rest => natural? 16 rest
  | '0' :: 'o' :: rest => natural? 8 rest
  | '0' :: 'b' :: rest => natural? 2 rest
  | _ => none

/-- The text without one sign before it. -/
def dropSign : List Char → List Char
  | '-' :: rest => rest
  | '+' :: rest => rest
  | cs => cs

/-- Digits after a needless leading zero. -/
def isPadded (cs : List Char) : Bool :=
  match dropSign cs with
  | '0' :: c :: rest => (c :: rest).all Char.isDigit
  | _ => false

/-- The integer that a text writes, with a plus sign or none. -/
def positive? (cs : List Char) : Option Nat :=
  let body := match cs with
    | '+' :: rest => rest
    | _ => cs
  match marked? body with
  | some n => some n
  | none => if isPadded cs then none else natural? 10 body

/-- The magnitude of the integer that a text writes with a minus sign. -/
def negative? : List Char → Option Nat
  | '-' :: rest =>
    match marked? rest with
    | some n => some n
    | none => if isPadded ('-' :: rest) then none else natural? 10 rest
  | _ => none

/-- The integer that a text writes. -/
def integer? (cs : List Char) : Option Int :=
  match positive? cs with
  | some n => some n
  | none => (negative? cs).map fun n => -(n : Int)

/-- The exponent that a text writes after its letter; no text is the exponent zero. -/
def exponent? : List Char → Option Int
  | [] => some 0
  | c :: rest =>
    if c = 'e' ∨ c = 'E' then
      match rest with
      | '-' :: ds => (natural? 10 ds).map fun n => -(n : Int)
      | '+' :: ds => (natural? 10 ds).map fun n => (n : Int)
      | ds => (natural? 10 ds).map fun n => (n : Int)
    else none

/-- The double that a text writes without sign: digits with at most one point among them, and an
exponent. -/
def unsignedFloat? (cs : List Char) : Option Float :=
  let whole := cs.takeWhile Char.isDigit
  let (fraction, rest) := match cs.dropWhile Char.isDigit with
    | '.' :: rest => (rest.takeWhile Char.isDigit, rest.dropWhile Char.isDigit)
    | rest => ([], rest)
  match natural? 10 (whole ++ fraction), exponent? rest with
  | some n, some e => some (Decimal.nearestFloat n (e - fraction.length))
  | _, _ => none

/-- The double that a text writes. A number too large for a double is none. -/
def float? (cs : List Char) : Option Float :=
  let text := String.ofList cs
  let body := match cs with
    | '+' :: rest => rest
    | _ => cs
  if cs.head? = some '+' ∧ (body.head? = some '+' ∨ body.head? = some '-') then none
  else
    let word := String.ofList body
    if word = ".inf" || word = ".Inf" || word = ".INF" then some (1.0 / 0.0)
    else if text = "-.inf" || text = "-.Inf" || text = "-.INF" then some (-1.0 / 0.0)
    else if text = ".nan" || text = ".NaN" || text = ".NAN" then some (0.0 / 0.0)
    else
      let x? := match body with
        | '-' :: rest => (unsignedFloat? rest).map fun x => -x
        | '+' :: rest => unsignedFloat? rest
        | rest => unsignedFloat? rest
      match x? with
      | some x => if x.isInf then none else some x
      | none => none

/-- The double that a text writes and that is not a padded integer. -/
def properFloat? (cs : List Char) : Option Float :=
  if isPadded cs then none else float? cs

/-- Whether an integer has at most 128 bits, with or without a sign. -/
def isWide (i : Int) : Bool :=
  -0x80000000000000000000000000000000 ≤ i && i < 0x100000000000000000000000000000000

/-- What an integer stands for. -/
def Scalar.ofInt? (i : Int) : Option Scalar :=
  match Number.ofInt? i with
  | some n => some (.number n)
  | none => if isWide i then some .wide else none

/-- What a plain scalar stands for. -/
def Scalar.resolve (s : String) : Scalar :=
  if s = "" || isNullWord s then .null
  else
    match boolWord? s with
    | some b => .bool b
    | none =>
      match (integer? s.toList).bind Scalar.ofInt? with
      | some n => n
      | none =>
        match properFloat? s.toList with
        | some x => .number (.float x)
        | none => .text

end SiteCatalog.Yaml
