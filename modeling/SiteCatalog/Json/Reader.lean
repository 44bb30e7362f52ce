import SiteCatalog.Json.Basic

/-!
# Reading JSON

A reader of JSON text. It accepts the grammar of JSON and nothing else: no trailing commas, no
leading zeros, no control characters in strings, no lone surrogates. Values nest at most 127 deep.
Integers that fit are kept exactly; `-0` and all other numbers are doubles, and one too large for a
double is refused.
-/

namespace SiteCatalog.Json

/-- How deep arrays and objects may nest. -/
def maxDepth : Nat := 127

/-- Whether a character may stand between the parts of a value. -/
def isSpace (c : Char) : Bool :=
  c = ' ' || c = '\n' || c = '\t' || c = '\r'

/-- The text after leading space. -/
def skipSpace (cs : List Char) : List Char :=
  cs.dropWhile isSpace

/-- The text after a word that it starts with. -/
def afterWord? (word : List Char) (cs : List Char) : Option (List Char) :=
  if word.isPrefixOf cs then some (cs.drop word.length) else none

/-- The value of a hexadecimal digit. -/
def hexValue? (c : Char) : Option Nat :=
  if '0' ≤ c ∧ c ≤ '9' then some (c.toNat - 48)
  else if 'a' ≤ c ∧ c ≤ 'f' then some (c.toNat - 87)
  else if 'A' ≤ c ∧ c ≤ 'F' then some (c.toNat - 55)
  else none

/-- A number of four hexadecimal digits. -/
def hexQuad? : List Char → Option (Nat × List Char)
  | a :: b :: c :: d :: rest => do
    let n := (((← hexValue? a) * 16 + (← hexValue? b)) * 16 + (← hexValue? c)) * 16
    return (n + (← hexValue? d), rest)
  | _ => none

/-- The characters that one letter after a backslash stands for. -/
def simpleEscape? (c : Char) : Option Char :=
  if c = '\x22' ∨ c = '\\' ∨ c = '/' then some c
  else if c = 'b' then some '\x08'
  else if c = 'f' then some '\x0c'
  else if c = 'n' then some '\n'
  else if c = 'r' then some '\r'
  else if c = 't' then some '\t'
  else none

/-- The character of an escape, after its backslash. A high surrogate needs a low one after it. -/
def escape? : List Char → Option (Char × List Char)
  | 'u' :: rest => do
    let (n, rest) ← hexQuad? rest
    if 0xD800 ≤ n ∧ n < 0xDC00 then
      let rest ← afterWord? ['\\', 'u'] rest
      let (m, rest) ← hexQuad? rest
      if 0xDC00 ≤ m ∧ m < 0xE000 then
        return (Char.ofNat (0x10000 + (n - 0xD800) * 0x400 + (m - 0xDC00)), rest)
      else none
    else if 0xDC00 ≤ n ∧ n < 0xE000 then none
    else return (Char.ofNat n, rest)
  | c :: rest => (simpleEscape? c).map (·, rest)
  | [] => none

/-- The rest of a string after its opening quote; `acc` holds the characters read, last first. -/
def stringBody? : Nat → List Char → List Char → Option (String × List Char)
  | 0, _, _ => none
  | _ + 1, _, [] => none
  | fuel + 1, acc, c :: rest =>
    if c = '\x22' then some (String.ofList acc.reverse, rest)
    else if c = '\\' then
      match escape? rest with
      | some (e, rest) => stringBody? fuel (e :: acc) rest
      | none => none
    else if c.toNat < 32 then none
    else stringBody? fuel (c :: acc) rest

/-- The number that decimal digits write. -/
def decimal (ds : List Char) : Nat :=
  ds.foldl (fun n c => n * 10 + (c.toNat - 48)) 0

/-- The parts of a number's text. -/
structure NumberText where
  negative : Bool
  whole : List Char
  fraction : Option (List Char)
  exponent : Option Int

/-- Splits off leading digits, of which there is at least one. -/
def digits? (cs : List Char) : Option (List Char × List Char) :=
  let ds := cs.takeWhile Char.isDigit
  if ds.isEmpty then none else some (ds, cs.dropWhile Char.isDigit)

/-- The parts of the number that a text starts with. -/
def numberText? (cs : List Char) : Option (NumberText × List Char) := do
  let (negative, cs) := match cs with
    | '-' :: rest => (true, rest)
    | _ => (false, cs)
  let (whole, cs) ← digits? cs
  if whole.head? = some '0' ∧ whole.length ≠ 1 then none
  let (fraction, cs) ← match cs with
    | '.' :: rest => do
      let (ds, rest) ← digits? rest
      pure (some ds, rest)
    | _ => pure (none, cs)
  let (exponent, cs) ← match cs with
    | e :: rest =>
      if e = 'e' ∨ e = 'E' then do
        let (sign, rest) := match rest with
          | '-' :: r => ((-1 : Int), r)
          | '+' :: r => (1, r)
          | r => (1, r)
        let (ds, rest) ← digits? rest
        pure (some (sign * decimal ds), rest)
      else pure (none, cs)
    | [] => pure (none, cs)
  return (⟨negative, whole, fraction, exponent⟩, cs)

/-- The number that the parts stand for. -/
def NumberText.value? (t : NumberText) : Option Number :=
  let integer : Option Number :=
    if t.fraction.isNone ∧ t.exponent.isNone ∧ ¬(t.negative ∧ decimal t.whole = 0) then
      Number.ofInt? (if t.negative then -(decimal t.whole : Int) else decimal t.whole)
    else none
  match integer with
  | some n => some n
  | none =>
    let fraction := t.fraction.getD []
    let x := Decimal.nearestFloat (decimal (t.whole ++ fraction))
      (t.exponent.getD 0 - fraction.length)
    if x.isInf then none else some (.float (if t.negative then -x else x))

mutual

/-- The value that a text starts with; `fuel` bounds the number of steps and `depth` the nesting. -/
def value? : Nat → Nat → List Char → Option (Json × List Char)
  | 0, _, _ => none
  | fuel + 1, depth, cs =>
    match skipSpace cs with
    | [] => none
    | c :: rest =>
      if c = '\x22' then (stringBody? fuel [] rest).map fun (s, r) => (.string s, r)
      else if c = '[' then
        match depth with
        | 0 => none
        | depth + 1 =>
          match skipSpace rest with
          | ']' :: rest => some (.array [], rest)
          | _ => (items? fuel depth rest).map fun (items, r) => (.array items, r)
      else if c = '\x7b' then
        match depth with
        | 0 => none
        | depth + 1 =>
          match skipSpace rest with
          | '\x7d' :: rest => some (.object [], rest)
          | _ => (members? fuel depth rest).map fun (members, r) => (.object members, r)
      else if c = '-' || c.isDigit then do
        let (t, rest) ← numberText? (c :: rest)
        return (.number (← t.value?), rest)
      else match afterWord? ['n', 'u', 'l', 'l'] (c :: rest) with
        | some rest => some (.null, rest)
        | none => match afterWord? ['t', 'r', 'u', 'e'] (c :: rest) with
          | some rest => some (.bool true, rest)
          | none => (afterWord? ['f', 'a', 'l', 's', 'e'] (c :: rest)).map (.bool false, ·)

/-- The items of an array, up to and with its closing bracket. -/
def items? : Nat → Nat → List Char → Option (List Json × List Char)
  | 0, _, _ => none
  | fuel + 1, depth, cs => do
    let (item, rest) ← value? fuel depth cs
    match skipSpace rest with
    | ',' :: rest => do
      let (items, rest) ← items? fuel depth rest
      return (item :: items, rest)
    | ']' :: rest => return ([item], rest)
    | _ => none

/-- The members of an object, up to and with its closing brace. -/
def members? : Nat → Nat → List Char → Option (List (String × Json) × List Char)
  | 0, _, _ => none
  | fuel + 1, depth, cs =>
    match skipSpace cs with
    | '\x22' :: rest => do
      let (name, rest) ← stringBody? fuel [] rest
      match skipSpace rest with
      | ':' :: rest => do
        let (value, rest) ← value? fuel depth rest
        match skipSpace rest with
        | ',' :: rest => do
          let (members, rest) ← members? fuel depth rest
          return ((name, value) :: members, rest)
        | '\x7d' :: rest => return ([(name, value)], rest)
        | _ => none
      | _ => none
    | _ => none

end

/-- The value that a whole text writes. -/
def parse? (s : String) : Option Json :=
  let cs := s.toList
  match value? (cs.length + 2) maxDepth cs with
  | some (j, rest) => if (skipSpace rest).isEmpty then some j else none
  | none => none

end SiteCatalog.Json
