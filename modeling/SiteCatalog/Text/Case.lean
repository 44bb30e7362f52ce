import SiteCatalog.Text.CaseData
import SiteCatalog.Text.CharClass

/-!
# Case

Full case mapping of text. Small letters are taken character by character except for the capital
sigma, which becomes `ς` at the end of a word and `σ` elsewhere: it ends a word if the nearest
character before it that case rules do not look past is cased, and the nearest such character after
it is not.
-/

namespace SiteCatalog.Text

/-- The small letter or letters of a character on its own. -/
def lowerChar (c : Char) : List Char :=
  if c.toNat = 0x130 then ['i', Char.ofNat 0x307]
  else match CaseRun.map? lowerRuns c.toNat with
    | some n => [Char.ofNat n]
    | none => [c]

/-- The capital or capitals of a character. -/
def upperChar (c : Char) : List Char :=
  match upperExpansions.lookup c.toNat with
  | some ns => ns.map Char.ofNat
  | none => match CaseRun.map? upperRuns c.toNat with
    | some n => [Char.ofNat n]
    | none => [c]

/-- Whether the first character that case rules do not look past is cased. -/
def startsCased : List Char → Bool
  | [] => false
  | c :: rest => if isCaseIgnorable c then startsCased rest else isCased c

/-- The small letters of a text that follows other text; `afterCased` says whether the nearest
character of that text that case rules do not look past is cased. -/
def lowerAfter (afterCased : Bool) : List Char → List Char
  | [] => []
  | c :: rest =>
    (if c = 'Σ' then [if afterCased && !startsCased rest then 'ς' else 'σ'] else lowerChar c)
      ++ lowerAfter (if isCaseIgnorable c then afterCased else isCased c) rest

/-- The small letters of a text. -/
def lower (cs : List Char) : List Char :=
  lowerAfter false cs

/-- The text with the capital of its first character. -/
def capitalize : List Char → List Char
  | [] => []
  | c :: rest => upperChar c ++ rest

/-- The small letter of an ASCII capital; every other character is kept. -/
def asciiLower (c : Char) : Char :=
  if 'A' ≤ c ∧ c ≤ 'Z' then Char.ofNat (c.toNat + 32) else c

/-- The common form of the characters that differ from a character in case only. -/
def foldPoint (n : Nat) : Nat :=
  (CaseRun.map? foldRuns n).getD n

/-- The code points that runs map to a code point. -/
def CaseRun.preimages (runs : List CaseRun) (n : Nat) : List Nat :=
  (runs.map fun r => ((n : Int) - r.shift).toNat).filter fun m => CaseRun.map? runs m = some n

/-- Every character that differs from a character in case only, itself among them. -/
def caseVariants (c : Char) : List Char :=
  let common := foldPoint c.toNat
  c :: (common :: CaseRun.preimages foldRuns common).map Char.ofNat

/-- Equality up to the case of ASCII letters. -/
def asciiEq (s t : List Char) : Bool :=
  s.map asciiLower = t.map asciiLower

end SiteCatalog.Text
