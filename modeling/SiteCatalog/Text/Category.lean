/-!
# General categories

The partition of the characters that all other classes of characters are derived from.
-/

namespace SiteCatalog.Text

/-- The general categories, by their two-letter names. -/
inductive GeneralCategory
  | lu | ll | lt | lm | lo
  | mn | mc | me
  | nd | nl | no
  | pc | pd | ps | pe | pi | pf | po
  | sm | sc | sk | so
  | zs | zl | zp
  | cc | cf | co | cn
  deriving DecidableEq, Repr

/-- The characters from `first` to `last`: those at an even distance from `first` have the category
`even`, the others `odd`. -/
structure CategoryRun where
  first : Nat
  last : Nat
  even : GeneralCategory
  odd : GeneralCategory

/-- The category of a code point by runs in ascending order; in no run it is unassigned. -/
def CategoryRun.lookup : List CategoryRun → Nat → GeneralCategory
  | [], _ => .cn
  | r :: rest, n =>
    if n < r.first then .cn
    else if n ≤ r.last then (if (n - r.first) % 2 = 0 then r.even else r.odd)
    else lookup rest n

namespace GeneralCategory

/-- Letters. -/
def isLetter : GeneralCategory → Bool
  | lu | ll | lt | lm | lo => true
  | _ => false

/-- Letters with a case. -/
def isCasedLetter : GeneralCategory → Bool
  | lu | ll | lt => true
  | _ => false

/-- Marks, which combine with the character before them. -/
def isMark : GeneralCategory → Bool
  | mn | mc | me => true
  | _ => false

/-- Numbers: decimal digits, letter numbers and others. -/
def isNumber : GeneralCategory → Bool
  | nd | nl | no => true
  | _ => false

/-- Punctuation. -/
def isPunctuation : GeneralCategory → Bool
  | pc | pd | ps | pe | pi | pf | po => true
  | _ => false

/-- Symbols. -/
def isSymbol : GeneralCategory → Bool
  | sm | sc | sk | so => true
  | _ => false

/-- Separators. -/
def isSeparator : GeneralCategory → Bool
  | zs | zl | zp => true
  | _ => false

/-- Controls, formats, private and unassigned characters. -/
def isOther : GeneralCategory → Bool
  | cc | cf | co | cn => true
  | _ => false

end GeneralCategory

end SiteCatalog.Text
