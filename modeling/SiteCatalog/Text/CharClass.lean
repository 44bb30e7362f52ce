import SiteCatalog.Text.CategoryData
import SiteCatalog.Text.PropertyData

/-!
# Classes of characters

The properties of characters that names, patterns and printed text depend on, each derived from the
general category and a short list of further characters.
-/

namespace SiteCatalog.Text

/-- The general category of a character. -/
def category (c : Char) : GeneralCategory :=
  CategoryRun.lookup categoryRuns c.toNat

/-- Letters, letter numbers and the other characters that words are spelled with. -/
def isAlphabetic (c : Char) : Bool :=
  (category c).isLetter || category c = .nl || CharRange.covers otherAlphabetic c.toNat

/-- Alphabetic characters and numbers. -/
def isAlphanumeric (c : Char) : Bool :=
  (category c).isNumber || isAlphabetic c

/-- Word characters: alphabetic characters, marks, decimal digits, connectors such as `_`, and the
two joiners. -/
def isWord (c : Char) : Bool :=
  isAlphabetic c || (category c).isMark || category c = .nd || category c = .pc
    || c.toNat = 0x200C || c.toNat = 0x200D

/-- White space. -/
def isBlank (c : Char) : Bool :=
  CharRange.covers whiteSpace c.toNat

/-- Characters that have a case or are a form of a character that has. -/
def isCased (c : Char) : Bool :=
  (category c).isCasedLetter || CharRange.covers otherCased c.toNat

/-- Characters that case rules look past, such as marks, formats and apostrophes. -/
def isCaseIgnorable (c : Char) : Bool :=
  match category c with
  | .mn | .me | .cf | .lm | .sk => true
  | _ => CharRange.covers otherCaseIgnorable c.toNat

/-- Characters that attach to the one before them. -/
def isGraphemeExtend (c : Char) : Bool :=
  match category c with
  | .mn | .me => true
  | _ => CharRange.covers otherGraphemeExtend c.toNat

/-- Characters with a visible form, and the space. -/
def isPrintable (c : Char) : Bool :=
  c = ' ' || !((category c).isSeparator || (category c).isOther)

/-- A text without the white space at its two ends. -/
def trim (cs : List Char) : List Char :=
  ((cs.dropWhile isBlank).reverse.dropWhile isBlank).reverse

end SiteCatalog.Text
