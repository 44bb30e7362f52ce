import SiteCatalog.Pattern.Basic

/-!
# Named sets of characters

The sets that a pattern can name: the bracketed ASCII classes, the one-letter classes, and the
general categories and a few properties in braces. Names of categories and properties are compared
without case, spaces, hyphens and underscores, and without a leading `is`.
-/

namespace SiteCatalog.Pattern

open SiteCatalog.Text

/-- The union of several sets. -/
def CharSet.unions (sets : List CharSet) : CharSet :=
  sets.foldr .union .none

/-- ASCII digits. -/
def asciiDigit : CharSet := .range '0' '9'

/-- ASCII letters. -/
def asciiAlpha : CharSet := .union (.range 'a' 'z') (.range 'A' 'Z')

/-- ASCII word characters. -/
def asciiWord : CharSet := CharSet.unions [asciiAlpha, asciiDigit, .single '_']

/-- Whether a character is an ASCII word character. -/
def isAsciiWord (c : Char) : Bool := asciiWord.has c

/-- ASCII white space of the one-letter class. -/
def asciiSpace : CharSet := CharSet.unions [.range '\t' '\r', .single ' ']

/-- The ASCII class of a name between colons. -/
def asciiClass? (name : String) : Option CharSet :=
  match name with
  | "alnum" => some (.union asciiAlpha asciiDigit)
  | "alpha" => some asciiAlpha
  | "ascii" => some (.range '\x00' '\x7f')
  | "blank" => some (.union (.single ' ') (.single '\t'))
  | "cntrl" => some (.union (.range '\x00' '\x1f') (.single '\x7f'))
  | "digit" => some asciiDigit
  | "graph" => some (.range '!' '~')
  | "lower" => some (.range 'a' 'z')
  | "print" => some (.range ' ' '~')
  | "punct" =>
    some (CharSet.unions [.range '!' '/', .range ':' '@', .range '[' '\x60', .range '\x7b' '~'])
  | "space" => some asciiSpace
  | "upper" => some (.range 'A' 'Z')
  | "word" => some asciiWord
  | "xdigit" => some (CharSet.unions [asciiDigit, .range 'a' 'f', .range 'A' 'F'])
  | _ => none

/-- A name of a category or property in the form in which names are compared. -/
def plainName (name : List Char) : List Char :=
  let kept := (name.filter fun c => !(c = ' ' || c = '_' || c = '-' || isBlank c)).map asciiLower
  match kept with
  | 'i' :: 's' :: rest => if rest = ['c'] then kept else rest
  | _ => kept

/-- The set of a general category, by its short or its long name. -/
def categoryClass? (name : String) : Option CharSet :=
  let one (g : GeneralCategory) : Option CharSet := some (.category fun h => decide (h = g))
  match name with
  | "any" => some .any
  | "assigned" => some (.category fun h => decide (h ≠ .cn))
  | "ascii" => some (.range '\x00' '\x7f')
  | "l" | "letter" => some (.category (·.isLetter))
  | "lc" | "casedletter" => some (.category (·.isCasedLetter))
  | "lu" | "uppercaseletter" => one .lu
  | "ll" | "lowercaseletter" => one .ll
  | "lt" | "titlecaseletter" => one .lt
  | "lm" | "modifierletter" => one .lm
  | "lo" | "otherletter" => one .lo
  | "m" | "mark" | "combiningmark" => some (.category (·.isMark))
  | "mn" | "nonspacingmark" => one .mn
  | "mc" | "spacingmark" => one .mc
  | "me" | "enclosingmark" => one .me
  | "n" | "number" => some (.category (·.isNumber))
  | "nd" | "decimalnumber" | "digit" => one .nd
  | "nl" | "letternumber" => one .nl
  | "no" | "othernumber" => one .no
  | "p" | "punctuation" | "punct" => some (.category (·.isPunctuation))
  | "pc" | "connectorpunctuation" => one .pc
  | "pd" | "dashpunctuation" => one .pd
  | "ps" | "openpunctuation" => one .ps
  | "pe" | "closepunctuation" => one .pe
  | "pi" | "initialpunctuation" => one .pi
  | "pf" | "finalpunctuation" => one .pf
  | "po" | "otherpunctuation" => one .po
  | "s" | "symbol" => some (.category (·.isSymbol))
  | "sm" | "mathsymbol" => one .sm
  | "sc" | "currencysymbol" => one .sc
  | "sk" | "modifiersymbol" => one .sk
  | "so" | "othersymbol" => one .so
  | "z" | "separator" => some (.category (·.isSeparator))
  | "zs" | "spaceseparator" => one .zs
  | "zl" | "lineseparator" => one .zl
  | "zp" | "paragraphseparator" => one .zp
  | "c" | "other" => some (.category (·.isOther))
  | "cc" | "control" | "cntrl" => one .cc
  | "cf" | "format" => one .cf
  | "co" | "privateuse" => one .co
  | "cn" | "unassigned" => one .cn
  | _ => none

/-- Letters and other characters in small form. -/
def isLowercase (c : Char) : Bool :=
  category c = .ll || (CharRange.covers otherCased c.toNat && lowerChar c = [c] && category c ≠ .lt)

/-- The set of a property. -/
def propertyClass? (name : String) : Option CharSet :=
  match name with
  | "alphabetic" | "alpha" => some (.property isAlphabetic)
  | "whitespace" | "wspace" | "space" => some (.property Text.isBlank)
  | "cased" => some (.property isCased)
  | "caseignorable" | "ci" => some (.property isCaseIgnorable)
  | "graphemeextend" | "grext" => some (.property isGraphemeExtend)
  | "uppercase" | "upper" =>
    some (.property fun c => isCased c && !isLowercase c && category c ≠ .lt)
  | "lowercase" | "lower" => some (.property isLowercase)
  | _ => none

/-- The set that a name in braces stands for. -/
def namedClass? (name : List Char) : Option CharSet :=
  let plain := String.ofList (plainName name)
  match propertyClass? plain with
  | some s => some s
  | none => categoryClass? plain

/-- The set that a property with a value stands for. -/
def valueClass? (property value : List Char) : Option CharSet :=
  match String.ofList (plainName property) with
  | "gc" | "generalcategory" => categoryClass? (String.ofList (plainName value))
  | _ => none

end SiteCatalog.Pattern
