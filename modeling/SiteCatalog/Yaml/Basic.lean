import SiteCatalog.Number
import SiteCatalog.Text.CharClass

/-!
# YAML values

Trees of YAML after tags and plain scalars have been resolved, and the text under which a whole tree
is shown. The keys of a mapping may be any values.
-/

namespace SiteCatalog

/-- A YAML value. -/
inductive Yaml
  | null
  | bool (b : Bool)
  | number (n : Number)
  | string (s : String)
  | sequence (items : List Yaml)
  | mapping (entries : List (Yaml × Yaml))
  /-- A value with a tag of its own; the tag is kept without its exclamation mark. -/
  | tagged (tag : String) (value : Yaml)
  deriving Inhabited

namespace Yaml

/-- The hexadecimal digits of a number, in small letters. -/
def hexDigits (n : Nat) : List Char :=
  Nat.toDigits 16 n

/-- How a character is shown inside quotes: characters without a form of their own by their code. -/
def showChar (c : Char) : List Char :=
  if c = '\x00' then ['\\', '0']
  else if c = '\t' then ['\\', 't']
  else if c = '\r' then ['\\', 'r']
  else if c = '\n' then ['\\', 'n']
  else if c = '\x22' then ['\\', '\x22']
  else if c = '\\' then ['\\', '\\']
  else if Text.isGraphemeExtend c || !Text.isPrintable c then
    ['\\', 'u', '\x7b'] ++ hexDigits c.toNat ++ ['\x7d']
  else [c]

/-- A string in quotes. -/
def showString (s : String) : String :=
  String.ofList ('\x22' :: s.toList.flatMap showChar ++ ['\x22'])

/-- A truth value as a word. -/
def showBool (b : Bool) : String :=
  if b then "true" else "false"

mutual

/-- The text that shows a value. -/
def shown : Yaml → String
  | .null => "Null"
  | .bool b => "Bool(" ++ showBool b ++ ")"
  | .number n => "Number(" ++ n.text ++ ")"
  | .string s => "String(" ++ showString s ++ ")"
  | .sequence items => "Sequence [" ++ ", ".intercalate (shownItems items) ++ "]"
  | .mapping entries => "Mapping \x7b" ++ ", ".intercalate (shownEntries entries) ++ "\x7d"
  | .tagged tag value =>
    "TaggedValue \x7b tag: !" ++ tag ++ ", value: " ++ shown value ++ " \x7d"

/-- The texts that show items. -/
def shownItems : List Yaml → List String
  | [] => []
  | item :: rest => shown item :: shownItems rest

/-- The texts that show entries. -/
def shownEntries : List (Yaml × Yaml) → List String
  | [] => []
  | (key, value) :: rest => (shownKey key ++ ": " ++ shown value) :: shownEntries rest

/-- The text that shows a key; scalars stand for themselves. -/
def shownKey : Yaml → String
  | .bool b => showBool b
  | .number n => n.text
  | .string s => showString s
  | .null => "Null"
  | .sequence items => "Sequence [" ++ ", ".intercalate (shownItems items) ++ "]"
  | .mapping entries => "Mapping \x7b" ++ ", ".intercalate (shownEntries entries) ++ "\x7d"
  | .tagged tag value =>
    "TaggedValue \x7b tag: !" ++ tag ++ ", value: " ++ shown value ++ " \x7d"

end

end Yaml

end SiteCatalog
