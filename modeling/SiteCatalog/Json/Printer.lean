import SiteCatalog.Json.Basic

/-!
# JSON text

The two written forms of a JSON value: one line without spaces, and indented by two spaces a level.
In strings only the quote, the backslash and control characters are escaped.
-/

namespace SiteCatalog.Json

/-- A hexadecimal digit with small letters. -/
def hexDigit (n : Nat) : Char :=
  if n < 10 then Char.ofNat (48 + n) else Char.ofNat (87 + n)

/-- How a character is written inside a string. -/
def escapeChar (c : Char) : List Char :=
  if c = '\x22' then ['\\', '\x22']
  else if c = '\\' then ['\\', '\\']
  else if c = '\x08' then ['\\', 'b']
  else if c = '\t' then ['\\', 't']
  else if c = '\n' then ['\\', 'n']
  else if c = '\x0c' then ['\\', 'f']
  else if c = '\r' then ['\\', 'r']
  else if c.toNat < 32 then ['\\', 'u', '0', '0', hexDigit (c.toNat / 16), hexDigit (c.toNat % 16)]
  else [c]

/-- A string in quotes. -/
def quote (s : String) : String :=
  String.ofList ('\x22' :: s.toList.flatMap escapeChar ++ ['\x22'])

mutual

/-- The value on one line. -/
def render : Json → String
  | .null => "null"
  | .bool true => "true"
  | .bool false => "false"
  | .number n => n.text
  | .string s => quote s
  | .array items => "[" ++ ",".intercalate (renderItems items) ++ "]"
  | .object members => "\x7b" ++ ",".intercalate (renderMembers members) ++ "\x7d"

/-- Every item on one line. -/
def renderItems : List Json → List String
  | [] => []
  | item :: rest => render item :: renderItems rest

/-- Every member on one line. -/
def renderMembers : List (String × Json) → List String
  | [] => []
  | (name, value) :: rest => (quote name ++ ":" ++ render value) :: renderMembers rest

end

/-- The start of a line at a level. -/
def newline (level : Nat) : String :=
  String.ofList ('\n' :: List.replicate (2 * level) ' ')

mutual

/-- The value in indented form, from a level on. -/
def renderIndented (level : Nat) : Json → String
  | .array items =>
    if items.isEmpty then "[]"
    else "[" ++ ",".intercalate (indentItems (level + 1) items) ++ newline level ++ "]"
  | .object members =>
    if members.isEmpty then "\x7b\x7d"
    else "\x7b" ++ ",".intercalate (indentMembers (level + 1) members) ++ newline level ++ "\x7d"
  | .null => "null"
  | .bool true => "true"
  | .bool false => "false"
  | .number n => n.text
  | .string s => quote s

/-- Every item on lines of its own. -/
def indentItems (level : Nat) : List Json → List String
  | [] => []
  | item :: rest => (newline level ++ renderIndented level item) :: indentItems level rest

/-- Every member on lines of its own. -/
def indentMembers (level : Nat) : List (String × Json) → List String
  | [] => []
  | (name, value) :: rest =>
    (newline level ++ quote name ++ ": " ++ renderIndented level value) :: indentMembers level rest

end

/-- The value in indented form. -/
def renderPretty (j : Json) : String :=
  renderIndented 0 j

end SiteCatalog.Json
