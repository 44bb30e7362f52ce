import SiteCatalog.Error
import SiteCatalog.Settings

/-!
# Reading settings

The TOML of a settings file: a list of keys with values. As all settings are strings and truth
values without any structure, tables, dotted keys and other values cannot be right; they are
refused together with unknown and repeated keys.
-/

namespace SiteCatalog

namespace Settings

/-- The value of a setting. -/
inductive Value
  | text (s : String)
  | flag (b : Bool)

/-! ## Lines -/

/-- Spaces and tabs. -/
def isBlank (c : Char) : Bool :=
  c = ' ' || c = '\t'

/-- Characters that a comment may hold. -/
def isCommentChar (c : Char) : Bool :=
  c = '\t' || (0x20 ≤ c.toNat && c.toNat ≠ 0x7F)

/-- The text after the end of a line, if it comes next. -/
def newline? : List Char → Option (List Char)
  | '\n' :: rest => some rest
  | '\r' :: '\n' :: rest => some rest
  | _ => none

/-- The text after what may follow on a line: blanks, a comment and the end of the line. -/
def lineRest? (cs : List Char) : Option (List Char) :=
  let cs := match cs.dropWhile isBlank with
    | '#' :: rest => rest.dropWhile isCommentChar
    | rest => rest
  if cs.isEmpty then some [] else newline? cs

/-! ## Strings -/

/-- Characters of a string that stand for themselves; the quote and, where it counts, the backslash
are not among them. -/
def isStringChar (quote : Char) (c : Char) : Bool :=
  isCommentChar c && c ≠ quote && !(quote = '\x22' && c = '\\')

/-- The number that hexadecimal digits write. -/
def hexNumber? (cs : List Char) : Option Nat :=
  cs.foldl (fun n? c => do
    let n ← n?
    let d ← if '0' ≤ c ∧ c ≤ '9' then some (c.toNat - 48)
      else if 'a' ≤ c ∧ c ≤ 'f' then some (c.toNat - 87)
      else if 'A' ≤ c ∧ c ≤ 'F' then some (c.toNat - 55)
      else none
    return n * 16 + d) (some 0)

/-- The character whose code a number of hexadecimal digits write, and the text after them. -/
def charOfHex? (width : Nat) (cs : List Char) : Option (Char × List Char) := do
  let digits := cs.take width
  if digits.length < width then none
  else
    let n ← hexNumber? digits
    if n < 0x110000 ∧ ¬(0xD800 ≤ n ∧ n < 0xE000) then return (Char.ofNat n, cs.drop width) else none

/-- The character that an escape stands for, after its backslash, and the text after it. -/
def escape? : List Char → Option (Char × List Char)
  | [] => none
  | c :: rest =>
    if c = 'b' then some ('\x08', rest)
    else if c = 't' then some ('\t', rest)
    else if c = 'n' then some ('\n', rest)
    else if c = 'f' then some ('\x0c', rest)
    else if c = 'r' then some ('\r', rest)
    else if c = '\x22' ∨ c = '\\' then some (c, rest)
    else if c = 'u' then charOfHex? 4 rest
    else if c = 'U' then charOfHex? 8 rest
    else none

/-- The text after blanks and line ends. -/
def dropBlankLines : List Char → List Char
  | '\r' :: '\n' :: rest => dropBlankLines rest
  | c :: rest => if isBlank c || c = '\n' then dropBlankLines rest else c :: rest
  | [] => []

/-- The text after the end of a line that a backslash hides, and after all blanks and line ends that
follow it. -/
def escapedLineEnd? (cs : List Char) : Option (List Char) :=
  (newline? (cs.dropWhile isBlank)).map dropBlankLines

/-- Reads the rest of a string on one line; the characters are gathered last first. -/
def lineString? (quote : Char) : Nat → List Char → List Char → Option (String × List Char)
  | 0, _, _ => none
  | _ + 1, _, [] => none
  | fuel + 1, acc, c :: rest =>
    if c = quote then some (String.ofList acc.reverse, rest)
    else if isStringChar quote c then lineString? quote fuel (c :: acc) rest
    else if c = '\\' then
      match escape? rest with
      | some (e, rest) => lineString? quote fuel (e :: acc) rest
      | none => none
    else none

/-- Reads the rest of a string over several lines, which three quotes end; one or two quotes may
stand before them. -/
def blockString? (quote : Char) : Nat → List Char → List Char → Option (String × List Char)
  | 0, _, _ => none
  | _ + 1, _, [] => none
  | fuel + 1, acc, c :: rest =>
    if c = quote then
      let quotes := (c :: rest).takeWhile (· = quote)
      let after := (c :: rest).drop quotes.length
      if quotes.length < 3 then blockString? quote fuel (quotes ++ acc) after
      else if quotes.length ≤ 5 then
        some (String.ofList (quotes.drop 3 ++ acc).reverse, after)
      else none
    else if isStringChar quote c then blockString? quote fuel (c :: acc) rest
    else if c = '\\' then
      match escapedLineEnd? rest with
      | some rest => blockString? quote fuel acc rest
      | none =>
        match escape? rest with
        | some (e, rest) => blockString? quote fuel (e :: acc) rest
        | none => none
    else
      match newline? (c :: rest) with
      | some rest => blockString? quote fuel ('\n' :: acc) rest
      | none => none

/-- Reads a string, from its opening quotes on. -/
def string? (quote : Char) (cs : List Char) : Option (String × List Char) :=
  if [quote, quote, quote].isPrefixOf cs then
    let body := cs.drop 3
    blockString? quote (body.length + 1) [] ((newline? body).getD body)
  else lineString? quote cs.length [] (cs.drop 1)

/-! ## Entries -/

/-- Reads a key: a word, or a string on one line. -/
def key? : List Char → Option (String × List Char)
  | [] => none
  | c :: rest =>
    if c = '\x22' ∨ c = '\'' then lineString? c (rest.length + 1) [] rest
    else
      let isWordChar (x : Char) : Bool := x.isAlphanum || x = '_' || x = '-'
      let word := (c :: rest).takeWhile isWordChar
      if word.isEmpty then none else some (String.ofList word, (c :: rest).drop word.length)

/-- Reads a value. -/
def value? : List Char → Option (Value × List Char)
  | 't' :: 'r' :: 'u' :: 'e' :: rest => some (.flag true, rest)
  | 'f' :: 'a' :: 'l' :: 's' :: 'e' :: rest => some (.flag false, rest)
  | c :: rest =>
    if c = '\x22' ∨ c = '\'' then
      (string? c (c :: rest)).map fun (s, rest) => (.text s, rest)
    else none
  | [] => none

/-- Reads a key with its value, up to the end of the line. -/
def entry? (cs : List Char) : Option ((String × Value) × List Char) := do
  let (key, rest) ← key? cs
  match rest.dropWhile isBlank with
  | '=' :: rest =>
    let (value, rest) ← value? (rest.dropWhile isBlank)
    return ((key, value), ← lineRest? rest)
  | _ => none

/-- Reads the lines of a text; `fuel` bounds their number. -/
def entries? : Nat → List Char → Option (List (String × Value))
  | 0, _ => none
  | fuel + 1, cs =>
    match cs.dropWhile isBlank with
    | [] => some []
    | c :: rest =>
      if c = '#' ∨ c = '\n' ∨ c = '\r' then do
        entries? fuel (← lineRest? (c :: rest))
      else do
        let (e, rest) ← entry? (c :: rest)
        let more ← entries? fuel rest
        return e :: more

/-! ## Settings -/

/-- Sets the setting that a key names. -/
def set? (s : Settings) : String × Value → Option Settings
  | ("environment", .text t) => some { s with environment := t }
  | ("freeze_main", .flag b) => some { s with freezeMain := b }
  | ("strict_variables", .flag b) => some { s with strictVariables := b }
  | ("manifest_dir", .text t) => some { s with manifestDir := t }
  | _ => none

/-- The settings that a text writes. A byte order mark before it does not count. -/
def ofText? (text : String) : Option Settings := do
  let cs := text.toList
  let cs := if cs.head?.any (·.toNat = 0xFEFF) then cs.drop 1 else cs
  let entries ← entries? (cs.length + 2) cs
  if (entries.map (·.1)).Nodup then entries.foldlM set? {} else none

/-- The settings that a text writes. -/
def parse (text : String) : Except CompileError Settings :=
  match ofText? text with
  | some s => .ok s
  | none => .error .settings

end Settings

end SiteCatalog
