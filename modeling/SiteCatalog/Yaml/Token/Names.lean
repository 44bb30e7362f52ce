import SiteCatalog.Yaml.Token.Cursor

/-!
# Reading names, tags and directives

Anchors, aliases, tags and the directives before a document.
-/

namespace SiteCatalog.Yaml

/-! ## Tags -/

/-- Characters of a tag outside angle brackets. -/
def isTagChar (c : Char) : Bool :=
  isNameChar c || c = ';' || c = '/' || c = '?' || c = ':' || c = '@' || c = '&' || c = '='
    || c = '+'
    || c = '$' || c = '.' || c = '!' || c = '~' || c = '*' || c = '\'' || c = '(' || c = ')'

/-- Characters of a tag; in angle brackets and in directives there are some more. -/
def isUriChar (bracketed : Bool) (c : Char) : Bool :=
  isTagChar c || (bracketed && (c = ',' || c = '[' || c = ']'))

/-- The value of a hexadecimal digit. -/
def hexDigitValue? (c : Char) : Option Nat :=
  if '0' ≤ c ∧ c ≤ '9' then some (c.toNat - 48)
  else if 'a' ≤ c ∧ c ≤ 'f' then some (c.toNat - 87)
  else if 'A' ≤ c ∧ c ≤ 'F' then some (c.toNat - 55)
  else none

/-- The byte that a percent sign and two digits stand for. -/
def percentByte? : List Char → Option (Nat × List Char)
  | '%' :: a :: b :: rest => do
    return ((← hexDigitValue? a) * 16 + (← hexDigitValue? b), rest)
  | _ => none

/-- Reads the further bytes of an encoded character. -/
def percentTail? : Nat → Nat → List Char → Option Nat
  | 0, acc, _ => some acc
  | n + 1, acc, cs => do
    let (byte, rest) ← percentByte? cs
    if byte / 64 = 2 then percentTail? n (acc * 64 + byte % 64) rest else none

/-- The character that an encoded sequence of bytes stands for, and the number of its bytes. -/
def percentChar? (cs : List Char) : Option (Char × Nat) := do
  let (byte, rest) ← percentByte? cs
  let (width, bits) ←
    if byte < 128 then some (1, byte)
    else if byte / 32 = 6 then some (2, byte % 32)
    else if byte / 16 = 14 then some (3, byte % 16)
    else if byte / 8 = 30 then some (4, byte % 8)
    else none
  let code ← percentTail? (width - 1) bits rest
  if code < 0x110000 ∧ ¬(0xD800 ≤ code ∧ code < 0xE000) then return (Char.ofNat code, width)
  else none

/-- Reads the characters of a tag; they are gathered last first. -/
def uriFrom? (bracketed : Bool) : Nat → List Char → Cursor → Option (List Char × Cursor)
  | 0, acc, c => some (acc.reverse, c)
  | fuel + 1, acc, c =>
    match c.peek with
    | none => some (acc.reverse, c)
    | some x =>
      if x = '%' then do
        let (y, width) ← percentChar? c.rest
        uriFrom? bracketed fuel (y :: acc) (c.skip (3 * width))
      else if isUriChar bracketed x then uriFrom? bracketed fuel (x :: acc) (c.skip 1)
      else some (acc.reverse, c)

/-- Reads the characters of a tag, of which there is at least one. -/
def uri? (bracketed : Bool) (c : Cursor) : Option (List Char × Cursor) := do
  let (text, after) ← uriFrom? bracketed c.rest.length [] c
  if text.isEmpty then none else return (text, after)

/-- Reads the handle of a tag: an exclamation mark, and perhaps a name and another mark. -/
def tagHandle? (c : Cursor) : Option (List Char × Cursor) :=
  if c.sees '!' then
    let name := (c.skip 1).run isNameChar
    let after := c.skip (name.length + 1)
    if after.sees '!' then some ('!' :: name ++ ['!'], after.skip 1) else some ('!' :: name, after)
  else none

/-- The handle and the rest of a tag that is not in angle brackets. -/
def shortTag? (c : Cursor) : Option (Token × Cursor) := do
  let (handle, after) ← tagHandle? c
  if 1 < handle.length ∧ handle.getLast? = some '!' then
    let (suffix, after) ← uri? false after
    return (.tag handle suffix, after)
  else
    let (more, after) ← uriFrom? false after.rest.length [] after
    let suffix := handle.drop 1 ++ more
    return (if suffix.isEmpty then .tag [] ['!'] else .tag ['!'] suffix, after)

/-- Reads a tag. A space, the end of the line or, inside brackets, a comma comes after it. -/
def tag? (inFlow : Bool) (c : Cursor) : Option (Token × Cursor) := do
  let (token, after) ←
    if c.peekAt 1 = some '<' then do
      let (suffix, after) ← uri? true (c.skip 2)
      if after.sees '>' then some (Token.tag [] suffix, after.skip 1) else none
    else shortTag? c
  if isGap after.peek || (inFlow && after.sees ',') then return (token, after) else none

/-! ## Anchors -/

/-- Characters that may follow the name of an anchor. -/
def endsName (c : Option Char) : Bool :=
  isGap c || c.any fun x =>
    x = '?' || x = ':' || x = ',' || x = ']' || x = '\x7d' || x = '%' || x = '@'
    || x = '\x60'

/-- Reads the name of an anchor or alias after its mark. -/
def anchorName? (c : Cursor) : Option (List Char × Cursor) :=
  let name := (c.skip 1).run isNameChar
  let after := c.skip (name.length + 1)
  if !name.isEmpty && endsName after.peek then some (name, after) else none

/-! ## Directives -/

/-- Reads a number of at most nine digits. -/
def versionNumber? (c : Cursor) : Option (Nat × Cursor) :=
  let digits := c.run Char.isDigit
  if digits.isEmpty ∨ 9 < digits.length then none
  else some (digits.foldl (fun n x => n * 10 + (x.toNat - 48)) 0, c.skip digits.length)

/-- Reads a directive: the version of the format, or what a handle of tags stands for. -/
def directive? (c : Cursor) : Option (Token × Cursor) := do
  let name := (c.skip 1).run isNameChar
  let after := c.skip (name.length + 1)
  if !isGap after.peek then none
  else
    let after := after.skipWhile isBlank
    if name = "YAML".toList then
      let (major, after) ← versionNumber? after
      if after.sees '.' then
        let (minor, after) ← versionNumber? (after.skip 1)
        return (.version major minor, ← after.finishLine?)
      else none
    else if name = "TAG".toList then
      let (handle, after) ← tagHandle? after
      if handle ≠ ['!'] ∧ handle.getLast? ≠ some '!' then none
      else if after.seesAny isBlank then
        let (expansion, after) ← uri? true (after.skipWhile isBlank)
        if isGap after.peek then return (.handle handle expansion, ← after.finishLine?) else none
      else none
    else none

end SiteCatalog.Yaml
