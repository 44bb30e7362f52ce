import SiteCatalog.Files.System

/-!
# Globs

Paths with wildcards, and the search for what they match. In a part of a path `?` stands for one
character, `*` for any number of them and `[a-z]` or `[!a-z]` for one of a set; the part `**` stands
for any number of directories. Hidden names match like any other.
-/

namespace SiteCatalog

namespace Glob

/-- A range of characters. -/
structure Range where
  first : Char
  last : Char

/-- What a part of a glob is made of. -/
inductive Token
  | char (c : Char)
  | anyChar
  | anyText
  | oneOf (ranges : List Range)
  | noneOf (ranges : List Range)

/-- A part of a glob. -/
inductive Part
  /-- Any number of directories. -/
  | directories
  | name (tokens : List Token)

/-! ## Reading -/

/-- The ranges of a set. A `-` between two characters makes a range of them. -/
def ranges : List Char → List Range
  | a :: '-' :: b :: rest => ⟨a, b⟩ :: ranges rest
  | a :: rest => ⟨a, a⟩ :: ranges rest
  | [] => []

/-- What stands before and after the first `]`. -/
def splitAtClose? : List Char → Option (List Char × List Char)
  | [] => none
  | ']' :: rest => some ([], rest)
  | c :: rest => (splitAtClose? rest).map fun (before, after) => (c :: before, after)

theorem length_lt_of_splitAtClose? {cs before after : List Char}
    (h : splitAtClose? cs = some (before, after)) : after.length < cs.length := by
  fun_induction splitAtClose? cs generalizing before with
  | case1 => cases h
  | case2 rest =>
    cases h
    simp
  | case3 c rest _ ih =>
    obtain ⟨⟨b, a⟩, hb, heq⟩ := Option.map_eq_some_iff.1 h
    cases heq
    exact Nat.lt_succ_of_lt (ih hb)

/-- The tokens of a part that is not `**`. A set has to be closed and may not be empty, and no two
asterisks may follow each other. -/
def tokens? : List Char → Option (List Token)
  | [] => some []
  | '*' :: '*' :: _ => none
  | '*' :: rest => (tokens? rest).map (.anyText :: ·)
  | '?' :: rest => (tokens? rest).map (.anyChar :: ·)
  | '[' :: '!' :: c :: rest =>
    match h : splitAtClose? rest with
    | some (before, after) =>
      have : after.length < rest.length := length_lt_of_splitAtClose? h
      (tokens? after).map (.noneOf (ranges (c :: before)) :: ·)
    | none => none
  | '[' :: c :: rest =>
    if c = '!' then none
    else
      match h : splitAtClose? rest with
      | some (before, after) =>
        have : after.length < rest.length := length_lt_of_splitAtClose? h
        (tokens? after).map (.oneOf (ranges (c :: before)) :: ·)
      | none => none
  | ['['] => none
  | c :: rest => (tokens? rest).map (.char c :: ·)
termination_by cs => cs.length

/-- Reads a part. -/
def Part.ofText? (text : String) : Option Part :=
  if text = "**" then some .directories else (tokens? text.toList).map .name

/-- The parts of a glob, from the root or the working directory on. -/
def parse? (glob : String) : Option (List Part) :=
  let parts := Path.parts glob
  (if Path.isAbsolute glob then parts.drop 1 else parts).mapM Part.ofText?

/-! ## Matching -/

/-- Whether ranges hold a character. -/
def within (ranges : List Range) (c : Char) : Bool :=
  ranges.any fun r => r.first ≤ c && c ≤ r.last

/-- Whether a token stands for a character. -/
def Token.accepts (c : Char) : Token → Bool
  | char d => c = d
  | anyChar => true
  | anyText => false
  | oneOf ranges => within ranges c
  | noneOf ranges => !within ranges c

/-- Whether tokens stand for a text. -/
def fits : List Token → List Char → Bool
  | [], cs => cs.isEmpty
  | .anyText :: tokens, [] => fits tokens []
  | .anyText :: tokens, c :: cs => fits tokens (c :: cs) || fits (.anyText :: tokens) cs
  | _ :: _, [] => false
  | token :: tokens, c :: cs => token.accepts c && fits tokens cs
termination_by tokens cs => tokens.length + cs.length

/-- The text of tokens without wildcards. -/
def literal? : List Token → Option String
  | [] => some ""
  | .char c :: rest => (literal? rest).map (String.singleton c ++ ·)
  | _ => none

/-- The two names that every directory has besides its entries, as far as tokens stand for them.
Only tokens that start with a point do. -/
def ownNames (tokens : List Token) : List String :=
  match tokens with
  | .char '.' :: _ => [".", ".."].filter fun name => fits tokens name.toList
  | _ => []

/-! ## Searching -/

/-- The path of an entry of a directory; in the working directory it is the name alone. -/
def entryPath (directory name : String) : String :=
  if Path.steps directory = [.here] then name else Path.join directory name

/-- The parts after those that stand for any number of directories. -/
def afterDirectories : List Part → List Part
  | .directories :: rest => afterDirectories rest
  | parts => parts

variable {m : Type → Type} [Monad m] [FileSystem m]

/-- The names in a directory, sorted. -/
def children (directory : String) : ExceptT CompileError m (List String) :=
  ExceptT.mk do
    match ← FileSystem.entries directory with
    | .ok names => return .ok (names.mergeSort fun a b => decide (a ≤ b))
    | .error fault => return .error (.manifest (.unreadable directory fault))

/-- Whether a name leads on from a directory; the two own names do if there is a directory. -/
def leadsOn (directory name path : String) : m Bool :=
  if name = "." ∨ name = ".." then FileSystem.isDirectory directory else FileSystem.present path

/-- Finds what parts match below a directory, where `search` finds what fewer parts match, or what
they match further down. -/
def step (search : String → List Part → ExceptT CompileError m (List String))
    (directory : String) : List Part → ExceptT CompileError m (List String)
  | [] => return [directory]
  | .directories :: rest => do
    if ← (FileSystem.isDirectory directory : m Bool) then
      let rest := afterDirectories rest
      let found ← (← children directory).mapM fun name => do
        let path := entryPath directory name
        let here ← match rest with
          | .name tokens :: more => if fits tokens name.toList then search path more else pure []
          | _ => if ← (FileSystem.isDirectory path : m Bool) then pure [path] else pure []
        let below ← search path (.directories :: rest)
        return here ++ below
      return found.flatten
    else return []
  | .name tokens :: rest => do
    match literal? tokens with
    | some name =>
      let path := entryPath directory name
      if ← (leadsOn directory name path : m Bool) then search path rest else return []
    | none =>
      if ← (FileSystem.isDirectory directory : m Bool) then
        let own ← (ownNames tokens).mapM fun name => search (Path.join directory name) rest
        let names := (← children directory).filter fun name => fits tokens name.toList
        let found ← names.mapM fun name => search (entryPath directory name) rest
        return own.flatten ++ found.flatten
      else return []

/-- Finds what parts match below a directory; `fuel` bounds the number of steps on a path. -/
def search : Nat → String → List Part → ExceptT CompileError m (List String)
  | 0, _, _ => return []
  | fuel + 1, directory, parts => step (search fuel) directory parts

/-- More steps than a path can take: each is at least two characters long, and no system of files
follows paths of that length. -/
def enoughSteps : Nat := 8192

/-- The paths that a glob matches. -/
def find (glob : String) : ExceptT CompileError m (List String) :=
  match parse? glob with
  | some parts => search enoughSteps (if Path.isAbsolute glob then "/" else ".") parts
  | none => throw (.manifest (.badGlob glob))

end Glob

end SiteCatalog
