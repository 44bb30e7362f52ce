/-!
# Paths

Paths are kept as they are written, because messages show them. What they lead to is decided by
their parts, the texts between slashes; two paths are ordered by the steps that they take.
-/

namespace SiteCatalog.Path

/-- The texts between slashes. -/
def split : List Char → List (List Char)
  | [] => [[]]
  | '/' :: rest => [] :: split rest
  | c :: rest =>
    match split rest with
    | part :: more => (c :: part) :: more
    | [] => [[c]]

/-- The parts of a path. -/
def parts (path : String) : List String :=
  (split path.toList).map String.ofList

/-- Whether a path starts at the root. -/
def isAbsolute (path : String) : Bool :=
  path.toList.head? = some '/'

/-- A path seen from a directory: an absolute path stays as it is, another one is appended after a
slash. -/
def join (directory path : String) : String :=
  if isAbsolute path || directory = "" then path
  else if directory.toList.getLast? = some '/' then directory ++ path
  else directory ++ "/" ++ path

/-! ## Parents -/

/-- A path, written backwards, without the slashes and points at its end that lead nowhere. -/
def dropIdle : List Char → List Char
  | ['/'] => ['/']
  | '/' :: rest => dropIdle rest
  | '.' :: '/' :: rest => dropIdle ('/' :: rest)
  | cs => cs

/-- The path without its last step. The root and the empty path have no parent. -/
def parent? (path : String) : Option String :=
  let steps := dropIdle path.toList.reverse
  if steps = [] ∨ steps = ['/'] then none
  else some (String.ofList (dropIdle (steps.dropWhile (· ≠ '/'))).reverse)

/-- A path and the paths above it, as far as they are not empty; `fuel` bounds their number. -/
def lineage : Nat → String → List String
  | 0, _ => []
  | fuel + 1, path =>
    if path = "" then []
    else path :: match parent? path with
      | some above => lineage fuel above
      | none => []

/-- A path and the paths above it, nearest first. The working directory, whose path is empty, is not
among them. -/
def ancestry (path : String) : List String :=
  lineage (path.length + 1) path

/-! ## Steps -/

/-- A step of a path. -/
inductive Step
  | root
  /-- The point that a path may start with. -/
  | here
  | up
  | name (s : String)
  deriving DecidableEq, Repr

/-- The step that a part stands for. Empty parts and points lead nowhere. -/
def Step.ofPart? (part : String) : Option Step :=
  if part = "" ∨ part = "." then none
  else if part = ".." then some .up
  else some (.name part)

/-- The steps of a path. -/
def steps (path : String) : List Step :=
  let inner := (parts path).filterMap Step.ofPart?
  if isAbsolute path then .root :: inner
  else if (parts path).head? = some "." then .here :: inner
  else inner

/-- The names among the steps of a path. -/
def names (path : String) : List String :=
  (steps path).filterMap fun
    | .name s => some s
    | _ => none

/-- The rank of a step and, among names, the name. -/
def Step.key : Step → Nat × String
  | root => (0, "")
  | here => (1, "")
  | up => (2, "")
  | name s => (3, s)

/-- Whether a step comes before another one. -/
def Step.before (a b : Step) : Bool :=
  a.key.1 < b.key.1 || (a.key.1 = b.key.1 && a.key.2 < b.key.2)

/-- Whether a list of steps does not come after another one. -/
def stepsLe : List Step → List Step → Bool
  | [], _ => true
  | _ :: _, [] => false
  | a :: as, b :: bs => a.before b || (a = b && stepsLe as bs)

/-- Whether a path does not come after another one. -/
def le (a b : String) : Bool :=
  stepsLe (steps a) (steps b)

end SiteCatalog.Path
