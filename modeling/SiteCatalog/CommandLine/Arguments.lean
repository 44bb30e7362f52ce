import SiteCatalog.CommandLine.Command

/-!
# Arguments

Reading a request from the arguments of the program. An option is written `--name VALUE`,
`--name=VALUE`, `-n VALUE`, `-nVALUE` or `-n=VALUE`. What starts with a minus sign is never the
value of an option that comes before it, unless it is a minus sign alone, and after `--` there are
no more options.
-/

namespace SiteCatalog.CommandLine

/-- The commands by name. -/
inductive Verb
  | compile
  | validate
  | types
  | select
  deriving DecidableEq, Repr

/-- The commands. -/
def Verb.all : List Verb :=
  [compile, validate, types, select]

/-- The name of a command. -/
def Verb.text : Verb → String
  | compile => "compile"
  | validate => "validate"
  | types => "types"
  | select => "match"

/-- The command of a name. -/
def Verb.ofText? (s : String) : Option Verb :=
  Verb.all.find? (·.text = s)

/-- The options; all of them take a value. -/
inductive Flag
  | node
  | manifests
  | facts
  | classes
  | format
  | out
  | config
  | kind
  deriving DecidableEq, Repr

namespace Flag

/-- The name after two minus signs. -/
def long : Flag → String
  | node => "node"
  | manifests => "manifests"
  | facts => "facts"
  | classes => "class"
  | format => "format"
  | out => "out"
  | config => "config"
  | kind => "kind"

/-- The letter after one minus sign. -/
def short? : Flag → Option Char
  | node => some 'n'
  | manifests => some 'm'
  | classes => some 'c'
  | out => some 'o'
  | kind => some 'k'
  | facts | format | config => none

/-- An option as messages show it. -/
def text (f : Flag) : String :=
  "--" ++ f.long

/-- Whether an option may occur more than once. -/
def repeatable (f : Flag) : Bool :=
  f = classes

/-- What is wrong with a value of an option. Paths are not empty. -/
def fault? (f : Flag) (value : String) : Option UsageFault :=
  match f with
  | node | classes => none
  | manifests | facts | out | config => if value = "" then some (.invalidValue f.text) else none
  | format => if (OutputFormat.ofText? value).isNone then some (.invalidValue f.text) else none
  | kind => if (Kind.ofText? value).isNone then some (.unknownValue f.text) else none

end Flag

/-- The options of a command. -/
def Verb.flags : Verb → List Flag
  | compile => [.node, .manifests, .facts, .classes, .format, .out, .config]
  | validate => [.manifests, .config]
  | types => [.manifests, .kind, .format, .config]
  | select => [.manifests, .config]

/-! ## Reading -/

/-- What has been read. -/
structure Reading where
  /-- The options with their values, in order. -/
  given : List (Flag × String) := []
  /-- The last option, which is checked when something else follows. -/
  pending : Option (Flag × Option String) := none
  /-- The argument that is not an option. -/
  operand : Option String := none

namespace Reading

/-- Adds an option with its value. -/
def give (r : Reading) (f : Flag) (value : String) : Except UsageFault Reading :=
  if !f.repeatable && r.given.any (·.1 = f) then .error (.repeatedOption f.text)
  else match f.fault? value with
    | some fault => .error fault
    | none => .ok { r with given := r.given ++ [(f, value)] }

/-- Checks and adds the pending option. -/
def settle (r : Reading) : Except UsageFault Reading :=
  match r.pending with
  | none => .ok r
  | some (f, none) => .error (.invalidValue f.text)
  | some (f, some value) => give { r with pending := none } f value

/-- Whether the next argument may be the value of an option. -/
def awaitsValue (r : Reading) : Option Flag :=
  match r.pending with
  | some (f, none) => some f
  | _ => none

/-- Reads an option, with the value that is attached to it if there is one. -/
def flag (r : Reading) (f : Flag) (attached : Option String) : Except UsageFault Reading := do
  let r ← r.settle
  match attached with
  | some value => r.give f value
  | none => return { r with pending := some (f, none) }

/-- Reads an argument that is not an option; only one command has one. -/
def takeOperand (verb : Verb) (r : Reading) (arg : String) : Except UsageFault Reading :=
  if verb = .select && r.operand.isNone then do
    return { ← r.settle with operand := some arg }
  else .error (.unknownArgument arg)

/-- Reads an option after two minus signs. -/
def takeLong (verb : Verb) (r : Reading) (body : List Char) : Except UsageFault Reading :=
  let name := String.ofList (body.takeWhile (· ≠ '='))
  let attached := match body.dropWhile (· ≠ '=') with
    | '=' :: value => some (String.ofList value)
    | _ => none
  if name = "help" then
    match attached with
    | some _ => .error (.unwantedValue "--help")
    | none => do
      let _ ← r.settle
      .error .help
  else match verb.flags.find? (·.long = name) with
    | some f => r.flag f attached
    | none => .error (.unknownArgument ("--" ++ name))

/-- Reads an option after one minus sign. -/
def takeShort (verb : Verb) (r : Reading) (letter : Char) (body : List Char) :
    Except UsageFault Reading :=
  if letter = 'h' then do
    let _ ← r.settle
    .error .help
  else match verb.flags.find? (·.short? = some letter) with
    | some f => r.flag f (match body with
      | [] => none
      | '=' :: value => some (String.ofList value)
      | value => some (String.ofList value))
    | none => .error (.unknownArgument (String.ofList ['-', letter]))

/-- Reads an argument that no minus sign starts. -/
def takeText (verb : Verb) (r : Reading) (arg : String) : Except UsageFault Reading :=
  match r.awaitsValue with
  | some f => .ok { r with pending := some (f, some arg) }
  | none => r.takeOperand verb arg

/-- Reads arguments among which there are no options. -/
def takeOperands (verb : Verb) : Reading → List String → Except UsageFault Reading
  | r, [] => r.settle
  | r, arg :: rest => do takeOperands verb (← r.takeOperand verb arg) rest

/-- Reads the arguments of a command. -/
def takeAll (verb : Verb) : Reading → List String → Except UsageFault Reading
  | r, [] => r.settle
  | r, arg :: rest =>
    match arg.toList with
    | ['-', '-'] => r.takeOperands verb rest
    | '-' :: '-' :: body => do takeAll verb (← r.takeLong verb body) rest
    | '-' :: letter :: body => do takeAll verb (← r.takeShort verb letter body) rest
    | _ => do takeAll verb (← r.takeText verb arg) rest

/-- The value of an option. -/
def value? (r : Reading) (f : Flag) : Option String :=
  r.given.lookup f

/-- The values of an option. -/
def values (r : Reading) (f : Flag) : List String :=
  r.given.filterMap fun (g, value) => if g = f then some value else none

/-- Where the site is described. -/
def site (r : Reading) : Site :=
  ⟨r.value? .manifests, (r.value? .config).getD "hostcat.toml"⟩

/-- The output format that is asked for. -/
def format? (r : Reading) : Option OutputFormat :=
  (r.value? .format).bind OutputFormat.ofText?

/-- The request of a command. -/
def command (verb : Verb) (r : Reading) : Except UsageFault Command :=
  match verb with
  | .compile =>
    match r.value? .node with
    | some host => .ok (.compile r.site host (r.value? .facts) (r.values .classes)
        (r.format?.getD .yaml) (r.value? .out))
    | none => .error (.missingArgument Flag.node.text)
  | .validate => .ok (.validate r.site)
  | .types => .ok (.types r.site ((r.value? .kind).bind Kind.ofText?) r.format?)
  | .select =>
    match r.operand with
    | some host => .ok (.select r.site host)
    | none => .error (.missingArgument "HOSTNAME")

end Reading

/-- Whether a text is the name of a command; `help` is one too. -/
def isCommandName (s : String) : Bool :=
  s = "help" || (Verb.ofText? s).isSome

/-- What a request for help comes to: it may name one command. -/
def helpFault : List String → UsageFault
  | [] => .help
  | [name] => if isCommandName name then .help else .unknownCommand name
  | name :: next :: _ => if isCommandName name then .unknownCommand next else .unknownCommand name

/-- What the first argument comes to if it is not the name of a command. -/
def startFault : List String → UsageFault
  | [] => .noCommand
  | arg :: rest =>
    match arg.toList with
    | ['-', '-'] =>
      match rest with
      | [] => .noCommand
      | next :: _ => if isCommandName next then .unknownArgument next else .unknownCommand next
    | '-' :: '-' :: 'h' :: 'e' :: 'l' :: 'p' :: more =>
      match more with
      | [] => .help
      | '=' :: _ => .unwantedValue "--help"
      | _ => .unknownArgument arg
    | '-' :: '-' :: _ => .unknownArgument arg
    | '-' :: 'h' :: _ => .help
    | '-' :: _ :: _ => .unknownArgument arg
    | _ => .unknownCommand arg

/-- The request that the arguments of the program make. -/
def Command.ofArguments (arguments : List String) : Except UsageFault Command :=
  match arguments with
  | [] => .error .noCommand
  | name :: rest =>
    if name = "help" then .error (helpFault rest)
    else match Verb.ofText? name with
      | some verb => do (← Reading.takeAll verb {} rest).command verb
      | none => .error (startFault arguments)

end SiteCatalog.CommandLine
