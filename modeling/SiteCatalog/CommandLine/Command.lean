import SiteCatalog.Error
import SiteCatalog.Manifest.Validation

/-!
# Commands

What a user can ask for, and why a request is refused or fails.
-/

namespace SiteCatalog.CommandLine

/-- The format of a document that is printed. -/
inductive OutputFormat
  | yaml
  | json
  deriving DecidableEq, Repr

/-- The format that a user names. -/
def OutputFormat.ofText? (s : String) : Option OutputFormat :=
  if s = "yaml" then some yaml else if s = "json" then some json else none

/-- Where the site is described. -/
structure Site where
  /-- The directory of the manifests, if it is not the one of the settings. -/
  manifests : Option String
  /-- The settings file. -/
  config : String

/-- A request. -/
inductive Command
  /-- Compiles the catalog of a host, prints it or writes it below an output directory. -/
  | compile (site : Site) (host : String) (facts : Option String) (classes : List String)
      (format : OutputFormat) (out : Option String)
  /-- Checks the manifests. -/
  | validate (site : Site)
  /-- Lists what the manifests declare, or prints the documents of it. -/
  | types (site : Site) (kind : Option Kind) (format : Option OutputFormat)
  /-- Names the node that a host selects. -/
  | select (site : Site) (host : String)

/-- Why arguments are not a request. -/
inductive UsageFault
  | noCommand
  | unknownCommand (text : String)
  | unknownArgument (text : String)
  | missingArgument (name : String)
  /-- An option without its value, or with a value that it cannot have. -/
  | invalidValue (option : String)
  /-- The value of an option names nothing. -/
  | unknownValue (option : String)
  | repeatedOption (option : String)
  | unwantedValue (option : String)
  /-- Help is asked for. -/
  | help
  deriving DecidableEq, Repr

/-- The text of a usage fault. -/
def UsageFault.message : UsageFault → String
  | noCommand => "a command is required"
  | unknownCommand text => "unknown command '" ++ text ++ "'"
  | unknownArgument text => "unexpected argument '" ++ text ++ "'"
  | missingArgument name => "the argument " ++ name ++ " is required"
  | invalidValue option => "option " ++ option ++ " needs a proper value"
  | unknownValue option => "option " ++ option ++ " has an unknown value"
  | repeatedOption option => "option " ++ option ++ " cannot be used more than once"
  | unwantedValue option => "option " ++ option ++ " takes no value"
  | help => "commands: compile, validate, types, match"

/-- Something wrong with a manifest. -/
structure Problem where
  file : String
  invalidity : Invalidity

/-- The line that reports a problem. -/
def Problem.line (p : Problem) : String :=
  "  ERROR: " ++ p.file ++ ": " ++ p.invalidity.message

/-- Why a command fails. -/
inductive Fault
  | error (e : CompileError)
  | invalidManifests (problems : List Problem)
  | malformedFacts (path : String)
  | unmatchedHost (name : String)
  /-- The evaluation names what does not exist. -/
  | dangling
  /-- The evaluation is not finished within its bounds, or never. -/
  | exhausted

/-- The text of a fault. -/
def Fault.message : Fault → String
  | error e => e.message
  | invalidManifests problems => toString problems.length ++ " validation error(s)"
  | malformedFacts path => "invalid facts file " ++ path ++ ": not a mapping"
  | unmatchedHost name => "no node definition matches '" ++ name ++ "'"
  | dangling => "a type, scope or resource is missing"
  | exhausted => "the evaluation does not end"

/-- The problems that a fault reports one by one. -/
def Fault.problems : Fault → List Problem
  | invalidManifests problems => problems
  | _ => []

end SiteCatalog.CommandLine
