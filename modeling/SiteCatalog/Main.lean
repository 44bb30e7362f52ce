import SiteCatalog.CommandLine.Arguments
import SiteCatalog.CommandLine.Run

/-!
# The program

Commands run on the files of the system. What a command prints goes to the standard output, problems
and failures to the standard error.
-/

namespace SiteCatalog

/-- The number and the text of a system error. -/
def systemError : IO.Error → Nat × String
  | .alreadyExists _ code text | .interrupted _ code text | .noFileOrDirectory _ code text
  | .invalidArgument _ code text | .permissionDenied _ code text | .resourceExhausted _ code text
  | .inappropriateType _ code text | .noSuchThing _ code text => (code.toNat, text)
  | .otherError code text | .resourceBusy code text | .resourceVanished code text
  | .unsupportedOperation code text | .hardwareFault code text | .unsatisfiedConstraints code text
  | .illegalOperation code text | .protocolError code text | .timeExpired code text =>
    (code.toNat, text)
  | .unexpectedEof => (0, "unexpected end of file")
  | .userError text => (0, text)

/-- The fault of a system error. -/
def faultOf (e : IO.Error) : FileFault :=
  match systemError e with
  | (1, _) => .notPermitted
  | (2, _) => .notFound
  | (13, _) => .accessDenied
  | (17, _) => .present
  | (20, _) => .notDirectory
  | (21, _) => .isDirectory
  | (36, _) => .nameTooLong
  | (39, _) => .directoryNotEmpty
  | (40, _) => .loop
  | (code, text) => .other code text

/-- An operation of the system on a path. -/
def onSystem {α : Type} (path : String) (operation : IO α) : IO (Except FileFault α) := do
  if path.toList.contains '\x00' then return .error .zeroInPath
  try
    return .ok (← operation)
  catch e => return .error (faultOf e)

instance : FileSystem IO where
  present path := do
    match ← onSystem path (IO.FS.realPath path) with
    | .ok resolved => resolved.pathExists
    | .error _ => return false
  isDirectory path := do
    match ← onSystem path (IO.FS.realPath path) with
    | .ok resolved => resolved.isDir
    | .error _ => return false
  entries path := onSystem path do
    let found ← (← IO.FS.realPath path).readDir
    return found.toList.map (·.fileName)
  readText path := do
    match ← onSystem path (IO.FS.readBinFile path) with
    | .ok bytes =>
      match String.fromUTF8? bytes with
      | some text => return .ok text
      | none => return .error .notText
    | .error fault => return .error fault
  writeText path text := onSystem path (IO.FS.writeBinFile path text.toUTF8)
  makeDirectory path := onSystem path (IO.FS.createDir path)
  rename source target := onSystem source (IO.FS.rename source target)

/-- Runs the command that the arguments ask for. -/
def runProgram (arguments : List String) : IO UInt32 := do
  match CommandLine.Command.ofArguments arguments with
  | .error .help =>
    IO.println CommandLine.UsageFault.help.message
    return 0
  | .error fault =>
    IO.eprintln ("error: " ++ fault.message)
    return 2
  | .ok command =>
    match ← (command.run : ExceptT CommandLine.Fault IO String).run with
    | .ok text =>
      IO.print text
      return 0
    | .error fault =>
      for problem in fault.problems do
        IO.eprintln problem.line
      IO.eprintln ("error: " ++ fault.message)
      return 1

end SiteCatalog

/-- The program. -/
def main (arguments : List String) : IO UInt32 :=
  SiteCatalog.runProgram arguments
