/-!
# Faults of file operations

Why an operation on files fails, with the text under which each cause is reported.
-/

namespace SiteCatalog

/-- The cause of a failed file operation. -/
inductive FileFault
  | notPermitted
  | notFound
  | accessDenied
  | present
  | notDirectory
  | isDirectory
  | nameTooLong
  | directoryNotEmpty
  | loop
  /-- The content is not valid text. -/
  | notText
  /-- The path holds a zero byte. -/
  | zeroInPath
  /-- Any other cause, under the number and text that the system gives. -/
  | other (code : Nat) (text : String)
  deriving DecidableEq, Repr

/-- The report of a numbered system error. -/
def FileFault.numbered (text : String) (code : Nat) : String :=
  text ++ " (os error " ++ toString code ++ ")"

/-- The report of a fault. -/
def FileFault.text : FileFault → String
  | notPermitted => numbered "Operation not permitted" 1
  | notFound => numbered "No such file or directory" 2
  | accessDenied => numbered "Permission denied" 13
  | present => numbered "File exists" 17
  | notDirectory => numbered "Not a directory" 20
  | isDirectory => numbered "Is a directory" 21
  | nameTooLong => numbered "File name too long" 36
  | directoryNotEmpty => numbered "Directory not empty" 39
  | loop => numbered "Too many levels of symbolic links" 40
  | notText => "stream did not contain valid UTF-8"
  | zeroInPath => "file name contained an unexpected NUL byte"
  | other code text => numbered text code

end SiteCatalog
