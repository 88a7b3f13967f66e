import Breakage.Path

/-!
The ways in which the operating system refuses a request on files or programs.
-/

namespace Breakage

inductive OsError where
  | notFound | permissionDenied | fileExists | notDirectory | isDirectory | nameTooLong
  /-- a text file that is not UTF-8 -/
  | notText
  /-- a path with a character that no path can have -/
  | nulInPath
  /-- a command with a character that no argument can have -/
  | nulInCommand
  /-- an error about one path -/
  | at (path : Path) (cause : OsError)
  | other (text : String)
  deriving Repr

def OsError.message : OsError → String
  | notFound => "No such file or directory (os error 2)"
  | permissionDenied => "Permission denied (os error 13)"
  | fileExists => "File exists (os error 17)"
  | notDirectory => "Not a directory (os error 20)"
  | isDirectory => "Is a directory (os error 21)"
  | nameTooLong => "File name too long (os error 36)"
  | notText => "stream did not contain valid UTF-8"
  | nulInPath => "file name contained an unexpected NUL byte"
  | nulInCommand => "nul byte found in provided data"
  | .at path cause => cause.message ++ " at path " ++ path.quoted
  | other text => text

end Breakage
