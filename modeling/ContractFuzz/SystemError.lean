namespace ContractFuzz

inductive SystemError where
  | notFound
  | permissionDenied
  /-- A path goes on after a file. -/
  | notDirectory
  | isDirectory
  | nameTooLong
  /-- A path with a zero character, which would end it early. -/
  | zeroInPath
  /-- A command or an argument with a zero character, which would end it early. -/
  | zeroInArgument
  | other (text : String)
  deriving DecidableEq, Repr

namespace SystemError

/-- The words of the system, with its number for the error. Zero characters are refused before the
system is asked, so there is no number for them. -/
def message : SystemError → String
  | .notFound => "No such file or directory (os error 2)"
  | .permissionDenied => "Permission denied (os error 13)"
  | .notDirectory => "Not a directory (os error 20)"
  | .isDirectory => "Is a directory (os error 21)"
  | .nameTooLong => "File name too long (os error 36)"
  | .zeroInPath => "file name contained an unexpected NUL byte"
  | .zeroInArgument => "nul byte found in provided data"
  | .other text => text

end SystemError

end ContractFuzz
