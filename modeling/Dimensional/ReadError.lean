/-! Why a file cannot be read. -/
namespace Dimensional

inductive ReadError where
  | missing
  | denied
  /-- Something on the way to the file is a file itself. -/
  | notDirectory
  | isDirectory
  /-- The path, or a name in it, is longer than any that can exist. -/
  | nameTooLong
  | other (message : String)
deriving DecidableEq, Repr

def ReadError.message : ReadError → String
  | missing => "No such file or directory (os error 2)"
  | denied => "Permission denied (os error 13)"
  | notDirectory => "Not a directory (os error 20)"
  | isDirectory => "Is a directory (os error 21)"
  | nameTooLong => "File name too long (os error 36)"
  | other message => message

end Dimensional
