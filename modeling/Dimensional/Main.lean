import Dimensional.CommandLine

/-! The program. -/
namespace Dimensional.CommandLine

/-- Read a file, and tell why if that fails. -/
def readFile (path : String) : IO (Except ReadError ByteArray) := do
  try
    return .ok (← IO.FS.readBinFile path)
  catch
    | .noFileOrDirectory .. => return .error .missing
    | .permissionDenied .. => return .error .denied
    | .invalidArgument _ _ "name too long" => return .error .nameTooLong
    -- A directory can be opened, but not read; a file on the way to a path cannot be passed.
    | .inappropriateType none .. => return .error .isDirectory
    | .inappropriateType (some _) .. => return .error .notDirectory
    | error => return .error (.other (toString error))

end Dimensional.CommandLine

open Dimensional.CommandLine in
def main (arguments : List String) : IO UInt32 := do
  let outcome ← run readFile arguments
  (← IO.getStdout).putStr outcome.stdout
  (← IO.getStderr).putStr outcome.stderr
  return outcome.exitCode.toUInt32
