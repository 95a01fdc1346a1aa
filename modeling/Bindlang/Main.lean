import Bindlang.Command

namespace Bindlang.Command

def FileError.ofCode (code : UInt32) (cause : IO.Error) : FileError :=
  match code.toInt32.toInt.natAbs with
  | 20 => .notDirectory
  | 21 => .isDirectory
  | 36 => .nameTooLong
  | _ => .other (toString cause)

def FileError.ofIO (cause : IO.Error) : FileError :=
  match cause with
  | .noFileOrDirectory .. => .notFound
  | .inappropriateType _ code _ | .invalidArgument _ code _ => .ofCode code cause
  | _ => .other (toString cause)

def readFile (path : String) : IO (String × Except FileError String) := do
  try
    return (path, .ok (← IO.FS.readFile path))
  catch cause =>
    return (path, .error (.ofIO cause))

def wantsColor : IO Bool := do
  let force ← IO.getEnv "CLICOLOR_FORCE"
  let refused ← IO.getEnv "NO_COLOR"
  let allowed ← IO.getEnv "CLICOLOR"
  if force.any (· != "0") then return true
  else if refused.isSome || allowed == some "0" then return false
  else (← IO.getStdout).isTty

end Bindlang.Command

open Bindlang.Command

def main (arguments : List String) : IO UInt32 := do
  let needed :=
    match Invocation.read arguments with
    | .ok invocation => paths invocation
    | .error _ => []
  let contents ← needed.mapM readFile
  let files : Files := fun path => (contents.lookup path).getD (.error .notFound)
  let result := outcome (← wantsColor) files arguments
  IO.print result.stdout
  IO.eprint result.stderr
  return result.code.toUInt32
