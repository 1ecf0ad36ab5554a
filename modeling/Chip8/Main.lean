import Chip8.CommandLine.Help
import Chip8.Launch

set_option autoImplicit false

namespace Chip8

def OsError.ofError : IO.Error → OsError
  | .noFileOrDirectory .. => .notFound
  | .permissionDenied .. => .permissionDenied
  -- The code comes with either sign.
  | .inappropriateType _ code _ =>
    if code = 20 ∨ code = -20 then .notDirectory else .isDirectory
  | .invalidArgument .. => .nameTooLong
  | e => ⟨5, "Other", toString e⟩

def readProgram (path : String) : IO (Except OsError (List UInt8)) := do
  match ← (IO.FS.readBinFile path).toBaseIO with
  | .ok bytes => return .ok bytes.toList
  | .error e => return .error (.ofError e)

end Chip8

open Chip8 in
def main (args : List String) : IO UInt32 := do
  match CommandLine.read args with
  | .error .help =>
    IO.print CommandLine.helpText
    return 0
  | .error .version =>
    IO.print CommandLine.versionText
    return 0
  | .error (.refused r) =>
    IO.eprintln r.message
    return 2
  | .ok settings =>
    let key := Random.keyOfBytes (← IO.getRandomBytes 32).toList
    let ending := launch settings key (← readProgram settings.rom)
    IO.eprintln ("Error: " ++ ending.report)
    return 1
