import Chip8.CommandLine.Settings
import Chip8.Host.OsError
import Chip8.Machine.Command

set_option autoImplicit false

namespace Chip8

def programOfFile (file : Except OsError (List UInt8)) : Except Failure (List UInt8) :=
  match file with
  | .ok program => .ok program
  | .error e => .error (.io e.text)

inductive LaunchError where
  | unreadable (e : OsError)
  | tooLarge (size limit : Nat)
  | noWindow
deriving DecidableEq, Repr

def LaunchError.report : LaunchError → String
  | .unreadable e => "Io(" ++ e.details ++ ")"
  | .tooLarge size limit =>
    "ProgramTooLarge \x7b size: " ++ toString size ++ ", max: " ++ toString limit ++ " \x7d"
  | .noWindow => "Minifb"

def prepareMachine (settings : CommandLine.Settings) (key : Random.Key)
    (file : Except OsError (List UInt8)) : Except LaunchError Machine :=
  match file with
  | .error e => .error (.unreadable e)
  | .ok program =>
    let random :=
      match settings.seed with
      | some seed => Random.Source.ofSeed (UInt64.ofNat seed)
      | none => .ofKey key
    match (Machine.fresh random).load program with
    | (.ok (), m) => .ok m
    -- Only its size keeps a program from being loaded.
    | (.error _, _) => .error (.tooLarge program.length Layout.programLimit)

def launch (settings : CommandLine.Settings) (key : Random.Key)
    (file : Except OsError (List UInt8)) : LaunchError :=
  match prepareMachine settings key file with
  | .error e => e
  | .ok _ => .noWindow

end Chip8
