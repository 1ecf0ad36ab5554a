set_option autoImplicit false

namespace Chip8

structure OsError where
  code : Nat
  kind : String
  message : String
deriving DecidableEq, Repr

namespace OsError

def notFound : OsError := ⟨2, "NotFound", "No such file or directory"⟩

def permissionDenied : OsError := ⟨13, "PermissionDenied", "Permission denied"⟩

def notDirectory : OsError := ⟨20, "NotADirectory", "Not a directory"⟩

def isDirectory : OsError := ⟨21, "IsADirectory", "Is a directory"⟩

def nameTooLong : OsError := ⟨36, "InvalidFilename", "File name too long"⟩

def text (e : OsError) : String :=
  e.message ++ " (os error " ++ toString e.code ++ ")"

def details (e : OsError) : String :=
  "Os \x7b code: " ++ toString e.code ++ ", kind: " ++ e.kind ++ ", message: \"" ++ e.message ++
    "\" \x7d"

end OsError

end Chip8
