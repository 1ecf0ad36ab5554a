set_option autoImplicit false

namespace Chip8.CommandLine

inductive Parameter where
  | rom
  | clockRate
  | scale
  | seed
  | mute
  | help
  | version
deriving DecidableEq, Repr

namespace Parameter

def shown : Parameter → String
  | .rom => "<rom>"
  | .clockRate => "--clock-rate <HZ>"
  | .scale => "--scale <SCALE>"
  | .seed => "--seed <SEED>"
  | .mute => "--mute"
  | .help => "--help"
  | .version => "--version"

def takesValue : Parameter → Bool
  | .rom | .clockRate | .scale | .seed => true
  | .mute | .help | .version => false

def all : List Parameter := [.rom, .clockRate, .scale, .seed, .mute, .help, .version]

def long? : Parameter → Option String
  | .rom => none
  | .clockRate => some "clock-rate"
  | .scale => some "scale"
  | .seed => some "seed"
  | .mute => some "mute"
  | .help => some "help"
  | .version => some "version"

def short? : Parameter → Option Char
  | .clockRate => some 'c'
  | .scale => some 's'
  | .help => some 'h'
  | .version => some 'V'
  | .rom | .seed | .mute => none

def ofLong? (name : String) : Option Parameter :=
  all.find? fun p => p.long? = some name

def ofShort? (name : Char) : Option Parameter :=
  all.find? fun p => p.short? = some name

theorem ofLong?_long? (p : Parameter) (name : String) (h : p.long? = some name) :
    ofLong? name = some p := by
  cases p <;> simp [long?] at h <;> subst h <;> decide +kernel

theorem ofShort?_short? (p : Parameter) (name : Char) (h : p.short? = some name) :
    ofShort? name = some p := by
  cases p <;> simp [short?] at h <;> subst h <;> decide +kernel

end Parameter

end Chip8.CommandLine
