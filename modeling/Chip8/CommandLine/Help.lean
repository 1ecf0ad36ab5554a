set_option autoImplicit false

namespace Chip8.CommandLine

def programName : String := "chip8-vm"

def versionText : String := programName ++ " 1.0.0\n"

def helpLines : List String :=
  [ "A CHIP-8 virtual machine with a threaded instruction clock and 60Hz timers",
    "",
    "Usage: " ++ programName ++ " [OPTIONS] <rom>",
    "",
    "Arguments:",
    "  <rom>  The CHIP-8 program to run",
    "",
    "Options:",
    "  -c, --clock-rate <HZ>  How many instructions to execute per second [default: 500]",
    "  -s, --scale <SCALE>    Window scale factor (1, 2, 4, 8, 16 or 32) [default: 8]",
    "      --seed <SEED>      Seed the random number generator for reproducible runs",
    "      --mute             Don't play a tone while the sound timer runs",
    "  -h, --help             Print help",
    "  -V, --version          Print version" ]

def helpText : String :=
  String.join (helpLines.map (· ++ "\n"))

end Chip8.CommandLine
