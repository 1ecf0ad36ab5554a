import Chip8.Frame.Colour
import Chip8.Frame.Rows
import Chip8.Host.Layout
import Chip8.Instruction.Lemmas
import Chip8.Main
import Chip8.Proofs.Access
import Chip8.Proofs.Awaiting
import Chip8.Proofs.CallStack
import Chip8.Proofs.Course
import Chip8.Proofs.Effects
import Chip8.Proofs.Entries
import Chip8.Proofs.Execution
import Chip8.Proofs.Footprint
import Chip8.Proofs.Forms
import Chip8.Proofs.Glyphs
import Chip8.Proofs.HeldKeys
import Chip8.Proofs.KeySet
import Chip8.Proofs.Keypad
import Chip8.Proofs.Layers
import Chip8.Proofs.Loading
import Chip8.Proofs.Logbook
import Chip8.Proofs.Numeral
import Chip8.Proofs.Observation
import Chip8.Proofs.Outcome
import Chip8.Proofs.Pixels
import Chip8.Proofs.RandomStream
import Chip8.Proofs.Reserved
import Chip8.Proofs.Return
import Chip8.Proofs.Safety
import Chip8.Proofs.Saving
import Chip8.Proofs.Seams
import Chip8.Proofs.Setting
import Chip8.Proofs.Spelling
import Chip8.Proofs.Sprite
import Chip8.Proofs.Step
import Chip8.Proofs.Story
import Chip8.Proofs.Subroutine
import Chip8.Proofs.Table
import Chip8.Proofs.Timers
import Chip8.Proofs.Trajectory
import Chip8.Proofs.Transfer
import Chip8.Proofs.Twins
import Chip8.Proofs.Views
import Chip8.Proofs.Waiting
import Chip8.Proofs.Wording
import Chip8.Session.Script
import Chip8.Tone
