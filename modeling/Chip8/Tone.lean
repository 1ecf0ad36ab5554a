import Chip8.Fault

set_option autoImplicit false

namespace Chip8.Tone

def sampleRate : Nat := 44100
def channels : Nat := 2

def bufferFrames : Nat := 4410

def defaultVolume : Float32 := Float32.ofScientific 2 true 1

def pi : Float32 := Float32.ofBits 0x40490FDB

def wave (position : Nat) : Float32 :=
  (Float32.ofNat position * 440 * 2 * pi / Float32.ofNat sampleRate).sin

def nextPosition (position : Nat) : Nat :=
  (position + 1) % sampleRate

def fill {α : Type} (wave : Nat → α) (scale : α → α) : Nat → Nat → List α × Nat
  | position, 0 => ([], position)
  | position, 1 =>
    let position := nextPosition position
    ([scale (wave position)], position)
  | position, length + 2 =>
    let position := nextPosition position
    let sample := scale (wave position)
    let (samples, last) := fill wave scale position length
    (sample :: sample :: samples, last)

structure Request (α : Type) where
  length : Nat
  volume : Option α

def play {α : Type} (wave : Nat → α) (mul : α → α → α) (silence : α) :
    Nat → List (Request α) → List (List α) × Nat
  | position, [] => ([], position)
  | position, request :: rest =>
    let volume := request.volume.getD silence
    let (samples, position) := fill wave (fun sample => mul sample volume) position request.length
    let (buffers, last) := play wave mul silence position rest
    (samples :: buffers, last)

def quantize (sample : Float32) : Int16 :=
  (sample * 32767).toInt16

def openFailure (cause : String) : Failure :=
  .audio ("Audio error: " ++ cause)

end Chip8.Tone
