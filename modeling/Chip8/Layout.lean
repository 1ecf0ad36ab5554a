set_option autoImplicit false

namespace Chip8.Layout

def ramSize : Nat := 4096
def reservedTop : Nat := 352

def programStart : Nat := 0x200
def programEnd : Nat := ramSize - reservedTop
def programLimit : Nat := programEnd - programStart

def glyphStart : Nat := 0x050
def glyphEnd : Nat := 0x0A0

def Addressable (a : Nat) : Prop :=
  (programStart ≤ a ∧ a < programEnd) ∨ (glyphStart ≤ a ∧ a < glyphEnd)

instance (a : Nat) : Decidable (Addressable a) := by
  unfold Addressable
  infer_instance

end Chip8.Layout
