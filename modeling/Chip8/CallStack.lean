import Chip8.Fault

set_option autoImplicit false

namespace Chip8

structure CallStack where
  slots : Vector UInt16 16
  depth : Nat
deriving DecidableEq, Repr

namespace CallStack

def capacity : Nat := 16

def empty : CallStack := ⟨Vector.replicate 16 0, 0⟩

def live (s : CallStack) : List UInt16 :=
  s.slots.toList.take s.depth

def push? (s : CallStack) (a : UInt16) : Option CallStack :=
  if h : s.depth < 16 then some ⟨s.slots.set s.depth a, s.depth + 1⟩ else none

-- The innermost address and what is left without it. On an empty stack there is none. A depth
-- beyond the slots has no address to give.
def pop (s : CallStack) : Except Trap (Option (UInt16 × CallStack)) :=
  match s.depth with
  | 0 => .ok none
  | d + 1 => if h : d < 16 then .ok (some (s.slots[d], ⟨s.slots, d⟩)) else .error .outOfRange

@[simp] theorem live_empty : empty.live = [] := rfl

theorem length_live (s : CallStack) (h : s.depth ≤ 16) : s.live.length = s.depth := by
  simp [live, h]

theorem live_push {s t : CallStack} {a : UInt16} (h : s.push? a = some t) :
    t.live = s.live ++ [a] := by
  unfold push? at h
  split at h
  · next room =>
    cases h
    simp [live, Vector.toList_set, List.take_add_one, List.take_set_of_le, room]
  · contradiction

theorem live_pop {s t : CallStack} {a : UInt16} (h : s.pop = .ok (some (a, t))) :
    s.live = t.live ++ [a] := by
  unfold pop at h
  split at h
  · simp at h
  · next d hd =>
    split at h
    · next room =>
      simp only [Except.ok.injEq, Option.some.injEq, Prod.mk.injEq] at h
      obtain ⟨rfl, rfl⟩ := h
      simp [live, hd, List.take_add_one, room]
    · simp at h

end CallStack

end Chip8
