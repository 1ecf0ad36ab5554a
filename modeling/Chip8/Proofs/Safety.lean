import Chip8.Machine.Command
import Chip8.Proofs.KeySet
import Chip8.Proofs.Step
import Mathlib.Control.Monad.Basic

set_option autoImplicit false

namespace Chip8

open Exec (word)

structure CallStack.Sound (s : CallStack) : Prop where
  depth : s.depth ≤ 16
  addresses : ∀ a ∈ s.live, 0x002 ≤ a.toNat ∧ a.toNat ≤ 0x1000

namespace CallStack

theorem sound_empty : empty.Sound where
  depth := by decide
  addresses := by simp

theorem Sound.push {s t : CallStack} {a : UInt16} (sound : s.Sound)
    (within : 0x002 ≤ a.toNat ∧ a.toNat ≤ 0x1000) (pushed : s.push? a = some t) : t.Sound := by
  have live := live_push pushed
  rcases Nat.lt_or_ge s.depth 16 with room | full
  · rw [push?_of_room room] at pushed
    cases pushed
    refine ⟨room, fun b present => ?_⟩
    rw [live, List.mem_append, List.mem_singleton] at present
    rcases present with below | rfl
    · exact sound.addresses b below
    · exact within
  · rw [push?_of_full full] at pushed
    contradiction

theorem Sound.pop {s t : CallStack} {a : UInt16} (sound : s.Sound)
    (popped : s.pop = .ok (some (a, t))) : t.Sound ∧ 0x002 ≤ a.toNat ∧ a.toNat ≤ 0x1000 := by
  have live := live_pop popped
  have addresses := sound.addresses
  rw [live] at addresses
  have last := addresses a (by simp)
  refine ⟨⟨?_, fun b present => addresses b (List.mem_append_left _ present)⟩, last⟩
  have depth := sound.depth
  rcases Nat.eq_zero_or_pos s.depth with empty | pos
  · rw [pop_of_empty empty] at popped
    cases popped
  · rw [pop_of_within pos depth] at popped
    cases popped
    exact Nat.le_trans (Nat.sub_le _ _) depth

end CallStack

namespace Machine

structure Sound (m : Machine) : Prop where
  stack : m.store.stack.Sound
  counter : m.store.pc.toNat ≤ 0x10FE

variable {m : Machine}

theorem sound_fresh (source : Random.Source) : (fresh source).Sound :=
  ⟨CallStack.sound_empty, (by decide : (0x200 : UInt16).toNat ≤ 0x10FE)⟩

theorem innermost_sound {a : UInt16} {s : CallStack} (sound : m.store.stack.Sound)
    (found : m.innermost = some (a, s)) : s.Sound ∧ 0x002 ≤ a.toNat ∧ a.toNat ≤ 0x1000 := by
  unfold innermost at found
  split at found
  · next top popped =>
    subst found
    exact sound.pop popped
  · contradiction

theorem counterAfter_le (sound : m.store.stack.Sound) (bound : m.store.pc.toNat ≤ 0x1000)
    (i : Instruction) : (m.counterAfter i).toNat ≤ 0x10FE := by
  have skipped : (if m.skips i then m.store.pc + 2 else m.store.pc).toNat ≤ 0x1002 := by
    split
    · have next : (m.store.pc + 2).toNat = m.store.pc.toNat + 2 := toNat_advance (by omega)
      omega
    · omega
  cases i with
  | leave =>
    rw [counterAfter]
    cases found : m.innermost with
    | none => exact Nat.le_trans bound (by decide)
    | some top =>
      obtain ⟨_, _, upper⟩ := innermost_sound sound found
      exact Nat.le_trans upper (by decide)
  | jump target | call target =>
    rw [counterAfter, toNat_word]
    omega
  | jumpFrom target =>
    have small := (m.store.v.get v0).toNat_lt
    rw [counterAfter, UInt16.toNat_add, toNat_word, UInt8.toNat_toUInt16]
    omega
  | _ => exact Nat.le_trans skipped (by decide)

theorem stackAfter_sound (sound : m.store.stack.Sound)
    (within : 0x002 ≤ m.store.pc.toNat ∧ m.store.pc.toNat ≤ 0x1000) (i : Instruction) :
    (m.stackAfter i).Sound := by
  cases i with
  | leave =>
    rw [stackAfter]
    cases found : m.innermost with
    | none => exact sound
    | some top => exact (innermost_sound sound found).1
  | call target =>
    rw [stackAfter]
    cases pushed : m.store.stack.push? m.store.pc with
    | none => exact sound
    | some s => exact sound.push within pushed
  | _ => exact sound

theorem map_error_ne_trap (refused : Option Fault) (t : Trap) :
    refused.map Halt.error ≠ some (.trap t) := by
  cases refused <;> simp

theorem refusal_ne_trap (room : m.store.stack.depth ≤ 16) (i : Instruction) (t : Trap) :
    m.refusal i ≠ some (.trap t) := by
  cases i with
  | leave => simp [refusal, Nat.not_lt.2 room]
  | call | glyph =>
    rw [refusal]
    split <;> simp
  | draw | digits | save | restore => exact map_error_ne_trap _ t
  | _ => simp [refusal]

theorem Sound.advance {w : UInt16} (sound : m.Sound) (fetched : m.Fetches w) :
    m.advance.store.stack.Sound ∧ 0x002 ≤ m.advance.store.pc.toNat ∧
      m.advance.store.pc.toNat ≤ 0x1000 := by
  have inside := fetched.lt
  have next : m.advance.store.pc.toNat = m.store.pc.toNat + 2 := toNat_advance (by omega)
  exact ⟨sound.stack, by omega, by omega⟩

theorem Sound.step (sound : m.Sound) : m.step.2.Sound := by
  have stepped := m.stepped
  generalize m.step = result at *
  cases stepped with
  | beyond => exact sound
  | unknown fetched | refused fetched =>
    obtain ⟨stack, _, upper⟩ := sound.advance fetched
    exact ⟨stack, Nat.le_trans upper (by decide)⟩
  | @executed i fetched =>
    obtain ⟨stack, within⟩ := sound.advance fetched
    exact ⟨stackAfter_sound stack within i, counterAfter_le stack within.2 i⟩

theorem Sound.step_ne_trap (sound : m.Sound) (t : Trap) : m.step.1 ≠ .error (.trap t) := by
  intro trapped
  have stepped := m.stepped
  generalize m.step = result at *
  cases stepped with
  | beyond | unknown | executed => cases trapped
  | @refused i halt fetched refused =>
    cases halt with
    | error => cases trapped
    | trap => exact absurd refused (refusal_ne_trap sound.stack.depth i _)

theorem Sound.perform (sound : m.Sound) (command : Command) : (m.perform command).2.Sound := by
  cases command with
  | step => exact sound.step
  | load program =>
    rw [Machine.perform, Machine.load, Store.load_eq]
    by_cases large : Layout.programLimit < program.length
    · rw [if_pos large]
      exact sound
    · rw [if_neg large]
      exact ⟨sound.stack, sound.counter⟩
  | resume register key =>
    rw [Machine.perform, Machine.resume, Store.writeRegister]
    by_cases inBank : register < 16
    · rw [dif_pos inBank]
      exact ⟨sound.stack, sound.counter⟩
    · rw [dif_neg inBank]
      exact sound
  | keys => exact ⟨sound.stack, sound.counter⟩
  | tick timer => cases timer <;> exact ⟨sound.stack, sound.counter⟩

theorem Sound.perform_ne_trap (sound : m.Sound) (command : Command) (t : Trap) :
    (m.perform command).1 ≠ .error (.trap t) := by
  intro trapped
  cases command with
  | step => exact sound.step_ne_trap t trapped
  | load program =>
    rw [Machine.perform, Machine.load, Store.load_eq] at trapped
    by_cases large : Layout.programLimit < program.length
    · rw [if_pos large] at trapped
      cases trapped
    · rw [if_neg large] at trapped
      cases trapped
  | resume register key =>
    rw [Machine.perform, Machine.resume, Store.writeRegister] at trapped
    by_cases inBank : register < 16
    · rw [dif_pos inBank] at trapped
      cases trapped
    · rw [dif_neg inBank] at trapped
      cases trapped
  | keys | tick => cases trapped

theorem Sound.performAll (sound : m.Sound) (history : List Command) :
    (m.performAll history).Sound := by
  induction history generalizing m with
  | nil => exact sound
  | cons command rest ih => exact ih (sound.perform command)

def Reachable (m : Machine) : Prop :=
  ∃ source history, (fresh source).performAll history = m

theorem Reachable.sound (reachable : m.Reachable) : m.Sound := by
  obtain ⟨source, history, rfl⟩ := reachable
  exact (sound_fresh source).performAll history

theorem fetches_at {w : UInt16} {a : Nat} (counter : m.store.pc.toNat = a) (inside : a + 1 < 4096)
    (value : w.toNat = 256 * m.store.ram[a].toNat + m.store.ram[a + 1].toNat) : m.Fetches w := by
  subst counter
  exact ⟨inside, value⟩

theorem after_of_fetches {i : Instruction} (fetched : m.Fetches i.encode)
    (accepted : m.advance.refusal i = none) : m.step.2 = m.advance.after i := by
  rw [step_of_encode fetched, accepted]

def climb : List UInt8 := [0xF0, 0x1E, 0x12, 0x00]

structure Climbing (m : Machine) (pc : UInt16) (index rate : Nat) : Prop where
  pc : m.store.pc = pc
  ram (k : Nat) (h : k < 4) : m.store.ram[0x200 + k] = climb[k]
  index : m.store.i.toNat = index
  rate : (m.store.v.get v0).toNat = rate

theorem Climbing.add {index rate : Nat} (climbing : m.Climbing 0x200 index rate)
    (room : index + rate ≤ 0xFFFF) : m.step.2.Climbing 0x202 (index + rate) rate := by
  have fetched : m.Fetches (Instruction.addIndex 0).encode := by
    refine fetches_at (a := 0x200) (congrArg UInt16.toNat climbing.pc) (by decide) ?_
    rw [climbing.ram 0 (by decide), climbing.ram 1 (by decide)]
    rfl
  have sum : (m.store.i + (m.store.v.get v0).toUInt16).toNat = index + rate := by
    rw [UInt16.toNat_add, UInt8.toNat_toUInt16, climbing.index, climbing.rate]
    exact Nat.mod_eq_of_lt (Nat.lt_succ_of_le room)
  rw [after_of_fetches fetched rfl]
  exact ⟨congrArg (· + 2) climbing.pc, climbing.ram, sum, climbing.rate⟩

theorem Climbing.jump {index rate : Nat} (climbing : m.Climbing 0x202 index rate) :
    m.step.2.Climbing 0x200 index rate := by
  have fetched : m.Fetches (Instruction.jump 0x200).encode := by
    refine fetches_at (a := 0x202) (congrArg UInt16.toNat climbing.pc) (by decide) ?_
    rw [climbing.ram 2 (by decide), climbing.ram 3 (by decide)]
    rfl
  rw [after_of_fetches fetched rfl]
  exact ⟨rfl, climbing.ram, climbing.index, climbing.rate⟩

theorem Climbing.rounds {rate : Nat} (climbing : m.Climbing 0x200 0 rate) (n : Nat)
    (room : n * rate ≤ 0xFFFF) :
    ∃ history, (m.performAll history).Climbing 0x200 (n * rate) rate := by
  induction n with
  | zero => exact ⟨[], by rw [Nat.zero_mul]; exact climbing⟩
  | succ n ih =>
    rw [Nat.succ_mul] at *
    obtain ⟨history, reached⟩ := ih (by omega)
    refine ⟨history ++ [.step, .step], ?_⟩
    rw [performAll_append]
    exact (reached.add room).jump

theorem Climbing.resume {pc : UInt16} {index rate next : Nat} (climbing : m.Climbing pc index rate)
    {key : UInt8} (value : key.toNat = next) :
    (m.perform (.resume 0 key)).2.Climbing pc index next :=
  ⟨climbing.pc, climbing.ram, climbing.index,
    (congrArg UInt8.toNat (Vector.getElem_set_self v0.isLt)).trans value⟩

theorem climbing_fresh (source : Random.Source) :
    ((fresh source).perform (.load climb)).2.Climbing 0x200 0 0 := by
  refine ⟨rfl, fun k h => ?_, rfl, rfl⟩
  have written := Ram.getElem_overwrite Store.initial.ram 0x200 climb (0x200 + k) (by omega)
  have inside : 0x200 ≤ 0x200 + k ∧ 0x200 + k < 0x200 + climb.length :=
    ⟨Nat.le_add_right _ _, Nat.add_lt_add_left h _⟩
  simp only [dif_pos inside, Nat.add_sub_cancel_left] at written
  exact written

theorem index_reached (source : Random.Source) (a : UInt16) :
    ∃ history, ((fresh source).performAll history).store.i = a := by
  have small := a.toNat_lt
  have rest : (UInt8.ofNat (a.toNat % 255)).toNat = a.toNat % 255 :=
    UInt8.toNat_ofNat_of_lt' (Nat.lt_trans (Nat.mod_lt _ (by decide)) (by decide))
  have start : (((fresh source).perform (.load climb)).2.perform (.resume 0 0xFF)).2.Climbing
      0x200 0 255 := (climbing_fresh source).resume rfl
  obtain ⟨history, reached⟩ := start.rounds (a.toNat / 255) (by omega)
  have last := (reached.resume rest).add (by omega)
  refine ⟨[.load climb, .resume 0 0xFF] ++ history ++
    [.resume 0 (UInt8.ofNat (a.toNat % 255)), .step], ?_⟩
  rw [performAll_append, performAll_append]
  refine UInt16.toNat_inj.1 (last.index.trans ?_)
  omega

/-- Whatever has been done to a machine, nothing that is done next leaves its range, wherever I
points. -/
theorem reachable_is_safe (reachable : m.Reachable) :
    (m.store.stack.depth ≤ 16 ∧ m.store.pc.toNat ≤ 0x10FE ∧
      ∀ a ∈ m.store.stack.live, 0x002 ≤ a.toNat ∧ a.toNat ≤ 0x1000) ∧
    (∀ command t, (m.perform command).1 ≠ .error (.trap t)) ∧
    (m.advance.store.pc.toNat = m.store.pc.toNat + 2 ∧
      m.advance.advance.store.pc.toNat = m.store.pc.toNat + 4) ∧
    (∀ target, ∃ next, Exec.offset (word target) (m.store.v.get v0) m = .ok next m ∧
      next.toNat = target.val + (m.store.v.get v0).toNat) ∧
    (∀ sprite x y, ∃ f collided, m.frame.draw sprite x y = .ok (f, collided)) ∧
    ((∀ command, m.keypad.performByShifts command = .ok (m.keypad.perform command)) ∧
      ∀ code, m.keypad.isDownByShift code = .ok (m.keypad.isDown code)) ∧
    (∀ a : UInt16, (∃ other : Machine, other.Reachable ∧ other.store.i = a) ∧
      (∀ command t, ({ m with store.i := a }.perform command).1 ≠ .error (.trap t)) ∧
      (∀ len t, len ≤ 16 → m.store.readSpan a.toNat len ≠ .error (.trap t)) ∧
      ∀ data t, data.length ≤ 16 → m.store.writeSpan a.toNat data ≠ .error (.trap t)) := by
  have sound := reachable.sound
  have counter := sound.counter
  have next : m.advance.store.pc.toNat = m.store.pc.toNat + 2 := toNat_advance (by omega)
  have afterNext : m.advance.advance.store.pc.toNat = m.advance.store.pc.toNat + 2 :=
    toNat_advance (by omega)
  refine ⟨⟨sound.stack.depth, counter, sound.stack.addresses⟩, sound.perform_ne_trap,
    ⟨next, by omega⟩, fun target => ⟨_, Exec.offset_run m target _, ?_⟩,
    fun sprite x y => ⟨_, _, m.frame.draw_eq sprite x y⟩,
    ⟨m.keypad.performByShifts_eq, m.keypad.isDownByShift_eq⟩, fun a => ⟨?_, ?_, ?_, ?_⟩⟩
  · have small := (m.store.v.get v0).toNat_lt
    rw [UInt16.toNat_add, toNat_word, UInt8.toNat_toUInt16]
    omega
  · obtain ⟨history, reached⟩ := index_reached ⟨fun _ => 0, 0⟩ a
    exact ⟨_, ⟨_, history, rfl⟩, reached⟩
  · have pointed : { m with store.i := a }.Sound := ⟨sound.stack, counter⟩
    exact pointed.perform_ne_trap
  · exact fun len t short => Store.readSpan_ne_trap _ a short t
  · exact fun data t short => Store.writeSpan_ne_trap _ a short t

def loaded (program : List UInt8) : Machine :=
  ((fresh ⟨fun _ => 0, 0⟩).perform (.load program)).2

theorem reachable_loaded (program : List UInt8) (history : List Command) :
    ((loaded program).performAll history).Reachable :=
  ⟨⟨fun _ => 0, 0⟩, .load program :: history, List.foldl_cons⟩

theorem called_is_safe :
    ((loaded [0x22, 0x04]).performAll [.step]).store.stack.live = [0x202] ∧
      ∀ command t,
        (((loaded [0x22, 0x04]).performAll [.step]).perform command).1 ≠ .error (.trap t) :=
  ⟨by decide +kernel, (reachable_is_safe (reachable_loaded _ _)).2.1⟩

end Machine

end Chip8
