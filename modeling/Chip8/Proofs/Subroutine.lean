import Chip8.Proofs.Footprint
import Chip8.Proofs.Outcome

set_option autoImplicit false

namespace Chip8.Machine

variable {m : Machine} {command : Command} {history : List Command} {base : List UInt16}

theorem stack_transition (changed : (m.perform command).2.store.stack ≠ m.store.stack) :
    command = .step ∧
    ((m.Runs ⟨0x2, .n, .n, .n⟩ ∧
        (m.perform command).2.store.stack.depth = m.store.stack.depth + 1 ∧
        (m.perform command).2.store.stack.live = m.store.stack.live ++ [m.store.pc + 2]) ∨
      (m.Runs ⟨0x0, 0x0, 0xE, 0xE⟩ ∧
        m.store.stack.depth = (m.perform command).2.store.stack.depth + 1 ∧
        m.store.stack.live =
          (m.perform command).2.store.stack.live ++ [(m.perform command).2.store.pc])) := by
  have step : command = .step :=
    eq_step_of_changed (fun m => m.store.stack) (fun _ _ _ _ _ => rfl) changed
  subst step
  exact ⟨rfl, stack_footprint changed⟩

theorem depth_perform (m : Machine) (command : Command) :
    (m.perform command).2.store.stack.depth ≤ m.store.stack.depth + 1 ∧
      m.store.stack.depth ≤ (m.perform command).2.store.stack.depth + 1 := by
  by_cases kept : (m.perform command).2.store.stack = m.store.stack
  · rw [kept]
    omega
  · obtain ⟨_, ⟨_, deeper, _⟩ | ⟨_, higher, _⟩⟩ := stack_transition kept <;> omega

theorem base_perform (present : base <+: m.store.stack.live) (command : Command) :
    base <+: (m.perform command).2.store.stack.live ∨
    (command = .step ∧ m.Runs ⟨0x0, 0x0, 0xE, 0xE⟩ ∧
      base = (m.perform command).2.store.stack.live ++ [(m.perform command).2.store.pc]) := by
  by_cases kept : (m.perform command).2.store.stack = m.store.stack
  · rw [kept]
    exact .inl present
  · obtain ⟨step, ⟨_, _, pushed⟩ | ⟨leaves, _, popped⟩⟩ := stack_transition kept
    · rw [pushed]
      exact .inl (present.trans (List.prefix_append _ _))
    · rw [popped, List.prefix_concat_iff] at present
      exact present.symm.imp id fun same => ⟨step, leaves, same⟩

variable (m) in
def StaysAbove (d : Nat) (history : List Command) : Prop :=
  ∀ before, before <+: history → d < (m.performAll before).store.stack.depth

theorem StaysAbove.tail {d : Nat} (above : m.StaysAbove d (command :: history)) :
    (m.perform command).2.StaysAbove d history :=
  fun _ early => above _ (List.cons_prefix_cons.2 ⟨rfl, early⟩)

theorem base_performAll {d : Nat} (sound : m.Sound) (count : base.length = d + 1)
    (present : base <+: m.store.stack.live) (above : m.StaysAbove d history) :
    base <+: (m.performAll history).store.stack.live := by
  induction history generalizing m with
  | nil => exact present
  | cons command rest ih =>
    have next := sound.perform command
    refine ih next ?_ above.tail
    obtain still | ⟨_, _, split⟩ := base_perform present command
    · exact still
    -- The return would leave no more than `d` addresses.
    · have deep : d < (m.perform command).2.store.stack.depth := above [command] (by simp)
      have length := CallStack.length_live _ next.stack.depth
      rw [split, List.length_append, length, List.length_singleton] at count
      omega

theorem step_of_leave (leaves : m.Runs ⟨0x0, 0x0, 0xE, 0xE⟩) (room : m.store.stack.depth ≤ 16) :
    m.step = (.ok .executed, m.advance.after .leave) := by
  obtain ⟨i, form, fetched⟩ := leaves.exists_instruction (by decide)
  cases i with
  | leave =>
    have accepted : m.advance.refusal .leave = none := if_neg (Nat.not_lt.2 room)
    rw [step_of_encode fetched, accepted]
    rfl
  | _ => cases form

theorem step_of_leave_empty (leaves : m.Runs ⟨0x0, 0x0, 0xE, 0xE⟩)
    (empty : m.store.stack.depth = 0) : m.step = (.ok .executed, m.advance) := by
  have bottom : m.advance.innermost = none := by
    rw [innermost, show m.advance.store.stack = m.store.stack from rfl,
      CallStack.pop_of_empty empty]
  have kept : m.advance.after .leave = m.advance := by
    rw [after, counterAfter, stackAfter, bottom]
    rfl
  rw [step_of_leave leaves (by omega), kept]

theorem step_of_call (calls : m.Runs ⟨0x2, .n, .n, .n⟩) (room : m.store.stack.depth ≤ 15) :
    m.step.1 = .ok .executed ∧ m.step.2.store.stack.depth = m.store.stack.depth + 1 ∧
      m.step.2.store.stack.live = m.store.stack.live ++ [m.store.pc + 2] := by
  obtain ⟨i, form, fetched⟩ := calls.exists_instruction (by decide)
  cases i with
  | call target =>
    -- The counter has moved on before the call, so that it is the address behind it that is kept.
    have space : m.store.stack.depth < 16 := Nat.lt_succ_of_le room
    have accepted : m.advance.refusal (.call target) = none := if_neg (Nat.not_le.2 space)
    have pushed := CallStack.push?_of_room space (m.store.pc + 2)
    have stack := congrArg (·.getD m.store.stack) pushed
    rw [step_of_encode fetched, accepted]
    exact ⟨rfl, (congrArg CallStack.depth stack).trans (CallStack.depth_push pushed),
      (congrArg CallStack.live stack).trans (CallStack.live_push pushed)⟩
  | _ => cases form

variable (m) in
structure Bracketed : Prop where
  next : (m.store.pc + 2).toNat = m.store.pc.toNat + 2
  entered : m.step.1 = .ok .executed ∧ m.step.2.store.stack.depth = m.store.stack.depth + 1
  inside (history : List Command) : m.step.2.StaysAbove m.store.stack.depth history →
    m.store.stack.live ++ [m.store.pc + 2] <+: (m.step.2.performAll history).store.stack.live
  left (history : List Command) (command : Command) :
    m.step.2.StaysAbove m.store.stack.depth history →
    ((m.step.2.performAll history).perform command).2.store.stack.depth ≤ m.store.stack.depth →
    command = .step ∧ (m.step.2.performAll history).Runs ⟨0x0, 0x0, 0xE, 0xE⟩ ∧
      ((m.step.2.performAll history).perform command).1 = .ok .executed ∧
      ((m.step.2.performAll history).perform command).2.store.pc = m.store.pc + 2 ∧
      ((m.step.2.performAll history).perform command).2.store.stack.depth =
        m.store.stack.depth ∧
      ((m.step.2.performAll history).perform command).2.store.stack.live = m.store.stack.live

theorem bracketed_of_call (sound : m.Sound) (calls : m.Runs ⟨0x2, .n, .n, .n⟩)
    (room : m.store.stack.depth ≤ 15) : m.Bracketed := by
  obtain ⟨executed, deeper, pushed⟩ := step_of_call calls room
  obtain ⟨w, fetched, _⟩ := calls
  have within := fetched.lt
  have length := CallStack.length_live m.store.stack sound.stack.depth
  have count : (m.store.stack.live ++ [m.store.pc + 2]).length = m.store.stack.depth + 1 := by
    rw [List.length_append, length, List.length_singleton]
  have inside (history : List Command)
      (above : m.step.2.StaysAbove m.store.stack.depth history) :
      m.store.stack.live ++ [m.store.pc + 2] <+:
        (m.step.2.performAll history).store.stack.live :=
    base_performAll sound.step count (pushed ▸ List.prefix_refl _) above
  refine ⟨toNat_advance (by omega), ⟨executed, deeper⟩, inside, ?_⟩
  intro history command above back
  have before := sound.step.performAll history
  have after := before.perform command
  have remaining := CallStack.length_live _ after.stack.depth
  obtain still | ⟨rfl, leaves, split⟩ := base_perform (inside history above) command
  · have longer := still.length_le
    omega
  · obtain ⟨live, pc⟩ := List.append_inj' split rfl
    have answered := congrArg Prod.fst (step_of_leave leaves before.stack.depth)
    exact ⟨rfl, leaves, answered, (List.singleton_inj.1 pc).symm,
      by rw [← remaining, ← live, length], live.symm⟩

/-- Calls and returns match, whatever comes between them: no transition moves the stack by more
than one address, and a return that has none to go to is as good as none. -/
theorem calls_are_bracketed :
    (∀ m : Machine, m.Reachable → m.store.stack.depth ≤ 15 → m.Runs ⟨0x2, .n, .n, .n⟩ →
      m.Bracketed) ∧
    (∀ (m : Machine) (command : Command),
      (m.perform command).2.store.stack.depth ≤ m.store.stack.depth + 1 ∧
        m.store.stack.depth ≤ (m.perform command).2.store.stack.depth + 1) ∧
    ∀ m : Machine, m.Runs ⟨0x0, 0x0, 0xE, 0xE⟩ → m.store.stack.depth = 0 →
      m.step = (.ok .executed, { m with store.pc := m.store.pc + 2 }) :=
  ⟨fun _ reachable room calls => bracketed_of_call reachable.sound calls room, depth_perform,
    fun _ leaves empty => step_of_leave_empty leaves empty⟩

-- A subroutine that calls itself until the stack is full, and then returns: after the first call,
-- fifteen others, one that overflows and fifteen returns stay inside, and one more return ends it.
def recursion : List UInt8 := [0x22, 0x04, 0x12, 0x02, 0x22, 0x04, 0x00, 0xEE]

theorem overflowing_recursion_is_bracketed :
    (loaded recursion).Runs ⟨0x2, .n, .n, .n⟩ ∧
      (loaded recursion).step.2.StaysAbove 0 (List.replicate 31 .step) ∧
      (((loaded recursion).step.2.performAll (List.replicate 31 .step)).perform .step).2.store.pc =
        0x202 := by
  obtain ⟨fetch, empty, pc, deep, back⟩ : (loaded recursion).fetch = .ok 0x2204 ∧
      (loaded recursion).store.stack.depth = 0 ∧
      (loaded recursion).store.pc + 2 = 0x202 ∧
      (∀ n < 32, 0 <
        ((loaded recursion).step.2.performAll (List.replicate n .step)).store.stack.depth) ∧
      (((loaded recursion).step.2.performAll
        (List.replicate 31 .step)).perform .step).2.store.stack.depth ≤ 0 := by
    decide +kernel
  have calls : (loaded recursion).Runs ⟨0x2, .n, .n, .n⟩ :=
    ⟨0x2204, fetch_eq_ok_iff.1 fetch, rfl, trivial, trivial, trivial⟩
  have above : (loaded recursion).step.2.StaysAbove 0 (List.replicate 31 .step) := by
    intro before early
    obtain ⟨short, steps⟩ := List.prefix_replicate_iff.1 early
    rw [steps]
    exact deep before.length (Nat.lt_succ_of_le short)
  have room : (loaded recursion).store.stack.depth ≤ 15 := by
    rw [empty]
    decide
  have left := (calls_are_bracketed.1 (loaded recursion) (reachable_loaded _ []) room calls).left
    (List.replicate 31 .step) .step
  rw [empty] at left
  obtain ⟨_, _, _, returned, _⟩ := left above back
  exact ⟨calls, above, returned.trans pc⟩

end Chip8.Machine
