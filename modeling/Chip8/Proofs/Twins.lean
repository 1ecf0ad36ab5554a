import Chip8.Proofs.Timers

set_option autoImplicit false

namespace Chip8

-- The forms of the instructions that take something in from outside.
def Form.inputs : List Form :=
  [⟨0xC, .x, .k, .k⟩, ⟨0xE, .x, 0x9, 0xE⟩, ⟨0xE, .x, 0xA, 0x1⟩, ⟨0xF, .x, 0x0, 0xA⟩]

namespace Machine

structure Alike (m m' : Machine) : Prop where
  ram : m'.store.ram = m.store.ram
  registers : m'.store.v = m.store.v
  index : m'.store.i = m.store.i
  counter : m'.store.pc = m.store.pc
  stack : m.store.stack.Alike m'.store.stack
  delay : m'.store.delay = m.store.delay
  sound : m'.store.sound = m.store.sound
  frame : m'.frame = m.frame

variable {m m' : Machine} {i : Instruction}

theorem Alike.innermost (alike : m.Alike m') :
    m'.innermost = m.innermost ∨
    ∃ a s s', m.innermost = some (a, s) ∧ m'.innermost = some (a, s') ∧ s.Alike s' := by
  unfold Machine.innermost
  obtain same | ⟨a, s, s', popped, popped', below⟩ := alike.stack.pop
  · rw [same]
    exact .inl rfl
  · rw [popped, popped']
    exact .inr ⟨a, s, s', rfl, rfl, below⟩

theorem Alike.advance (alike : m.Alike m') : m.advance.Alike m'.advance :=
  { alike with counter := congrArg (· + 2) alike.counter }

theorem Alike.fetches {w : UInt16} (alike : m.Alike m') (fetched : m.Fetches w) :
    m'.Fetches w := by
  rw [Fetches, alike.ram]
  simp only [alike.counter]
  exact fetched

theorem Alike.refusal (alike : m.Alike m') (i : Instruction) : m'.refusal i = m.refusal i := by
  cases i <;>
    simp only [Machine.refusal, alike.stack.depth, alike.registers, alike.index]

theorem progress_of_blind (blind : i.form ∉ Form.inputs) : m'.progress i = m.progress i := by
  cases i with
  | awaitKey => exact absurd (by simp [Form.inputs, Instruction.form]) blind
  | _ => rfl

theorem Alike.after_leave (alike : m.Alike m') : (m.after .leave).Alike (m'.after .leave) := by
  have returned : m'.counterAfter .leave = m.counterAfter .leave ∧
      (m.stackAfter .leave).Alike (m'.stackAfter .leave) := by
    simp only [counterAfter, stackAfter]
    obtain same | ⟨a, s, s', found, found', below⟩ := alike.innermost
    · rw [same]
      cases m.innermost with
      | none => exact ⟨alike.counter, alike.stack⟩
      | some => exact ⟨rfl, rfl, rfl⟩
    · rw [found, found']
      exact ⟨rfl, below⟩
  exact { alike with counter := returned.1, stack := returned.2 }

theorem Alike.after_call (alike : m.Alike m') (target : Fin 4096) :
    (m.after (.call target)).Alike (m'.after (.call target)) := by
  have kept : (m.stackAfter (.call target)).Alike (m'.stackAfter (.call target)) := by
    simp only [stackAfter, alike.counter]
    obtain ⟨full, full'⟩ | ⟨s, s', pushed, pushed', above⟩ := alike.stack.push? m.store.pc
    · rw [full, full']
      exact alike.stack
    · rw [pushed, pushed']
      exact above
  exact { alike with counter := rfl, stack := kept }

theorem Alike.after (alike : m.Alike m') (blind : i.form ∉ Form.inputs) :
    (m.after i).Alike (m'.after i) := by
  cases i with
  | random | skipHeld | skipFree | awaitKey =>
    exact absurd (by simp [Form.inputs, Instruction.form]) blind
  | leave => exact alike.after_leave
  | call target => exact alike.after_call target
  -- With the shared parts made the same, what is left differs in the stack alone.
  | _ =>
    obtain ⟨⟨_, _, _, _, _, _, _⟩, _, _, _⟩ := m
    obtain ⟨⟨_, _, _, _, _, _, _⟩, _, _, _⟩ := m'
    obtain ⟨rfl, rfl, rfl, rfl, stack, rfl, rfl, rfl⟩ := alike
    exact ⟨rfl, rfl, rfl, rfl, stack, rfl, rfl, rfl⟩

variable (m) in
def TakesInput : Prop :=
  ∃ f ∈ Form.inputs, m.Runs f

instance (m : Machine) : Decidable m.TakesInput :=
  inferInstanceAs (Decidable (∃ f ∈ Form.inputs, m.Runs f))

theorem Alike.step (alike : m.Alike m') (blind : ¬ m.TakesInput) :
    m'.step.1 = m.step.1 ∧ m.step.2.Alike m'.step.2 := by
  have ahead := alike.advance
  have unseen (i : Instruction) (fetched : m.Fetches i.encode) : i.form ∉ Form.inputs :=
    fun input => blind ⟨i.form, input, fetched.runs⟩
  have stepped := m.stepped
  generalize m.step = result at *
  cases stepped with
  | beyond far =>
    rw [step_of_beyond (alike.counter ▸ far), alike.counter]
    exact ⟨rfl, alike⟩
  | unknown fetched unread =>
    rw [step_of_unknown (alike.fetches fetched) unread, alike.counter]
    exact ⟨rfl, ahead⟩
  | @refused i _ fetched refused =>
    rw [step_of_encode (alike.fetches fetched), ahead.refusal, refused, alike.counter]
    exact ⟨rfl, ahead⟩
  | @executed i fetched accepted =>
    have blind := unseen i fetched
    rw [step_of_encode (alike.fetches fetched), ahead.refusal, accepted]
    exact ⟨congrArg Except.ok (progress_of_blind blind), ahead.after blind⟩

end Machine

namespace Store

structure SameTimers (s s' : Store) : Prop where
  delay : s'.delay = s.delay
  sound : s'.sound = s.sound

theorem SameTimers.of_timer {s s' : Store} (same : ∀ timer, s'.timer timer = s.timer timer) :
    s.SameTimers s' :=
  ⟨same .delay, same .sound⟩

theorem SameTimers.timer {s s' : Store} (same : s.SameTimers s') (timer : Timer) :
    s'.timer timer = s.timer timer := by
  cases timer with
  | delay => exact same.delay
  | sound => exact same.sound

end Store

namespace Machine

variable {m m' : Machine} {commands commands' : List Command}

theorem undisturbed_of_idle (idle : Idle commands) : m.Undisturbed (m.performAll commands) := by
  induction commands generalizing m with
  | nil => exact .refl m
  | cons command rest ih =>
    obtain ⟨first, others⟩ := List.forall_mem_cons.1 idle
    have later := ih (m := (m.perform command).2) others
    cases command with
    | keys =>
      refine .trans ?_ later
      exact ⟨rfl, rfl, rfl, rfl, rfl, rfl, rfl⟩
    | tick timer =>
      exact .trans (m.undisturbed_tick timer) later
    | _ => cases first

theorem Alike.pause (alike : m.Alike m') (idle : Idle commands) (idle' : Idle commands')
    (timers : (m.performAll commands).store.SameTimers (m'.performAll commands').store) :
    (m.performAll commands).Alike (m'.performAll commands') := by
  have kept : m.Undisturbed (m.performAll commands) := undisturbed_of_idle idle
  have kept' : m'.Undisturbed (m'.performAll commands') := undisturbed_of_idle idle'
  exact
    { ram := kept'.ram.trans (alike.ram.trans kept.ram.symm)
      registers := kept'.registers.trans (alike.registers.trans kept.registers.symm)
      index := kept'.index.trans (alike.index.trans kept.index.symm)
      counter := kept'.counter.trans (alike.counter.trans kept.counter.symm)
      stack := by
        rw [kept.stack, kept'.stack]
        exact alike.stack
      delay := timers.delay
      sound := timers.sound
      frame := kept'.frame.trans (alike.frame.trans kept.frame.symm) }

theorem Alike.timers_of_ticks (alike : m.Alike m') (idle : Idle commands) (idle' : Idle commands')
    (ticks : ∀ timer, commands'.count (.tick timer) = commands.count (.tick timer)) :
    (m.performAll commands).store.SameTimers (m'.performAll commands').store := by
  have same : m.store.SameTimers m'.store := ⟨alike.delay, alike.sound⟩
  apply Store.SameTimers.of_timer
  intro timer
  rw [timer_of_idle idle, timer_of_idle idle', ticks, same.timer]

theorem alike_loaded (source source' : Random.Source) (program : List UInt8) :
    ((fresh source).perform (.load program)).2.Alike
      ((fresh source').perform (.load program)).2 := by
  rw [perform, perform, load, load]
  simp only [fresh]
  cases Store.initial.load program <;> exact ⟨rfl, rfl, rfl, rfl, ⟨rfl, rfl⟩, rfl, rfl, rfl⟩

def meets (m : Machine) (between : Nat → List Command) : Nat → Machine
  | 0 => m.performAll (between 0)
  | k + 1 => (m.meets between k).step.2.performAll (between (k + 1))

variable {between between' : Nat → List Command} {n : Nat}

theorem Alike.meets (alike : m.Alike m') (idle : ∀ k < n, Idle (between k))
    (idle' : ∀ k < n, Idle (between' k))
    (timers : ∀ k < n, ∀ l l' : Machine, l.Alike l' →
      m.meets between k = l.performAll (between k) →
      m'.meets between' k = l'.performAll (between' k) →
      (m.meets between k).store.SameTimers (m'.meets between' k).store)
    (blind : ∀ k < n, ¬ (m.meets between k).TakesInput) (k : Nat) (within : k < n) :
    (m.meets between k).Alike (m'.meets between' k) := by
  induction k with
  | zero => exact alike.pause (idle 0 within) (idle' 0 within) (timers 0 within _ _ alike rfl rfl)
  | succ k ih =>
    have earlier : k < n := Nat.lt_of_succ_lt within
    have next := ((ih earlier).step (blind k earlier)).2
    exact next.pause (idle _ within) (idle' _ within) (timers _ within _ _ next rfl rfl)

variable (m m' between between' n) in
def InStep : Prop :=
  ∀ k < n, (m'.meets between' k).step.1 = (m.meets between k).step.1 ∧
    (m.meets between k).step.2.Alike (m'.meets between' k).step.2

/-- Without an instruction that takes something in, neither random words nor keys can be told from
what a machine does. Between two steps each timer may tick as its own driver lets it. -/
theorem inputs_enter_by_input_instructions :
    (∀ (m m' : Machine) (between between' : Nat → List Command) (n : Nat), m.Alike m' →
      (∀ k < n, Idle (between k)) → (∀ k < n, Idle (between' k)) →
      (∀ k < n, (m.meets between k).store.SameTimers (m'.meets between' k).store) →
      (∀ k < n, ¬ (m.meets between k).TakesInput) → InStep m m' between between' n) ∧
    (∀ (program : List UInt8) (source source' : Random.Source)
      (between between' : Nat → List Command) (n : Nat),
      (∀ k < n, Idle (between k)) → (∀ k < n, Idle (between' k)) →
      (∀ k < n, ∀ timer, (between' k).count (.tick timer) = (between k).count (.tick timer)) →
      (∀ k < n, ¬ (((fresh source).perform (.load program)).2.meets between k).TakesInput) →
      InStep ((fresh source).perform (.load program)).2
        ((fresh source').perform (.load program)).2 between between' n) ∧
    ∀ (c : Countdowns) (m : Machine) (events : List (Timer × Countdown.Event)),
      (∀ timer, (c timer).Rests) →
      (∀ timer, (c timer).Yields (m.store.timer timer) (Countdowns.own timer events)) →
      ∃ history, Idle history ∧ (c.run events).Show (m.performAll history) := by
  refine ⟨?_, ?_, fun _ _ _ => Countdowns.exists_ticks⟩
  · intro m m' between between' n alike idle idle' timers blind k within
    refine (alike.meets idle idle' ?_ blind k within).step (blind k within)
    exact fun k within _ _ _ _ _ => timers k within
  · intro program source source' between between' n idle idle' ticks blind k within
    have alike := alike_loaded source source' program
    refine (alike.meets idle idle' ?_ blind k within).step (blind k within)
    intro k within l l' alike here here'
    rw [here, here']
    exact alike.timers_of_ticks (idle k within) (idle' k within) (ticks k within)

-- A program that sets both timers and writes over one of its words: what was a return becomes a
-- jump to 0xEEE, where both find no instruction.
def patched : List UInt8 :=
  [0x60, 0x1E, 0xF0, 0x15, 0xF0, 0x18, 0xA2, 0x0C, 0xF0, 0x55, 0x00, 0x00, 0x00, 0xEE]

def twin (m : Machine) : Machine :=
  { m with
    store := { m.store with stack := ⟨Vector.replicate 16 0x300, 0⟩ }
    keypad := .ofCodes [3, 9]
    random := ⟨UInt32.ofNat, 5⟩ }

theorem alike_twin (empty : m.store.stack.depth = 0) : m.Alike m.twin :=
  have live : m.store.stack.live = [] := CallStack.live_eq_nil_iff.2 empty
  ⟨rfl, rfl, rfl, rfl, ⟨empty.symm, live.symm⟩, rfl, rfl, rfl⟩

def ticks (_ : Nat) : List Command :=
  [.tick .delay]

def presses (k : Nat) : List Command :=
  [.keys (.press (UInt8.ofNat k)), .tick .delay]

def delayed : List (Timer × Countdown.Event) :=
  [.set 0x1E, .caller, .caller, .caller, .timeout 0, .decrement 0].map (Timer.delay, ·)

theorem patched_twins :
    (loaded patched).Alike (loaded patched).twin ∧
      (∀ k < 8, ¬ ((loaded patched).meets ticks k).TakesInput) ∧
      ((loaded patched).twin.meets presses 7).step.1 =
        .error (.error (.cpu 0x0000 0xEEE .unknownInstruction)) ∧
      ((loaded patched).twin.meets presses 7).step.2.store.delay = 0x18 ∧
      ((loaded patched).twin.meets presses 7).step.2.store.sound = 0x1E ∧
      ∃ history, Idle history ∧
        (((loaded patched).performAll [.step, .step]).performAll history).store.delay = 0x1D := by
  obtain ⟨empty, timers, blind, last, delay, sound, stored, silent⟩ :
      (loaded patched).store.stack.depth = 0 ∧
        (∀ k < 8,
          ((loaded patched).twin.meets presses k).store.delay =
              ((loaded patched).meets ticks k).store.delay ∧
            ((loaded patched).twin.meets presses k).store.sound =
              ((loaded patched).meets ticks k).store.sound) ∧
        (∀ k < 8, ¬ ((loaded patched).meets ticks k).TakesInput) ∧
        ((loaded patched).meets ticks 7).step.1 =
          .error (.error (.cpu 0x0000 0xEEE .unknownInstruction)) ∧
        ((loaded patched).meets ticks 7).step.2.store.delay = 0x18 ∧
        ((loaded patched).meets ticks 7).step.2.store.sound = 0x1E ∧
        ((loaded patched).performAll [.step, .step]).store.timer .delay = 0x1E ∧
        ((loaded patched).performAll [.step, .step]).store.timer .sound = 0 := by
    decide +kernel
  have alike := alike_twin empty
  have idle : ∀ k < 8, Idle (ticks k) := by simp [Idle, ticks, Command.isIdle]
  have idle' : ∀ k < 8, Idle (presses k) := by simp [Idle, presses, Command.isIdle]
  have inStep := inputs_enter_by_input_instructions.1 (loaded patched) (loaded patched).twin
    ticks presses 8 alike idle idle'
    (fun k within => ⟨(timers k within).1, (timers k within).2⟩) blind
  obtain ⟨answer, after⟩ := inStep 7 (by decide)
  have yields (timer : Timer) : Countdown.idle.Yields
      (((loaded patched).performAll [.step, .step]).store.timer timer)
      (Countdowns.own timer delayed) := by
    cases timer with
    | delay =>
      rw [stored]
      exact .inr ⟨[.caller, .caller, .caller, .timeout 0, .decrement 0], rfl,
        Countdown.uncalled_of_forall (by simp), by decide⟩
    | sound => exact .inl ⟨silent.symm, by simp [delayed, Countdowns.own]⟩
  obtain ⟨history, ticked, shown⟩ := inputs_enter_by_input_instructions.2.2
    (fun _ => Countdown.idle) _ delayed (fun _ => Countdown.rests_idle) yields
  exact ⟨alike, blind, answer.trans last, after.delay.trans delay, after.sound.trans sound,
    history, ticked, (shown.value .delay).trans (by decide)⟩

end Machine

end Chip8
