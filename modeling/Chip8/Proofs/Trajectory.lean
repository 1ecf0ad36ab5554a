import Chip8.Proofs.Course
import Chip8.Proofs.Keypad

set_option autoImplicit false

namespace Chip8

open Machine (reachable_loaded)

theorem Machine.step_of_awaiting {m : Machine} {x : Fin 16}
    (awaiting : m.step.1 = .ok (.awaitingKey x)) :
    m.Fetches (Instruction.awaitKey x).encode ∧ m.step.2 = m.advance := by
  have stepped := m.stepped
  generalize step : m.step = result at *
  cases stepped with
  | beyond | unknown | refused => cases awaiting
  | @executed i fetched =>
    cases i with
    | awaitKey y =>
      rw [Machine.step_of_awaitKey fetched] at step
      cases first : m.keypad.first with
      | some key => simp [progress, Machine.advance, first] at awaiting
      | none =>
        simp only [first, Prod.mk.injEq] at step
        rw [← step.1] at awaiting
        cases awaiting
        exact ⟨fetched, step.2.symm⟩
    | _ => cases awaiting

namespace Session

variable {m m' m'' : Machine} {p p' q : Place} {story : List Entry} {x key : Fin 16}

namespace Place

def Awaits (x : Fin 16) : Place → Prop
  | .waiting y | .asking y | .storing y _ | .resuming y _ => y = x
  | _ => False

def Holds (x key : Fin 16) : Place → Prop
  | .storing y k | .resuming y k => y = x ∧ k = key
  | _ => False

def unstepped : Place → Nat
  | .entered | .stepping => 1
  | _ => 0

end Place

def Answered (x : Fin 16) (story : List Entry) (q : Place) : Prop :=
  (Quiet story ∧ (q.Awaits x ∨ ∃ result, q = .ended result)) ∨
  ∃ quiet key answer rest, story = quiet ++ .clock (.resumed x key answer) :: rest ∧ Quiet quiet

theorem Answered.cons {entry : Entry} (idle : entry.isTransition = false)
    (answered : Answered x story q) : Answered x (entry :: story) q := by
  rcases answered with ⟨quiet, last⟩ | ⟨quiet, key, answer, rest, split, silent⟩
  · exact .inl ⟨quiet.cons idle, last⟩
  · exact .inr ⟨entry :: quiet, key, answer, rest, congrArg (entry :: ·) split, silent.cons idle⟩

theorem Course.answered (course : Course m p story m' q) (awaits : p.Awaits x) :
    Answered x story q := by
  induction course with
  | nil => exact .inl ⟨quiet_nil, .inl awaits⟩
  | @cons _ _ _ _ _ _ _ rest move course ih =>
    cases move with
    | host | found | missed | again | retaken => exact (ih awaits).cons rfl
    | interrupted | lost =>
      obtain ⟨last, idle⟩ := course.of_ended
      exact .inl ⟨(quiet_of_no_deeds idle).cons rfl, .inr ⟨_, last⟩⟩
    | resumed =>
      cases awaits
      exact .inr ⟨[], _, _, rest, rfl, quiet_nil⟩
    | _ => exact awaits.elim

theorem Course.awaited (course : Course m p story m' q) (awaits : q.Awaits x) :
    (p.Awaits x ∧ Quiet story) ∨
    ∃ early wait, story = early ++ .clock (.stepped (.ok (.awaitingKey x))) :: wait ∧
      Quiet wait := by
  induction course with
  | nil => exact .inl ⟨awaits, quiet_nil⟩
  | @cons m _ _ p p' _ entry rest move _ ih =>
    rcases ih awaits with ⟨still, quiet⟩ | ⟨early, wait, split, quiet⟩
    · cases move with
      | host | found | missed | again | retaken =>
        exact .inl ⟨still, quiet.cons rfl⟩
      | awaiting =>
        cases still
        exact .inr ⟨[], rest, rfl, quiet⟩
      | _ => exact still.elim
    · exact .inr ⟨entry :: early, wait, congrArg (entry :: ·) split, quiet⟩

theorem Course.decided (course : Course m p story m' q) (holds : q.Holds x key) :
    (p.Holds x key ∧ Quiet story) ∨
    ∃ early quiet m₁, story = early ++ .clock (.looked x (some key)) :: quiet ∧ Quiet quiet ∧
      Course m p early m₁ (.waiting x) ∧ m₁.keypad.Lowest key := by
  induction course with
  | nil => exact .inl ⟨holds, quiet_nil⟩
  | @cons m _ _ p p' _ entry rest move _ ih =>
    rcases ih holds with ⟨still, quiet⟩ | ⟨early, wait, m₁, split, quiet, course, lowest⟩
    · cases move with
      | host | retaken => exact .inl ⟨still, quiet.cons rfl⟩
      | found first =>
        obtain ⟨rfl, rfl⟩ := still
        exact .inr ⟨[], rest, m, rfl, quiet, .nil, Keypad.lowest_of_first first⟩
      | _ => exact still.elim
    · exact .inr ⟨entry :: early, wait, m₁, congrArg (entry :: ·) split, quiet,
        .cons move course, lowest⟩

theorem Course.rounds (course : Course m p story m' q) (going : ∀ result, q ≠ .ended result) :
    story.countP Entry.isRound + p.unstepped = story.countP Entry.isStep + q.unstepped := by
  induction course with
  | nil => rfl
  | cons move course ih =>
    have counted := ih going
    cases move with
    | stopped | refused | failed | interrupted | lost =>
      exact absurd course.of_ended.1 (going _)
    | _ =>
      simp only [List.countP_cons, Entry.isRound, Entry.isStep, Place.unstepped] at counted ⊢
      simp only [if_true, Bool.false_eq_true, if_false]
      omega

namespace Phase

def awaits? : Phase → Option (Fin 16)
  | .announcing x | .waiting x _ | .storing x _ => some x
  | _ => none

def isEnding : Phase → Bool
  | .reporting _ | .raising _ | .closing _ | .returned _ => true
  | _ => false

def needsMachine : Phase → Bool
  | .locking | .storing .. => true
  | _ => false

end Phase

theorem Stands.seen {s : Session} {machine : Machine} (stands : s.Stands m p)
    (seen : s.visible = some machine) : machine = m := by
  unfold visible at seen
  split at seen
  · contradiction
  · next free =>
    cases seen
    exact stands.machine_eq (Bool.not_eq_true _ ▸ free)

theorem Stands.phase_of_wait {s : Session} (stands : s.Stands m p)
    (last : p.Awaits x ∨ ∃ result, p = .ended result) :
    s.phase.holdsMachine = false ∧ (s.phase.awaits? = some x ∨ s.phase.isEnding = true) := by
  obtain ⟨_, _, _, _, phase, _⟩ := s
  cases phase with
  | starting | checking | locking | fetching | executing =>
    obtain ⟨rfl, _⟩ := stands
    rcases last with awaits | ⟨_, same⟩
    · exact awaits.elim
    · cases same
  | announcing | storing =>
    obtain ⟨rfl, _⟩ := stands
    rcases last with rfl | ⟨_, same⟩
    · exact ⟨rfl, .inl rfl⟩
    · cases same
  | waiting y wait =>
    cases wait with
    | looking | asking =>
      obtain ⟨rfl, _⟩ := stands
      rcases last with rfl | ⟨_, same⟩
      · exact ⟨rfl, .inl rfl⟩
      · cases same
    | ended => exact stands.elim
  | reporting | raising | closing | returned => exact ⟨rfl, .inr rfl⟩
  | trapped => exact stands.elim

structure Orderly (m : Machine) (story : List Entry) (s : Session) : Prop where
  seen (machine : Machine) : s.visible = some machine → machine = m.performAll (commands story)
  step (before after : List Entry) (answer : Answer) :
    story = before ++ .clock (.stepped answer) :: after →
    (m.performAll (commands before)).step.1 = answer ∧
      before.countP Entry.isRound = before.countP Entry.isStep + 1
  -- A wait ends with a key for VX, or lasts: then VX is as it was, and the counter past the word.
  await (before after : List Entry) (x : Fin 16) :
    story = before ++ .clock (.stepped (.ok (.awaitingKey x))) :: after →
    (∃ quiet key answer rest,
      after = quiet ++ .clock (.resumed x key answer) :: rest ∧ Quiet quiet) ∨
    (Quiet after ∧ (s.phase.awaits? = some x ∨ s.phase.isEnding = true) ∧
      (m.performAll (commands before)).Fetches (Instruction.awaitKey x).encode ∧
      s.machine.store.v = (m.performAll (commands before)).store.v ∧
      s.machine.store.pc = (m.performAll (commands before)).store.pc + 2)
  -- A key is stored without fail, once a step, and was the lowest one held when it was found.
  resume (before after : List Entry) (x key : Fin 16) (answer : Answer) :
    story = before ++ .clock (.resumed x key answer) :: after →
    answer = .ok .executed ∧
    ∃ early wait quiet,
      before = early ++ .clock (.stepped (.ok (.awaitingKey x))) ::
        (wait ++ .clock (.looked x (some key)) :: quiet) ∧
      Quiet wait ∧ Quiet quiet ∧
      (m.performAll (commands (early ++ .clock (.stepped (.ok (.awaitingKey x))) ::
        wait))).keypad.Lowest key

theorem Course.step_entry {before after : List Entry} {answer : Answer}
    (course : Course m .head (before ++ .clock (.stepped answer) :: after) m' q) :
    (m.performAll (commands before)).step.1 = answer ∧
      before.countP Entry.isRound = before.countP Entry.isStep + 1 := by
  obtain ⟨m₁, p, first, second⟩ := course.split
  rw [← first.machine]
  cases second with
  | cons move _ =>
    cases move with
    | executed answered | awaiting answered | failed answered =>
      exact ⟨answered, first.rounds (by simp)⟩

theorem Course.await_entry {before after : List Entry} {s : Session}
    (course : Course m .head (before ++ .clock (.stepped (.ok (.awaitingKey x))) :: after) m' q)
    (stands : s.Stands m' q) :
    (∃ quiet key answer rest,
      after = quiet ++ .clock (.resumed x key answer) :: rest ∧ Quiet quiet) ∨
    (Quiet after ∧ (s.phase.awaits? = some x ∨ s.phase.isEnding = true) ∧
      (m.performAll (commands before)).Fetches (Instruction.awaitKey x).encode ∧
      s.machine.store.v = (m.performAll (commands before)).store.v ∧
      s.machine.store.pc = (m.performAll (commands before)).store.pc + 2) := by
  obtain ⟨m₁, p, first, second⟩ := course.split
  rw [← first.machine]
  cases second with
  | cons move rest =>
    cases move with
    | awaiting answered =>
      rcases rest.answered rfl with ⟨quiet, last⟩ | resumed
      · obtain ⟨fetched, stepped⟩ := Machine.step_of_awaiting answered
        obtain ⟨free, phase⟩ := stands.phase_of_wait last
        have kept := rest.undisturbed quiet
        rw [stepped] at kept
        rw [stands.machine_eq free]
        exact .inr ⟨quiet, phase, fetched, kept.registers, kept.counter⟩
      · exact .inl resumed

theorem Course.resume_entry {before after : List Entry} {answer : Answer}
    (course : Course m .head (before ++ .clock (.resumed x key answer) :: after) m' q) :
    answer = .ok .executed ∧
    ∃ early wait quiet,
      before = early ++ .clock (.stepped (.ok (.awaitingKey x))) ::
        (wait ++ .clock (.looked x (some key)) :: quiet) ∧
      Quiet wait ∧ Quiet quiet ∧
      (m.performAll (commands (early ++ .clock (.stepped (.ok (.awaitingKey x))) ::
        wait))).keypad.Lowest key := by
  obtain ⟨m₁, p, first, second⟩ := course.split
  cases second with
  | cons move _ =>
    cases move with
    | resumed =>
      refine ⟨rfl, ?_⟩
      have resuming : (Place.resuming x key).Holds x key := ⟨rfl, rfl⟩
      obtain ⟨holds, _⟩ | ⟨found, quiet, m₂, rfl, silent, course, lowest⟩ := first.decided resuming
      · exact holds.elim
      · obtain ⟨awaits, _⟩ | ⟨early, wait, rfl, waited⟩ := course.awaited (x := x) rfl
        · exact awaits.elim
        · rw [course.machine] at lowest
          exact ⟨early, wait, quiet, by simp, waited, silent, lowest⟩

theorem orderly_run {s : Session} (reachable : s.machine.Reachable) (starting : s.phase = .starting)
    (events : List Event) :
    Orderly s.machine (s.story events) (s.run events) ∧ ∀ t, (s.run events).phase ≠ .trapped t := by
  obtain ⟨m, q, course, stands⟩ := exists_course reachable starting events
  refine ⟨⟨?_, ?_, ?_, ?_⟩, ?_⟩
  · intro machine seen
    rw [← course.machine]
    exact stands.seen seen
  · intro before after answer split
    rw [split] at course
    exact course.step_entry
  · intro before after x split
    rw [split] at course
    exact course.await_entry stands
  · intro before after x key answer split
    rw [split] at course
    exact course.resume_entry
  · intro t trapped
    rw [Stands, trapped] at stands
    exact stands

theorem act_phase (s : Session) (action : HostAction) : (s.act action).phase = s.phase := by
  unfold act
  split
  · rfl
  · cases action <;> rfl

theorem holdsMachine_advance {s : Session} (free : s.phase.holdsMachine = false)
    (elsewhere : s.phase.needsMachine = false) : s.advance.phase.holdsMachine = false := by
  obtain ⟨machine, stop, _, _, phase, _⟩ := s
  cases phase with
  | fetching | executing => cases free
  | locking | storing => cases elsewhere
  | checking => cases stop <;> rfl
  | waiting x wait =>
    simp only [advance, goto]
    split <;> rfl
  | _ => rfl

structure Watched where
  session : Session
  taken : Bool

namespace Watched

inductive Event where
  | turn (event : Session.Event)
  | take
  | release

def waits (w : Watched) : Session.Event → Bool
  | .clock => w.taken && w.session.phase.needsMachine
  | .host .poison => w.taken
  | .host _ => false

def react (w : Watched) : Event → Watched
  | .turn event => if w.waits event then w else { w with session := w.session.react event }
  | .take => if w.session.phase.holdsMachine then w else { w with taken := true }
  | .release => { w with taken := false }

def run (w : Watched) (events : List Event) : Watched :=
  events.foldl react w

def reading (w : Watched) : Option Machine :=
  if w.taken then some w.session.machine else none

def turn? (w : Watched) : Event → Option Session.Event
  | .turn event => if w.waits event then none else some event
  | .take | .release => none

def turns (w : Watched) : List Event → List Session.Event
  | [] => []
  | event :: rest => (w.turn? event).toList ++ (w.react event).turns rest

theorem react_session (w : Watched) (event : Event) :
    (w.react event).session = w.session.run (w.turn? event).toList := by
  cases event with
  | turn event =>
    simp only [react, turn?]
    split <;> rfl
  | take =>
    simp only [react]
    split <;> rfl
  | release => rfl

theorem run_session (w : Watched) (events : List Event) :
    (w.run events).session = w.session.run (w.turns events) := by
  induction events generalizing w with
  | nil => rfl
  | cons event rest ih =>
    rw [turns, Session.run_append, ← react_session]
    exact ih _

def Exclusive (w : Watched) : Prop :=
  w.taken = true → w.session.phase.holdsMachine = false

theorem Exclusive.react {w : Watched} (exclusive : w.Exclusive) (event : Event) :
    (w.react event).Exclusive := by
  cases event with
  | turn event =>
    simp only [Watched.react]
    split
    · exact exclusive
    · next free =>
      intro taken
      cases event with
      | host action =>
        rw [Session.react, act_phase]
        exact exclusive taken
      | clock =>
        refine holdsMachine_advance (exclusive taken) ?_
        simpa [waits, show w.taken = true from taken] using free
  | take =>
    simp only [Watched.react]
    split
    · exact exclusive
    · next free => exact fun _ => eq_false_of_ne_true free
  | release =>
    intro taken
    cases taken

theorem Exclusive.run {w : Watched} (exclusive : w.Exclusive) (events : List Event) :
    (w.run events).Exclusive := by
  induction events generalizing w with
  | nil => exact exclusive
  | cons event rest ih => exact ih (exclusive.react event)

theorem Exclusive.visible {w : Watched} {machine : Machine} (exclusive : w.Exclusive)
    (read : w.reading = some machine) : w.session.visible = some machine := by
  unfold reading at read
  split at read
  · next taken => rw [Session.visible, exclusive taken, if_neg Bool.false_ne_true, read]
  · cases read

end Watched

/-- However clock and host take turns, the machine goes through the states of single steps, one a
round, each wait for a key ends with the key found or with the run, and a host that takes the
machine finds it between two transitions. -/
theorem clock_trajectory {w : Watched} (reachable : w.session.machine.Reachable)
    (starting : w.session.phase = .starting) (events : List Watched.Event) :
    Orderly w.session.machine (w.session.story (w.turns events)) (w.run events).session ∧
      (∀ machine, (w.run events).reading = some machine →
        machine = w.session.machine.performAll (commands (w.session.story (w.turns events)))) ∧
      ∀ t, (w.run events).session.phase ≠ .trapped t := by
  obtain ⟨orderly, untrapped⟩ := orderly_run reachable starting (w.turns events)
  rw [← w.run_session] at orderly untrapped
  have exclusive : w.Exclusive := by
    intro _
    rw [starting]
    rfl
  exact ⟨orderly, fun machine read => orderly.seen machine ((exclusive.run events).visible read),
    untrapped⟩

-- The host takes the machine once two keys are held, so the clock has to wait to store one.
def intrusion : List Watched.Event :=
  List.replicate 8 (.turn .clock) ++ [.turn (.host (.keys (.press 9))),
    .turn (.host (.keys (.press 4))), .take, .turn .clock, .turn .clock]

theorem awaited_key_trajectory :
    (Watched.run ⟨awaitingKey, false⟩ intrusion).reading.isSome = true ∧
      (Watched.run ⟨awaitingKey, false⟩ intrusion).session.machine.store.v.get v0 ≠ 4 ∧
      (Watched.run ⟨awaitingKey, false⟩
        (intrusion ++ [.release, .turn .clock])).session.machine.store.v.get v0 = 4 ∧
      Orderly awaitingKey.machine
        (awaitingKey.story
          (Watched.turns ⟨awaitingKey, false⟩ (intrusion ++ [.release, .turn .clock])))
        (Watched.run ⟨awaitingKey, false⟩ (intrusion ++ [.release, .turn .clock])).session :=
  ⟨by decide +kernel, by decide +kernel, by decide +kernel,
    (clock_trajectory (w := ⟨awaitingKey, false⟩) (reachable_loaded [0xF0, 0x0A] []) rfl _).1⟩

end Session

end Chip8
