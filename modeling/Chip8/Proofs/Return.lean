import Chip8.Proofs.Course
import Chip8.Proofs.Keypad

set_option autoImplicit false

namespace Chip8

open Machine (reachable_loaded)

namespace Machine

theorem cpu_of_failed {m : Machine} {failure : Failure}
    (failed : m.step.1 = .error (.error failure)) :
    ∃ w fault, failure = .cpu w m.store.pc fault := by
  have stepped := m.stepped
  generalize m.step = result at *
  cases stepped with
  | beyond | unknown =>
    cases failed
    exact ⟨_, _, rfl⟩
  | @refused _ halt =>
    cases halt with
    | error =>
      cases failed
      exact ⟨_, _, rfl⟩
    | trap => cases failed
  | executed => cases failed

theorem get_resume (m : Machine) (x : Fin 16) (key : UInt8) :
    (m.perform (.resume x key)).2.store.v.get x = key := by
  rw [perform, resume_of_nibble]
  exact Vector.getElem_set_self x.isLt

end Machine

namespace Session

variable {m m' : Machine} {p q : Place} {story before after : List Entry} {deed : Deed}
  {result : Result} {x key : Fin 16}

namespace Deed

def result? : Deed → Option Result
  | .checked true | .asked true => some (.ok ())
  | .locked true => some (.error (.poison poisonText))
  | .stepped (.error (.error failure)) => some (.error failure)
  | _ => none

def answer? : Deed → Option Answer
  | .stepped answer => some answer
  | _ => none

end Deed

def answers (story : List Entry) : List Answer :=
  (deeds story).filterMap Deed.answer?

theorem deeds_split (before after : List Entry) (deed : Deed) :
    deeds (before ++ .clock deed :: after) = deeds before ++ deed :: deeds after :=
  deeds_append before _

theorem exists_split (present : deed ∈ deeds story) :
    ∃ before after, story = before ++ .clock deed :: after := by
  obtain ⟨entry, present, same⟩ := List.mem_filterMap.1 present
  cases entry with
  | host => cases same
  | clock =>
    cases same
    exact List.append_of_mem present

-- The host leaves the clock where it stands, so the first deed is a move from there.
theorem Course.next_deed (course : Course m p story m' q) :
    (deeds story = [] ∧ q = p) ∨
    ∃ quiet deed rest m₁ m₂ r, story = quiet ++ .clock deed :: rest ∧ deeds quiet = [] ∧
      Move m₁ p (.clock deed) m₂ r ∧ Course m₂ r rest m' q := by
  induction course with
  | nil => exact .inl ⟨rfl, rfl⟩
  | @cons m _ _ p _ _ entry rest move course ih =>
    cases entry with
    | clock deed => exact .inr ⟨[], deed, rest, _, _, _, rfl, rfl, move, course⟩
    | host action =>
      cases move
      rcases ih with idle | ⟨quiet, deed, rest, m₁, m₂, r, split, silent, later⟩
      · exact .inl idle
      · exact .inr ⟨.host action :: quiet, deed, rest, m₁, m₂, r,
          congrArg (.host action :: ·) split, silent, later⟩

theorem Course.last_deed (course : Course m p story m' (.ended result))
    (going : ∀ result, p ≠ .ended result) :
    ∃ before deed after m₁ p₁ m₂, story = before ++ .clock deed :: after ∧ deeds after = [] ∧
      Course m p before m₁ p₁ ∧ Move m₁ p₁ (.clock deed) m₂ (.ended result) := by
  induction story generalizing m p with
  | nil =>
    cases course
    exact absurd rfl (going result)
  | cons entry rest ih =>
    cases course with
    | @cons _ m₁ _ _ p₁ _ _ _ move course =>
      by_cases finished : ∃ result, p₁ = .ended result
      · obtain ⟨_, rfl⟩ := finished
        obtain ⟨same, idle⟩ := course.of_ended
        cases same
        cases entry with
        | clock deed => exact ⟨[], deed, rest, m, p, m₁, rfl, idle, .nil, move⟩
        | host =>
          cases move
          exact absurd rfl (going result)
      · obtain ⟨before, deed, after, m₂, p₂, m₃, split, idle, first, last⟩ :=
          ih course (not_exists.1 finished)
        exact ⟨entry :: before, deed, after, m₂, p₂, m₃, congrArg (entry :: ·) split, idle,
          .cons move first, last⟩

theorem Move.settled (move : Move m p (.clock deed) m' q) (settles : deed.result? = some result) :
    q = .ended result := by
  cases move <;> cases settles <;> rfl

theorem Course.settled (course : Course m p (before ++ .clock deed :: after) m' q)
    (settles : deed.result? = some result) : q = .ended result ∧ deeds after = [] := by
  obtain ⟨m₁, p₁, _, second⟩ := course.split
  cases second with
  | cons move rest =>
    obtain rfl := move.settled settles
    exact rest.of_ended

structure Explains (m : Machine) (story : List Entry) (result : Result) : Prop where
  kinds : result = .ok () ∨ (∃ w pc fault, result = .error (.cpu w pc fault)) ∨
    result = .error (.poison poisonText)
  stopped : result = .ok () →
    ∃ before deed after, story = before ++ .clock deed :: after ∧ deeds after = [] ∧
      (deed = .checked true ∨ deed = .asked true ∧
        ∀ code, (m.performAll (commands before)).keypad.isDown code = false)
  failed (w pc : UInt16) (fault : Fault) : result = .error (.cpu w pc fault) ↔
    (answers story).getLast? = some (.error (.error (.cpu w pc fault)))
  poisoned : result = .error (.poison poisonText) ↔ .locked true ∈ deeds story

theorem Course.explains (course : Course m .head story m' (.ended result)) :
    Explains m story result := by
  have settle {deed : Deed} {other : Result} (present : deed ∈ deeds story)
      (settles : deed.result? = some other) : result = other := by
    obtain ⟨before, after, rfl⟩ := exists_split present
    cases (course.settled settles).1
    rfl
  obtain ⟨before, deed, after, m₁, p₁, m₂, rfl, idle, first, last⟩ := course.last_deed (by simp)
  constructor
  · cases last with
    | stopped | interrupted => exact .inl rfl
    | failed answered =>
      obtain ⟨w, fault, rfl⟩ := Machine.cpu_of_failed answered
      exact .inr (.inl ⟨w, _, fault, rfl⟩)
    | refused | lost => exact .inr (.inr rfl)
  · rintro rfl
    refine ⟨before, deed, after, rfl, idle, ?_⟩
    cases last with
    | stopped => exact .inl rfl
    | interrupted free =>
      rw [first.machine] at free
      exact .inr ⟨rfl, Keypad.first_eq_none_iff.1 free⟩
  · intro w pc fault
    constructor
    · rintro rfl
      cases last with
      | failed => simp [answers, deeds_split, idle, Deed.answer?]
    · intro final
      obtain ⟨deed, present, answered⟩ := List.mem_filterMap.1 (List.mem_of_getLast? final)
      cases deed with
      | stepped =>
        cases answered
        exact settle present rfl
      | _ => cases answered
  · constructor
    · intro lost
      cases last with
      | refused | lost => simp [deeds_split]
      | failed answered =>
        obtain ⟨w, fault, rfl⟩ := Machine.cpu_of_failed answered
        cases lost
      | stopped | interrupted => cases lost
    · intro present
      exact settle present rfl

def Leaves (s : Session) (result : Result) (left : Nat) : Prop :=
  match s.phase with
  | .starting => s.stop = true ∧ result = .ok () ∧ left = 3
  | .checking => s.stop = true ∧ result = .ok () ∧ left = 2
  | .reporting failure => result = .error failure ∧ left = 3
  | .raising failure => result = .error failure ∧ left = 2
  | .closing other => result = other ∧ left = 1
  | .returned other => result = other ∧ left = 0
  | _ => False

theorem Leaves.advance {s : Session} {left : Nat} (leaves : s.Leaves result left) :
    s.advance.Leaves result (left - 1) := by
  obtain ⟨_, _, _, _, phase, _⟩ := s
  cases phase with
  | starting | checking =>
    obtain ⟨rfl, rfl, rfl⟩ := leaves
    simp [Session.advance, Session.note, Session.goto, Leaves]
  | reporting | raising | closing | returned =>
    obtain ⟨rfl, rfl⟩ := leaves
    exact ⟨rfl, rfl⟩
  | _ => exact leaves.elim

theorem Leaves.act {s : Session} {left : Nat} (leaves : s.Leaves result left)
    (action : HostAction) : (s.act action).Leaves result left := by
  unfold Session.act
  split
  · exact leaves
  · obtain ⟨_, _, _, _, phase, _⟩ := s
    cases action with
    | stop =>
      cases phase with
      | starting | checking => exact ⟨rfl, leaves.2⟩
      | _ => exact leaves
    | keys | poison | tick => exact leaves

theorem Leaves.run {s : Session} {left : Nat} (leaves : s.Leaves result left)
    (events : List Event) :
    (s.run events).Leaves result (left - events.count .clock) := by
  induction events generalizing s left with
  | nil => exact leaves
  | cons event rest ih =>
    cases event with
    | clock =>
      rw [List.count_cons_self, Nat.add_comm, ← Nat.sub_sub]
      exact ih leaves.advance
    | host action =>
      rw [List.count_cons_of_ne (by simp)]
      exact ih (leaves.act action)

theorem Leaves.returned {s : Session} (leaves : s.Leaves result 0) :
    s.phase = .returned result := by
  obtain ⟨_, _, _, _, phase, _⟩ := s
  cases phase with
  | returned => rw [leaves.1]
  | starting | checking => cases leaves.2.2
  | reporting | raising | closing => cases leaves.2
  | _ => exact leaves.elim

theorem Leaves.returned_of_count {s : Session} {left : Nat} (leaves : s.Leaves result left)
    {events : List Event} (enough : left ≤ events.count .clock) :
    (s.run events).phase = .returned result := by
  have gone := leaves.run events
  rw [Nat.sub_eq_zero_of_le enough] at gone
  exact gone.returned

theorem Leaves.free {s : Session} {left : Nat} (leaves : s.Leaves result left) :
    s.phase.holdsMachine = false := by
  obtain ⟨_, _, _, _, phase, _⟩ := s
  cases phase with
  | fetching | executing => exact leaves.elim
  | _ => rfl

theorem Leaves.of_mem_entries {s : Session} {left : Nat} (leaves : s.Leaves result left)
    (event : Event) :
    ∀ entry ∈ s.entries event,
      entry = .clock (.checked true) ∨ ∃ action, entry = .host action := by
  intro entry present
  cases event with
  | host action =>
    simp only [Session.entries] at present
    split at present
    · cases present
    · exact .inr ⟨action, List.mem_singleton.1 present⟩
  | clock =>
    obtain ⟨_, stop, _, _, phase, _⟩ := s
    cases phase with
    | checking =>
      obtain ⟨rfl, _⟩ := leaves
      exact .inl (List.mem_singleton.1 present)
    | starting | reporting | raising | closing | returned => cases present
    | _ => exact leaves.elim

theorem Leaves.of_mem_story {s : Session} {left : Nat} (leaves : s.Leaves result left)
    (events : List Event) :
    ∀ entry ∈ s.story events, entry = .clock (.checked true) ∨ ∃ action, entry = .host action := by
  induction events generalizing s left with
  | nil => simp [Session.story]
  | cons event rest ih =>
    intro entry present
    rcases List.mem_append.1 present with first | later
    · exact leaves.of_mem_entries event entry first
    · exact ih (leaves.run [event]) entry later

theorem Stands.leaves {s : Session} (stands : s.Stands m (.ended result)) :
    ∃ left ≤ 3, s.Leaves result left := by
  obtain ⟨_, _, _, _, phase, _⟩ := s
  cases phase with
  | starting | checking | locking | fetching | executing | announcing | storing => cases stands.1
  | waiting _ wait =>
    cases wait with
    | looking | asking => cases stands.1
    | ended => exact stands.elim
  | reporting | raising | closing | returned =>
    obtain ⟨same, _⟩ := stands
    cases same
    exact ⟨_, by decide, rfl, rfl⟩
  | trapped => exact stands.elim

def Kept (m : Machine) (before after : List Entry) (x key : Fin 16) (s : Session) : Prop :=
  (deeds after = [] ∧ s.phase = .storing x key) ∨
  deeds after = [.locked true] ∨
  ∃ quiet answer rest, after = quiet ++ .clock (.resumed x key answer) :: rest ∧
    deeds quiet = [.locked false] ∧
    (m.performAll (commands (before ++ .clock (.looked x (some key)) ::
      (quiet ++ [.clock (.resumed x key answer)])))).store.v.get x = UInt8.ofNat key

theorem get_resumed (m : Machine) (story : List Entry) (x key : Fin 16) (answer : Answer) :
    (m.performAll (commands (story ++ [.clock (.resumed x key answer)]))).store.v.get x =
      UInt8.ofNat key := by
  rw [commands_append, Machine.performAll_append]
  exact Machine.get_resume _ x _

theorem Stands.phase_of_storing {s : Session} (stands : s.Stands m (.storing x key)) :
    s.phase = .storing x key := by
  have place := stands.place
  unfold Phase.place? at place
  split at place <;> cases place
  assumption

theorem Stands.not_resuming {s : Session} : ¬s.Stands m (.resuming x key) := by
  intro stands
  have place := stands.place
  unfold Phase.place? at place
  split at place <;> cases place

theorem Course.kept {s : Session}
    (course : Course m p (before ++ .clock (.looked x (some key)) :: after) m' q)
    (stands : s.Stands m' q) : Kept m before after x key s := by
  obtain ⟨m₁, p₁, _, second⟩ := course.split
  cases second with
  | cons move course =>
    cases move
    obtain ⟨idle, rfl⟩ | ⟨quiet, deed, rest, _, _, _, rfl, silent, move, later⟩ := course.next_deed
    · exact .inl ⟨idle, stands.phase_of_storing⟩
    · cases move with
      | lost =>
        exact .inr (.inl (by rw [deeds_split, silent, later.of_ended.2, List.nil_append]))
      | retaken =>
        obtain ⟨_, rfl⟩ | ⟨quiet', deed, rest, _, _, _, rfl, silent', move, _⟩ := later.next_deed
        · exact absurd stands Stands.not_resuming
        · cases move
          refine .inr (.inr ⟨quiet ++ .clock (.locked false) :: quiet', .ok .executed, rest,
            by simp, ?_, ?_⟩)
          · rw [deeds_split, silent, silent', List.nil_append]
          · have stored := get_resumed m (before ++ .clock (.looked x (some key)) ::
              (quiet ++ .clock (.locked false) :: quiet')) x key (.ok .executed)
            rwa [List.append_assoc, List.cons_append] at stored

/-- A run returns with the stop flag up and for the reason that its last deed gives. It does
nothing after a deed that settles the result, and takes at most three turns more to return it. A
key that was found is stored first. With the flag up from the start the clock leaves the machine
alone. -/
theorem clock_outcome {s : Session} (reachable : s.machine.Reachable)
    (starting : s.phase = .starting) (events : List Event) :
    (∀ result, (s.run events).phase = .returned result →
      (s.run events).stop = true ∧ Explains s.machine (s.story events) result) ∧
    (∀ before deed after result, s.story events = before ++ .clock deed :: after →
      deed.result? = some result →
        deeds after = [] ∧ ∀ more : List Event, 3 ≤ more.count .clock →
          ((s.run events).run more).phase = .returned result) ∧
    (∀ before after x key, s.story events = before ++ .clock (.looked x (some key)) :: after →
      Kept s.machine before after x key (s.run events)) ∧
    (s.stop = true →
      (∀ entry ∈ s.story events, entry = .clock (.checked true) ∨ ∃ action, entry = .host action) ∧
        s.machine.Undisturbed (s.run events).machine ∧
        (3 ≤ events.count .clock → (s.run events).phase = .returned (.ok ()))) := by
  obtain ⟨m, q, course, stands⟩ := exists_course reachable starting events
  refine ⟨?_, ?_, ?_, ?_⟩
  · intro result returned
    have place := stands.place
    rw [returned] at place
    cases place
    have stopped := stands
    rw [Stands, returned] at stopped
    exact ⟨stopped.2.2, course.explains⟩
  · intro before deed after result split settles
    rw [split] at course
    obtain ⟨rfl, idle⟩ := course.settled settles
    obtain ⟨left, soon, leaves⟩ := stands.leaves
    exact ⟨idle, fun more enough => leaves.returned_of_count (Nat.le_trans soon enough)⟩
  · intro before after x key split
    rw [split] at course
    exact course.kept stands
  · intro stopped
    have leaves : s.Leaves (.ok ()) 3 := by
      rw [Leaves, starting]
      exact ⟨stopped, rfl, rfl⟩
    have heedless := leaves.of_mem_story events
    refine ⟨heedless, ?_, leaves.returned_of_count⟩
    rw [stands.machine_eq (leaves.run events).free]
    refine course.undisturbed fun entry present => ?_
    obtain rfl | ⟨action, rfl⟩ := heedless entry present <;> rfl

deriving instance DecidableEq for Phase

-- The flag is raised during a wait, and a key pressed before the clock looks again.
def lateKey : List Event :=
  List.replicate 8 .clock ++
    [.host .stop, .host (.keys (.press 4)), .clock, .clock, .clock, .clock]

theorem late_key_outcome :
    (awaitingKey.run lateKey).machine.store.v.get v0 = 4 ∧
      (awaitingKey.run lateKey).phase = .returned (.ok ()) ∧
      Explains awaitingKey.machine (awaitingKey.story lateKey) (.ok ()) := by
  have returned : (awaitingKey.run lateKey).phase = .returned (.ok ()) := by decide +kernel
  have outcome := clock_outcome (s := awaitingKey) (reachable_loaded [0xF0, 0x0A] []) rfl lateKey
  exact ⟨by decide +kernel, returned, (outcome.1 _ returned).2⟩

end Session

end Chip8
