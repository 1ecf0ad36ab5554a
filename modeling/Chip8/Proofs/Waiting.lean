import Chip8.KeyWait
import Chip8.Proofs.Keypad

set_option autoImplicit false

namespace Chip8.SharedWait

variable {s : SharedWait} {event : Event} {events : List Event} {answer : Option (Fin 16)}

def Decides (s : SharedWait) : Option (Fin 16) → Prop
  | some key => s.wait = .looking ∧ s.keypad.Lowest key
  | none => s.wait = .asking ∧ (∀ code, s.keypad.isDown code = false) ∧ s.stop = true

structure FindsNothing (s : SharedWait) : Prop where
  look : s.wait = .looking → ∀ code, s.keypad.isDown code = false
  question : s.wait = .asking → s.stop = false

theorem FindsNothing.not_decides (nothing : s.FindsNothing) : ¬ s.Decides answer := by
  intro decides
  cases answer with
  | some key =>
    obtain ⟨looking, held, _⟩ := decides
    rw [nothing.look looking] at held
    contradiction
  | none =>
    obtain ⟨asking, _, up⟩ := decides
    rw [nothing.question asking] at up
    contradiction

-- The keypad belongs to the waiter from a look that found no key to the question that follows.
def Attentive (s : SharedWait) : Prop :=
  s.wait = .asking → s.keypad.first = none

theorem attentive_start (keypad : Keypad) (stop : Bool) : (start keypad stop).Attentive :=
  fun asking => by cases asking

theorem Attentive.react (attentive : s.Attentive) (event : Event) : (s.react event).Attentive := by
  obtain ⟨keypad, stop, wait⟩ := s
  cases event with
  | stop => exact attentive
  | keys command =>
    cases wait with
    | asking => exact attentive
    | looking | ended => exact fun asking => by cases asking
  | waiter =>
    cases wait with
    | asking => cases stop <;> exact fun asking => by cases asking
    | ended => exact fun asking => by cases asking
    | looking =>
      cases first : keypad.first with
      | none => exact fun _ => first
      | some key =>
        intro asking
        simp [SharedWait.react, KeyWait.advance, first] at asking

theorem Attentive.run (attentive : s.Attentive) (events : List Event) :
    (s.run events).Attentive := by
  induction events generalizing s with
  | nil => exact attentive
  | cons event rest ih => exact ih (attentive.react event)

theorem react_ended (ended : s.wait = .ended answer) (event : Event) :
    (s.react event).wait = .ended answer := by
  cases event with
  | stop => exact ended
  | keys command => simp [react, ended, KeyWait.holdsKeypad]
  | waiter => simp [react, ended, KeyWait.advance]

theorem run_ended (ended : s.wait = .ended answer) (events : List Event) :
    (s.run events).wait = .ended answer := by
  induction events generalizing s with
  | nil => exact ended
  | cons event rest ih => exact ih (react_ended ended event)

theorem wait_of_others (other : event ≠ .waiter) : (s.react event).wait = s.wait := by
  cases event with
  | waiter => contradiction
  | stop => rfl
  | keys command =>
    simp only [react]
    split <;> rfl

theorem ends_iff_decides (attentive : s.Attentive) (unfinished : ∀ answer, s.wait ≠ .ended answer) :
    (s.react .waiter).wait = .ended answer ↔ s.Decides answer := by
  obtain ⟨keypad, stop, wait⟩ := s
  cases wait with
  | ended past => exact absurd rfl (unfinished past)
  | looking =>
    cases first : keypad.first with
    | none =>
      have free := Keypad.first_eq_none_iff.1 first
      cases answer <;> simp [react, KeyWait.advance, first, Decides, Keypad.Lowest, free]
    | some found =>
      cases answer with
      | none => simp [react, KeyWait.advance, first, Decides]
      | some key =>
        simp [react, KeyWait.advance, first, Decides, ← Keypad.first_eq_some_iff]
  | asking =>
    have free := Keypad.first_eq_none_iff.1 (attentive rfl)
    cases answer <;> cases stop <;> simp [react, KeyWait.advance, Decides, free]

theorem exists_decides (attentive : s.Attentive) (unfinished : ∀ answer, s.wait ≠ .ended answer)
    (ended : (s.run events).wait = .ended answer) :
    ∃ before after, events = before ++ .waiter :: after ∧ (s.run before).Decides answer := by
  induction events generalizing s with
  | nil => exact absurd ended (unfinished answer)
  | cons event rest ih =>
    by_cases finished : ∃ last, (s.react event).wait = .ended last
    · obtain ⟨last, done⟩ := finished
      -- What has ended keeps its answer, so this is the action that decided.
      have kept : (s.run (event :: rest)).wait = .ended last := run_ended done rest
      obtain rfl : last = answer := KeyWait.ended.inj (kept.symm.trans ended)
      by_cases acts : event = .waiter
      · subst acts
        exact ⟨[], rest, rfl, (ends_iff_decides attentive unfinished).1 done⟩
      · exact absurd ((wait_of_others acts).symm.trans done) (unfinished last)
    · obtain ⟨before, after, split, decides⟩ :=
        ih (attentive.react event) (not_exists.1 finished) ended
      exact ⟨event :: before, after, congrArg (event :: ·) split, decides⟩

theorem ended_of_decides {before after : List Event} (attentive : (s.run before).Attentive)
    (decides : (s.run before).Decides answer) :
    (s.run (before ++ .waiter :: after)).wait = .ended answer := by
  have unfinished (past : Option (Fin 16)) : (s.run before).wait ≠ .ended past := by
    intro ended
    cases answer <;> simp [Decides, ended] at decides
  rw [run_append]
  exact run_ended ((ends_iff_decides attentive unfinished).2 decides) after

-- What an event does to the keys. A command that finds the keypad taken has to come again.
def Event.entering (s : SharedWait) : Event → List KeyCommand
  | .keys command => if s.wait.holdsKeypad then [] else [command]
  | .waiter | .stop => []

def entered : SharedWait → List Event → List KeyCommand
  | _, [] => []
  | s, event :: rest => event.entering s ++ entered (s.react event) rest

theorem keypad_react (s : SharedWait) (event : Event) :
    (s.react event).keypad = s.keypad.performAll (event.entering s) := by
  cases event with
  | waiter | stop => rfl
  | keys command =>
    simp only [react, Event.entering]
    split <;> rfl

theorem keypad_run (s : SharedWait) (events : List Event) :
    (s.run events).keypad = s.keypad.performAll (s.entered events) := by
  induction events generalizing s with
  | nil => rfl
  | cons event rest ih =>
    have next : s.run (event :: rest) = (s.react event).run rest := rfl
    rw [next, ih, keypad_react, entered, Keypad.performAll, Keypad.performAll, Keypad.performAll,
      List.foldl_append]

theorem wait_run_of_others (others : .waiter ∉ events) : (s.run events).wait = s.wait := by
  induction events generalizing s with
  | nil => rfl
  | cons event rest ih =>
    obtain ⟨first, later⟩ := not_or.1 (mt List.mem_cons.2 others)
    exact (ih later).trans (wait_of_others (Ne.symm first))

/-- A wait ends exactly by a check that decides it, and with what that check found; while no check
decides it goes on. The waiter leaves the keys alone, and takes one that it finds held at its first
look without having slept, even with the flag up. -/
theorem wait_ends_by_a_check (keypad : Keypad) (stop : Bool) (events : List Event) :
    (∀ answer, ((start keypad stop).run events).wait = .ended answer ↔
      ∃ before after, events = before ++ .waiter :: after ∧
        ((start keypad stop).run before).Decides answer) ∧
    ((∀ before after, events = before ++ .waiter :: after →
        ((start keypad stop).run before).FindsNothing) →
      ∀ answer, ((start keypad stop).run events).wait ≠ .ended answer) ∧
    ((start keypad stop).run events).keypad =
      keypad.performAll ((start keypad stop).entered events) ∧
    (∀ before after, events = before ++ .waiter :: after →
      ((start keypad stop).run (before ++ [.waiter])).keypad =
        ((start keypad stop).run before).keypad) ∧
    ∀ others rest code, events = others ++ .waiter :: rest → .waiter ∉ others →
      keypad.isDown code = true → ((start keypad stop).run others).keypad.isDown code = true →
      ∃ key, ((start keypad stop).run others).keypad.Lowest key ∧
        ((start keypad stop).run (others ++ [.waiter])).wait = .ended (some key) := by
  have attentive := (attentive_start keypad stop).run
  have ends (answer : Option (Fin 16)) : ((start keypad stop).run events).wait = .ended answer ↔
      ∃ before after, events = before ++ .waiter :: after ∧
        ((start keypad stop).run before).Decides answer := by
    constructor
    · exact exists_decides (attentive_start keypad stop) (fun _ ended => by cases ended)
    · rintro ⟨before, after, rfl, decides⟩
      exact ended_of_decides (attentive before) decides
  refine ⟨ends, ?_, keypad_run _ _, ?_, ?_⟩
  · intro nothing answer ended
    obtain ⟨before, after, split, decides⟩ := (ends answer).1 ended
    exact (nothing before after split).not_decides decides
  · intro before after _
    rw [run_append]
    rfl
  · intro others rest code _ idle _ held
    obtain ⟨key, lowest⟩ := Keypad.exists_lowest held
    have looking : ((start keypad stop).run others).wait = .looking := wait_run_of_others idle
    exact ⟨key, lowest, ended_of_decides (attentive others) ⟨looking, lowest⟩⟩

theorem keys_win_over_flag :
    (∃ before after, [.waiter, .waiter, .stop, .keys (.replace [9, 4, 0x40]), .waiter] =
        before ++ .waiter :: after ∧ ((start .empty false).run before).Decides (some 4)) ∧
      ∃ key, ((start (.ofCodes [5, 9]) true).run [.keys (.release 9)]).keypad.Lowest key ∧
        ((start (.ofCodes [5, 9]) true).run [.keys (.release 9), .waiter]).wait =
          .ended (some key) := by
  constructor
  · exact ((wait_ends_by_a_check .empty false _).1 (some 4)).1 (by decide)
  · obtain ⟨_, _, _, _, atOnce⟩ :=
      wait_ends_by_a_check (.ofCodes [5, 9]) true [.keys (.release 9), .waiter]
    exact atOnce [.keys (.release 9)] [] 5 rfl (by decide) (by decide) (by decide)

end Chip8.SharedWait
