import Chip8.Proofs.Footprint
import Chip8.Proofs.Story

set_option autoImplicit false

namespace Chip8

namespace Machine

theorem step_of_fetch {m : Machine} {word : UInt16} (fetched : m.fetch = .ok word) :
    m.step = m.advance.executeWord m.store.pc word := by
  rw [step, fetched]

theorem step_of_no_fetch {m : Machine} {halt : Halt Fault} (failed : m.fetch = .error halt) :
    m.step = (.error (halt.map (.cpu 0 m.store.pc)), m) := by
  rw [step, failed]

theorem resume_of_nibble (m : Machine) (x : Fin 16) (key : UInt8) :
    m.resume x key = (.ok (), { m with store.v := m.store.v.set x key x.isLt }) := by
  rw [resume, Store.writeRegister, dif_pos x.isLt]

end Machine

namespace Session

inductive Place where
  | head
  | entered
  | stepping
  | waiting (x : Fin 16)
  | asking (x : Fin 16)
  | storing (x key : Fin 16)
  | resuming (x key : Fin 16)
  | ended (result : Result)

inductive Move : Machine → Place → Entry → Machine → Place → Prop where
  | host {m : Machine} {p : Place} {action : HostAction} :
    Move m p (.host action) (m.performAll action.command?.toList) p
  | entered {m : Machine} : Move m .head (.clock (.checked false)) m .entered
  | stopped {m : Machine} : Move m .head (.clock (.checked true)) m (.ended (.ok ()))
  | taken {m : Machine} : Move m .entered (.clock (.locked false)) m .stepping
  | refused {m : Machine} :
    Move m .entered (.clock (.locked true)) m (.ended (.error (.poison poisonText)))
  | executed {m : Machine} (h : m.step.1 = .ok .executed) :
    Move m .stepping (.clock (.stepped (.ok .executed))) m.step.2 .head
  | awaiting {m : Machine} {x : Fin 16} (h : m.step.1 = .ok (.awaitingKey x)) :
    Move m .stepping (.clock (.stepped (.ok (.awaitingKey x)))) m.step.2 (.waiting x)
  | failed {m : Machine} {failure : Failure} (h : m.step.1 = .error (.error failure)) :
    Move m .stepping (.clock (.stepped (.error (.error failure)))) m.step.2
      (.ended (.error failure))
  | found {m : Machine} {x key : Fin 16} (h : m.keypad.first = some key) :
    Move m (.waiting x) (.clock (.looked x (some key))) m (.storing x key)
  | missed {m : Machine} {x : Fin 16} (h : m.keypad.first = none) :
    Move m (.waiting x) (.clock (.looked x none)) m (.asking x)
  | again {m : Machine} {x : Fin 16} : Move m (.asking x) (.clock (.asked false)) m (.waiting x)
  | interrupted {m : Machine} {x : Fin 16} (h : m.keypad.first = none) :
    Move m (.asking x) (.clock (.asked true)) m (.ended (.ok ()))
  | retaken {m : Machine} {x key : Fin 16} :
    Move m (.storing x key) (.clock (.locked false)) m (.resuming x key)
  | lost {m : Machine} {x key : Fin 16} :
    Move m (.storing x key) (.clock (.locked true)) m (.ended (.error (.poison poisonText)))
  | resumed {m : Machine} {x key : Fin 16} :
    Move m (.resuming x key) (.clock (.resumed x key (.ok .executed)))
      (m.perform (.resume x (UInt8.ofNat key))).2 .head

inductive Course : Machine → Place → List Entry → Machine → Place → Prop where
  | nil {m : Machine} {p : Place} : Course m p [] m p
  | cons {m m' m'' : Machine} {p p' q : Place} {entry : Entry} {rest : List Entry} :
    Move m p entry m' p' → Course m' p' rest m'' q → Course m p (entry :: rest) m'' q

variable {m m' m'' : Machine} {p p' q : Place} {entry : Entry} {story before after : List Entry}

theorem Course.append (first : Course m p before m' p') (second : Course m' p' after m'' q) :
    Course m p (before ++ after) m'' q := by
  induction first with
  | nil => exact second
  | cons move _ ih => exact .cons move (ih second)

theorem Course.split (course : Course m p (before ++ after) m'' q) :
    ∃ m' p', Course m p before m' p' ∧ Course m' p' after m'' q := by
  induction before generalizing m p with
  | nil => exact ⟨m, p, .nil, course⟩
  | cons entry rest ih =>
    cases course with
    | cons move course =>
      obtain ⟨m', p', first, second⟩ := ih course
      exact ⟨m', p', .cons move first, second⟩

theorem Move.machine (move : Move m p entry m' q) : m' = m.performAll entry.command?.toList := by
  cases move <;> rfl

theorem Course.machine (course : Course m p story m' q) : m' = m.performAll (commands story) := by
  induction course with
  | nil => rfl
  | @cons m _ _ _ _ _ entry rest move _ ih =>
    have split : commands (entry :: rest) = entry.command?.toList ++ commands rest :=
      commands_append [entry] rest
    rw [split, Machine.performAll_append, ← move.machine]
    exact ih

theorem Course.sound (course : Course m p story m' q) (sound : m.Sound) : m'.Sound := by
  rw [course.machine]
  exact sound.performAll _

theorem Course.of_ended {result : Result} (course : Course m (.ended result) story m' q) :
    q = .ended result ∧ deeds story = [] := by
  induction story generalizing m with
  | nil =>
    cases course
    exact ⟨rfl, rfl⟩
  | cons entry rest ih =>
    cases course with
    | cons move course =>
      cases move
      exact ih course

def Quiet (story : List Entry) : Prop :=
  ∀ entry ∈ story, entry.isTransition = false

theorem quiet_nil : Quiet [] :=
  List.forall_mem_nil _

theorem Quiet.cons (idle : entry.isTransition = false) (quiet : Quiet story) :
    Quiet (entry :: story) :=
  List.forall_mem_cons.2 ⟨idle, quiet⟩

theorem quiet_of_no_deeds (idle : deeds story = []) : Quiet story := by
  intro entry present
  have none := List.filterMap_eq_nil_iff.1 idle entry present
  cases entry with
  | clock => cases none
  | host => rfl

theorem Move.undisturbed (move : Move m p entry m' q) (quiet : entry.isTransition = false) :
    m.Undisturbed m' := by
  cases move with
  | @host _ action =>
    cases action with
    | tick timer => exact m.undisturbed_tick timer
    | _ => exact ⟨rfl, rfl, rfl, rfl, rfl, rfl, rfl⟩
  | executed | awaiting | failed | resumed => cases quiet
  | _ => exact .refl m

theorem Course.undisturbed (course : Course m p story m' q) (quiet : Quiet story) :
    m.Undisturbed m' := by
  induction course with
  | nil => exact .refl _
  | cons move _ ih =>
    obtain ⟨first, others⟩ := List.forall_mem_cons.1 quiet
    exact (move.undisturbed first).trans (ih others)

/-- What a session has in hand while the sequence of whole moves has come to `m` and `p`. Between
fetch and execution the program counter is ahead of that. -/
def Stands (s : Session) (m : Machine) (p : Place) : Prop :=
  match s.phase with
  | .starting | .checking => p = .head ∧ s.machine = m
  | .locking => p = .entered ∧ s.machine = m
  | .fetching => p = .stepping ∧ s.machine = m
  | .executing pc word =>
    p = .stepping ∧ s.machine = m.advance ∧ pc = m.store.pc ∧ m.fetch = .ok word
  | .announcing x | .waiting x .looking => p = .waiting x ∧ s.machine = m
  | .waiting x .asking => p = .asking x ∧ s.machine = m ∧ m.keypad.first = none
  | .storing x key => p = .storing x key ∧ s.machine = m
  | .reporting failure | .raising failure => p = .ended (.error failure) ∧ s.machine = m
  | .closing result | .returned result => p = .ended result ∧ s.machine = m ∧ s.stop = true
  | .waiting _ (.ended _) | .trapped _ => False

def Phase.place? : Phase → Option Place
  | .starting | .checking => some .head
  | .locking => some .entered
  | .fetching | .executing .. => some .stepping
  | .announcing x | .waiting x .looking => some (.waiting x)
  | .waiting x .asking => some (.asking x)
  | .storing x key => some (.storing x key)
  | .reporting failure | .raising failure => some (.ended (.error failure))
  | .closing result | .returned result => some (.ended result)
  | .waiting _ (.ended _) | .trapped _ => none

theorem Stands.place {s : Session} (stands : s.Stands m p) : s.phase.place? = some p := by
  obtain ⟨_, _, _, _, phase, _⟩ := s
  cases phase with
  | waiting _ wait =>
    cases wait with
    | ended => exact stands.elim
    | _ => exact congrArg some stands.1.symm
  | trapped => exact stands.elim
  | _ => exact congrArg some stands.1.symm

theorem Stands.machine_eq {s : Session} (stands : s.Stands m p)
    (free : s.phase.holdsMachine = false) : s.machine = m := by
  obtain ⟨_, _, _, _, phase, _⟩ := s
  cases phase with
  | fetching | executing => cases free
  | waiting x wait =>
    cases wait with
    | looking => exact stands.2
    | asking => exact stands.2.1
    | ended => exact stands.elim
  | closing | returned => exact stands.2.1
  | trapped => exact stands.elim
  | starting | checking | locking | announcing | storing | reporting | raising => exact stands.2

theorem Stands.advance {s : Session} (sound : m.Sound) (stands : s.Stands m p) :
    ∃ m' q, Course m p (s.nextDeeds.map .clock) m' q ∧ s.advance.Stands m' q := by
  obtain ⟨machine, stop, poisoned, period, phase, logged⟩ := s
  cases phase with
  | starting =>
    obtain ⟨rfl, rfl⟩ := stands
    exact ⟨_, _, .nil, rfl, rfl⟩
  | checking =>
    obtain ⟨rfl, rfl⟩ := stands
    cases stop with
    | false => exact ⟨_, _, .cons .entered .nil, rfl, rfl⟩
    | true => exact ⟨_, _, .cons .stopped .nil, rfl, rfl, rfl⟩
  | locking =>
    obtain ⟨rfl, rfl⟩ := stands
    cases poisoned with
    | false => exact ⟨_, _, .cons .taken .nil, rfl, rfl⟩
    | true => exact ⟨_, _, .cons .refused .nil, rfl, rfl⟩
  | fetching =>
    obtain ⟨rfl, rfl⟩ := stands
    simp only [nextDeeds, Session.advance]
    cases fetched : machine.fetch with
    | ok word => exact ⟨machine, .stepping, .nil, rfl, rfl, rfl, fetched⟩
    | error halt =>
      -- Without a word the step is over before it is executed.
      have step := Machine.step_of_no_fetch fetched
      have failed := congrArg Prod.fst step
      cases halt with
      | trap t => exact absurd failed (sound.step_ne_trap t)
      | error fault =>
        have move := Move.failed failed
        rw [step] at move ⊢
        exact ⟨_, _, .cons move .nil, rfl, rfl⟩
  | executing pc word =>
    obtain ⟨rfl, rfl, rfl, fetched⟩ := stands
    simp only [nextDeeds, Session.advance, ← Machine.step_of_fetch fetched]
    rcases step : m.step with ⟨answer, next⟩
    have answered := congrArg Prod.fst step
    cases answer with
    | ok progress =>
      cases progress with
      | executed =>
        have move := Move.executed answered
        rw [step] at move
        exact ⟨_, _, .cons move .nil, rfl, rfl⟩
      | awaitingKey x =>
        have move := Move.awaiting answered
        rw [step] at move
        exact ⟨_, _, .cons move .nil, rfl, rfl⟩
    | error halt =>
      cases halt with
      | trap t => exact absurd answered (sound.step_ne_trap t)
      | error failure =>
        have move := Move.failed answered
        rw [step] at move
        exact ⟨_, _, .cons move .nil, rfl, rfl⟩
  | announcing x =>
    obtain ⟨rfl, rfl⟩ := stands
    exact ⟨_, _, .nil, rfl, rfl⟩
  | waiting x wait =>
    cases wait with
    | looking =>
      obtain ⟨rfl, rfl⟩ := stands
      simp only [nextDeeds, Session.advance, KeyWait.advance]
      cases first : machine.keypad.first with
      | none => exact ⟨_, _, .cons (.missed first) .nil, rfl, rfl, first⟩
      | some key => exact ⟨_, _, .cons (.found first) .nil, rfl, rfl⟩
    | asking =>
      obtain ⟨rfl, rfl, free⟩ := stands
      cases stop with
      | false => exact ⟨_, _, .cons .again .nil, rfl, rfl⟩
      | true => exact ⟨_, _, .cons (.interrupted free) .nil, rfl, rfl, rfl⟩
    | ended => exact stands.elim
  | storing x key =>
    obtain ⟨rfl, rfl⟩ := stands
    cases poisoned with
    | true => exact ⟨_, _, .cons .lost .nil, rfl, rfl⟩
    | false =>
      have resume := Machine.resume_of_nibble machine x (UInt8.ofNat key)
      have move : Move machine (.resuming x key) _ _ _ := .resumed
      simp only [nextDeeds, Session.advance, Machine.perform, resume] at move ⊢
      exact ⟨_, _, .cons .retaken (.cons move .nil), rfl, rfl⟩
  | reporting | returned =>
    exact ⟨_, _, .nil, stands⟩
  | raising =>
    obtain ⟨rfl, rfl⟩ := stands
    exact ⟨_, _, .nil, rfl, rfl, rfl⟩
  | closing => exact ⟨_, _, .nil, stands⟩
  | trapped => exact stands.elim

-- What the host does to the machine commutes with a fetch, and leaves the keys to a waiter that
-- holds them.
theorem Stands.change {s : Session} {f : Machine → Machine} {stop poisoned : Bool}
    (stands : s.Stands m p) (raised : s.stop = true → stop = true)
    (ahead : ∀ m, f m.advance = (f m).advance) (counter : ∀ m, (f m).store.pc = m.store.pc)
    (fetch : ∀ m, (f m).fetch = m.fetch)
    (keypad : s.phase.holdsKeypad = true → ∀ m, (f m).keypad = m.keypad) :
    Stands { s with machine := f s.machine, stop, poisoned } (f m) p := by
  obtain ⟨_, _, _, _, phase, _⟩ := s
  cases phase with
  | executing =>
    obtain ⟨rfl, rfl, rfl, fetched⟩ := stands
    exact ⟨rfl, ahead m, (counter m).symm, (fetch m).trans fetched⟩
  | waiting x wait =>
    cases wait with
    | looking =>
      obtain ⟨rfl, rfl⟩ := stands
      exact ⟨rfl, rfl⟩
    | asking =>
      obtain ⟨rfl, rfl, free⟩ := stands
      exact ⟨rfl, rfl, by rw [keypad rfl, free]⟩
    | ended => exact stands.elim
  | closing | returned =>
    obtain ⟨rfl, rfl, stopped⟩ := stands
    exact ⟨rfl, rfl, raised stopped⟩
  | trapped => exact stands.elim
  | starting | checking | locking | fetching | announcing | storing | reporting | raising =>
    obtain ⟨rfl, rfl⟩ := stands
    exact ⟨rfl, rfl⟩

theorem Stands.act {s : Session} (stands : s.Stands m p) (action : HostAction) :
    ∃ m', Course m p (s.entries (.host action)) m' p ∧ (s.act action).Stands m' p := by
  by_cases blocked : s.blocks action = true
  · simp only [entries, Session.act, if_pos blocked]
    exact ⟨m, .nil, stands⟩
  · simp only [entries, Session.act, if_neg blocked]
    refine ⟨_, .cons .host .nil, ?_⟩
    cases action with
    | keys command =>
      exact stands.change (f := fun m => { m with keypad := m.keypad.perform command }) id
        (fun _ => rfl) (fun _ => rfl) (fun _ => rfl) fun held => absurd held blocked
    | tick timer =>
      cases timer <;>
        exact stands.change (f := fun m => { m with store := m.store.tick _ }) id
          (fun _ => rfl) (fun _ => rfl) (fun _ => rfl) fun _ _ => rfl
    | stop =>
      exact stands.change (f := id) (fun _ => rfl) (fun _ => rfl) (fun _ => rfl) (fun _ => rfl)
        fun _ _ => rfl
    | poison =>
      exact stands.change (f := id) id (fun _ => rfl) (fun _ => rfl) (fun _ => rfl) fun _ _ => rfl

theorem Stands.react {s : Session} (sound : m.Sound) (stands : s.Stands m p) (event : Event) :
    ∃ m' q, Course m p (s.entries event) m' q ∧ (s.react event).Stands m' q := by
  cases event with
  | clock => exact stands.advance sound
  | host action =>
    obtain ⟨m', course, later⟩ := stands.act action
    exact ⟨m', p, course, later⟩

theorem Stands.run {s : Session} (sound : m.Sound) (stands : s.Stands m p) (events : List Event) :
    ∃ m' q, Course m p (s.story events) m' q ∧ (s.run events).Stands m' q := by
  induction events generalizing s m p with
  | nil => exact ⟨m, p, .nil, stands⟩
  | cons event rest ih =>
    obtain ⟨m', p', first, stands'⟩ := stands.react sound event
    obtain ⟨m'', q, second, stands''⟩ := ih (first.sound sound) stands'
    exact ⟨m'', q, first.append second, stands''⟩

theorem stands_of_starting {s : Session} (starting : s.phase = .starting) :
    s.Stands s.machine .head := by
  rw [Stands, starting]
  exact ⟨rfl, rfl⟩

theorem exists_course {s : Session} (reachable : s.machine.Reachable)
    (starting : s.phase = .starting) (events : List Event) :
    ∃ m q, Course s.machine .head (s.story events) m q ∧ (s.run events).Stands m q :=
  (stands_of_starting starting).run reachable.sound events

def awaitingKey : Session :=
  ⟨Machine.loaded [0xF0, 0x0A], false, false, periodOfRate 500, .starting, []⟩

end Session

end Chip8
