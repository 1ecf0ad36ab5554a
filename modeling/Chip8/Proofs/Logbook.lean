import Chip8.Proofs.Outcome
import Chip8.Proofs.Return

set_option autoImplicit false

namespace Chip8

open Machine (reachable_loaded)
open Text (hex duration)

namespace Machine

variable (m : Machine)

def awaits? : Option (Fin 16) :=
  match m.fetch with
  | .ok w =>
    if Form.Matches ⟨0xF, .x, 0x0, 0xA⟩ w ∧ m.keypad.first = none then some (Word.x w) else none
  | .error _ => none

def lines : List LogLine :=
  m.trace.toList ++ m.awaits?.toList.map .awaitingKey

inductive Logs : List LogLine → Prop where
  | nothing (h : ∀ w, ¬ m.Fetches w) : Logs []
  | fetched {w : UInt16} (fetched : m.Fetches w) (h : ¬ m.LacksKey w) :
    Logs [.fetched m.store.pc w]
  | awaiting {w : UInt16} (fetched : m.Fetches w) (h : m.LacksKey w) :
    Logs [.fetched m.store.pc w, .awaitingKey (Word.x w)]

variable {m} {w pc : UInt16} {fault : Fault}

theorem lines_of_fetch (fetched : m.fetch = .ok w) :
    m.lines = .fetched m.store.pc w :: m.awaits?.toList.map .awaitingKey := by
  simp [lines, trace, fetched]

theorem lines_of_no_fetch {halt : Halt Fault} (failed : m.fetch = .error halt) : m.lines = [] := by
  simp [lines, trace, awaits?, failed]

theorem logs_lines (m : Machine) : m.Logs m.lines := by
  cases fetched : m.fetch with
  | error =>
    rw [lines_of_no_fetch fetched]
    exact .nothing fun w present => by simp [fetch_eq_ok_iff.2 present] at fetched
  | ok w =>
    have present := fetch_eq_ok_iff.1 fetched
    rw [lines_of_fetch fetched, awaits?, fetched]
    by_cases lacks : m.LacksKey w
    · have logs := Logs.awaiting present lacks
      rw [LacksKey, ← Keypad.first_eq_none_iff] at lacks
      simpa [lacks] using logs
    · have logs := Logs.fetched present lacks
      rw [LacksKey, ← Keypad.first_eq_none_iff] at lacks
      simpa [lacks] using logs

def awaited? : Answer → Option (Fin 16)
  | .ok (.awaitingKey x) => some x
  | _ => none

theorem awaited?_eq_some_iff {answer : Answer} {x : Fin 16} :
    awaited? answer = some x ↔ answer = .ok (.awaitingKey x) := by
  unfold awaited?
  split <;> simp_all

theorem awaits?_eq (room : m.store.stack.depth ≤ 16) : m.awaits? = awaited? m.step.1 := by
  apply Option.ext
  intro x
  rw [awaited?_eq_some_iff, awaits?]
  cases fetched : m.fetch with
  | ok w =>
    rw [(verdict room (fetch_eq_ok_iff.1 fetched)).awaiting, LacksKey, ← Keypad.first_eq_none_iff]
    simp [eq_comm]
  | error => simp [step_of_no_fetch fetched]

theorem lines_of_failed (room : m.store.stack.depth ≤ 16)
    (failed : m.step.1 = .error (.error (.cpu w pc fault))) :
    pc = m.store.pc ∧
      (m.Fetches w ∧ m.lines = [.fetched pc w] ∨ (∀ w, ¬ m.Fetches w) ∧ m.lines = []) := by
  have idle : m.awaits? = none := by rw [awaits?_eq room, failed]; rfl
  have named (w' : UInt16) (fetched : m.Fetches w') : m.lines = [.fetched m.store.pc w'] := by
    simp [lines_of_fetch (fetch_eq_ok_iff.2 fetched), idle]
  have stepped := m.stepped
  generalize m.step = result at *
  cases stepped with
  | beyond far =>
    cases failed
    refine ⟨rfl, .inr ⟨fun w present => ?_, lines_of_no_fetch (fetch_of_beyond far)⟩⟩
    have within := present.lt
    omega
  | unknown fetched =>
    cases failed
    exact ⟨rfl, .inl ⟨fetched, named _ fetched⟩⟩
  | @refused i halt fetched =>
    cases halt with
    | error =>
      cases failed
      exact ⟨rfl, .inl ⟨fetched, named _ fetched⟩⟩
    | trap => cases failed
  | executed => cases failed

end Machine

namespace Session

variable {m m' : Machine} {p q : Place} {s : Session} {result : Result} {told : List LogLine}

def origins (m : Machine) : List Entry → List Machine
  | [] => []
  | entry :: rest =>
    (if entry.isStep then [m] else []) ++ origins (m.performAll entry.command?.toList) rest

def body (m : Machine) (story : List Entry) : List LogLine :=
  (origins m story).flatMap Machine.lines

@[simp] theorem body_nil (m : Machine) : body m [] = [] := rfl

@[simp] theorem body_cons (m : Machine) (entry : Entry) (rest : List Entry) :
    body m (entry :: rest) =
      (if entry.isStep then m.lines else []) ++
        body (m.performAll entry.command?.toList) rest := by
  cases step : entry.isStep <;> simp [body, origins, step]

theorem body_append (m : Machine) (before after : List Entry) :
    body m (before ++ after) = body m before ++ body (m.performAll (commands before)) after := by
  induction before generalizing m with
  | nil => rfl
  | cons entry rest ih =>
    have split : commands (entry :: rest) = entry.command?.toList ++ commands rest :=
      commands_append [entry] rest
    simp [ih, split, Machine.performAll_append]

theorem body_of_no_deeds {story : List Entry} (idle : deeds story = []) : body m story = [] := by
  induction story generalizing m with
  | nil => rfl
  | cons entry rest ih =>
    cases entry with
    | clock => cases idle
    | host => simpa [Entry.isStep] using ih idle

def report : Result → List LogLine
  | .ok () => []
  | .error failure => [.failed failure]

def Phase.ahead : Phase → List LogLine
  | .executing pc word => [.fetched pc word]
  | .raising failure => [.failed failure]
  | .closing result => report result
  | .returned result => report result ++ [.clockStopped]
  | _ => []

def owed (s : Session) : List LogLine :=
  match s.phase with
  | .starting => [.clockRunning s.period]
  | .announcing x => [.awaitingKey x]
  | _ => []

/-- The log tells `told`, once it has made up what it owes and but for what it is ahead with. -/
def Tells (s : Session) (told : List LogLine) : Prop :=
  s.log ++ s.owed = told ++ s.phase.ahead

def nextLines (s : Session) : List LogLine :=
  match s.phase with
  | .starting => [.clockRunning s.period]
  | .fetching => s.machine.trace.toList
  | .announcing x => [.awaitingKey x]
  | .reporting failure => [.failed failure]
  | .closing _ => [.clockStopped]
  | _ => []

theorem log_advance (s : Session) : s.advance.log = s.log ++ s.nextLines := by
  obtain ⟨machine, stop, poisoned, period, phase, logged⟩ := s
  cases phase with
  | fetching =>
    cases fetched : machine.fetch <;>
      simp [Session.advance, nextLines, Machine.trace, log, note, goto, fetched]
  | executing | waiting =>
    simp only [Session.advance, nextLines]
    split <;> simp [log, goto]
  | storing =>
    simp only [Session.advance, nextLines]
    split
    · simp [log, goto]
    · split <;> simp [log]
  | _ => simp [Session.advance, nextLines, log, note, goto]

theorem body_nextDeeds (free : s.phase.holdsMachine = false) :
    body m (s.nextDeeds.map .clock) = [] := by
  obtain ⟨machine, stop, poisoned, period, phase, logged⟩ := s
  cases phase with
  | fetching | executing => cases free
  | waiting _ wait => cases wait <;> simp [nextDeeds, Entry.isStep]
  | storing => cases poisoned <;> simp [nextDeeds, Entry.isStep]
  | _ => simp [nextDeeds, Entry.isStep]

theorem Tells.advance_free (free : s.phase.holdsMachine = false) (tells : s.Tells told) :
    s.advance.Tells told := by
  rw [Tells, log_advance]
  rw [Tells] at tells
  obtain ⟨machine, stop, poisoned, period, phase, logged⟩ := s
  generalize log _ = written at *
  cases phase with
  | fetching | executing => cases free
  | closing =>
    simp only [owed, Phase.ahead, List.append_nil] at tells
    simp [owed, Session.advance, note, goto, Phase.ahead, nextLines, tells]
  | checking =>
    cases stop <;>
      simpa [owed, Session.advance, goto, nextLines, Phase.ahead, report] using tells
  | locking =>
    cases poisoned <;> simpa [owed, Session.advance, goto, nextLines, Phase.ahead] using tells
  | waiting x wait =>
    simp only [Session.advance, nextLines]
    split <;> simpa [goto, owed, Phase.ahead, report] using tells
  | storing x key =>
    simp only [Session.advance, nextLines, Machine.resume_of_nibble]
    split <;> simpa [goto, owed, Phase.ahead] using tells
  | starting | announcing | reporting | raising | returned | trapped =>
    simpa [owed, Session.advance, note, goto, nextLines, Phase.ahead, report] using tells

theorem Tells.advance (room : m.store.stack.depth ≤ 16) (stands : s.Stands m p)
    (tells : s.Tells told) : s.advance.Tells (told ++ body m (s.nextDeeds.map .clock)) := by
  cases free : s.phase.holdsMachine with
  | false =>
    rw [body_nextDeeds free, List.append_nil]
    exact tells.advance_free free
  | true =>
    rw [Tells, log_advance]
    rw [Tells] at tells
    obtain ⟨machine, stop, poisoned, period, phase, logged⟩ := s
    generalize log _ = written at *
    cases phase with
    | fetching =>
      obtain ⟨rfl, rfl⟩ := stands
      simp only [Session.advance, nextDeeds, nextLines, Machine.trace]
      cases fetched : machine.fetch with
      | ok w => simpa [note, owed, Phase.ahead] using tells
      | error halt =>
        have silent := Machine.lines_of_no_fetch fetched
        cases halt <;>
          simpa [goto, owed, Halt.map, Phase.ofHalt, Phase.ahead, silent] using tells
    | executing pc word =>
      obtain ⟨rfl, rfl, rfl, fetched⟩ := stands
      have lines := Machine.lines_of_fetch fetched
      rw [Machine.awaits?_eq room] at lines
      simp only [owed, Phase.ahead, List.append_nil] at tells
      simp only [nextDeeds, Session.advance, nextLines, ← Machine.step_of_fetch fetched]
      rcases step : m.step with ⟨answer, next⟩
      rw [step] at lines
      -- What is told of the step is what the log was ahead with, and a wait to be announced.
      cases answer with
      | ok progress =>
        cases progress <;>
          simp [tells, lines, Machine.awaited?, owed, Phase.ahead, Entry.isStep]
      | error halt =>
        cases halt <;>
          simp [tells, lines, Machine.awaited?, owed, Phase.ahead, Phase.ofHalt, Entry.isStep]
    | _ => cases free

theorem Tells.act (tells : s.Tells told) (action : HostAction) : (s.act action).Tells told := by
  unfold Session.act
  split
  · exact tells
  · cases action <;> exact tells

theorem Tells.react (room : m.store.stack.depth ≤ 16) (stands : s.Stands m p)
    (tells : s.Tells told) (event : Event) :
    (s.react event).Tells (told ++ body m (s.entries event)) := by
  cases event with
  | clock => exact tells.advance room stands
  | host action =>
    have idle : body m (s.entries (.host action)) = [] := by
      simp only [entries]
      split <;> simp [Entry.isStep]
    rw [idle, List.append_nil]
    exact tells.act action

theorem Tells.run (sound : m.Sound) (stands : s.Stands m p) (tells : s.Tells told)
    (events : List Event) : (s.run events).Tells (told ++ body m (s.story events)) := by
  induction events generalizing s m p told with
  | nil => simpa [Session.run, story] using tells
  | cons event rest ih =>
    obtain ⟨m', p', first, stands'⟩ := stands.react sound event
    have later := ih (first.sound sound) stands' (tells.react sound.stack.depth stands event)
    rw [first.machine, List.append_assoc, ← body_append] at later
    exact later

theorem exists_lines (before after : List Entry) (answer : Answer) :
    ∃ lines, (m.performAll (commands before)).Logs lines ∧
      body m (before ++ .clock (.stepped answer) :: after) =
        body m before ++ lines ++ body (m.performAll (commands before ++ [.step])) after := by
  refine ⟨_, Machine.logs_lines _, ?_⟩
  simp [body_append, Entry.isStep, Entry.command?, Machine.performAll_append]

theorem filter_body {level : String} {pick : Machine → Option LogLine}
    (picks : ∀ m, (Machine.lines m).filter (·.level == level) = (pick m).toList) (m : Machine)
    (story : List Entry) :
    (body m story).filter (·.level == level) = (origins m story).filterMap pick := by
  induction story generalizing m with
  | nil => rfl
  | cons entry rest ih =>
    cases step : entry.isStep
    · simp [origins, step, ih]
    · cases picked : pick m <;> simp [origins, step, ih, picks, picked]

theorem filter_outline {level : String} (other : level ≠ "INFO") (period : Nat)
    (told : List LogLine) (result : Result) :
    (LogLine.clockRunning period :: (told ++ report result ++ [.clockStopped])).filter
        (·.level == level) =
      told.filter (·.level == level) ++ (report result).filter (·.level == level) := by
  simp [LogLine.level, other.symm]

theorem filter_trace (m : Machine) : m.lines.filter (·.level == "TRACE") = m.trace.toList := by
  cases fetched : m.fetch with
  | ok => cases m.awaits? <;> simp [Machine.lines, Machine.trace, fetched, LogLine.level]
  | error => simp [Machine.lines_of_no_fetch fetched, Machine.trace, fetched]

theorem filter_debug (m : Machine) :
    m.lines.filter (·.level == "DEBUG") = (m.awaits?.map .awaitingKey).toList := by
  cases fetched : m.fetch with
  | ok =>
    rw [Machine.lines_of_fetch fetched]
    cases m.awaits? <;> simp [LogLine.level]
  | error => simp [Machine.lines_of_no_fetch fetched, Machine.awaits?, fetched]

-- A level on which neither the clock nor a failure writes has only what the steps tell.
theorem filter_lines {level : String} {pick : Machine → Option LogLine} (info : level ≠ "INFO")
    (error : level ≠ "ERROR")
    (picks : ∀ m, (Machine.lines m).filter (·.level == level) = (pick m).toList) (m : Machine)
    (period : Nat) (story : List Entry) (result : Result) :
    (LogLine.clockRunning period :: (body m story ++ report result ++ [.clockStopped])).filter
        (·.level == level) = (origins m story).filterMap pick := by
  rw [filter_outline info, filter_body picks]
  cases result <;> simp [report, LogLine.level, error.symm]

theorem filter_other {level : String} (trace : level ≠ "TRACE") (debug : level ≠ "DEBUG")
    (m : Machine) (story : List Entry) : (body m story).filter (·.level == level) = [] := by
  refine List.filter_eq_nil_iff.2 fun line present => ?_
  obtain ⟨origin, _, told⟩ := List.mem_flatMap.1 present
  have logs := origin.logs_lines
  generalize origin.lines = lines at *
  cases logs with
  | nothing => cases told
  | fetched | awaiting =>
    simp only [List.mem_cons, List.not_mem_nil, or_false] at told
    rcases told with rfl | rfl <;> simp [LogLine.level, trace.symm, debug.symm]

theorem text_trace (m : Machine) :
    m.trace.map LogLine.text =
      m.fetch.toOption.map fun w => "0x" ++ hex 3 m.store.pc.toNat ++ ": " ++ hex 4 w.toNat := by
  unfold Machine.trace
  cases m.fetch <;> rfl

theorem text_awaiting (x? : Option (Fin 16)) :
    (x?.map .awaitingKey).map LogLine.text =
      x?.map fun x => "waiting for a key press for V" ++ hex 1 x := by
  cases x? <;> rfl

def EndsInFailure (m : Machine) (story : List Entry) (w pc : UInt16) (fault : Fault) : Prop :=
  ∃ before after,
    story = before ++ .clock (.stepped (.error (.error (.cpu w pc fault)))) :: after ∧
    deeds after = [] ∧ pc = (m.performAll (commands before)).store.pc ∧
    ((m.performAll (commands before)).Fetches w ∧
        body m story = body m before ++ [.fetched pc w] ∨
      (∀ w, ¬ (m.performAll (commands before)).Fetches w) ∧ body m story = body m before)

theorem Course.ends_in_failure {story : List Entry} {w pc : UInt16} {fault : Fault}
    (sound : m.Sound) (course : Course m .head story m' (.ended (.error (.cpu w pc fault)))) :
    EndsInFailure m story w pc fault := by
  obtain ⟨before, deed, after, m₁, p₁, m₂, rfl, idle, first, last⟩ := course.last_deed (by simp)
  cases last with
  | failed answered =>
    have lines := Machine.lines_of_failed (first.sound sound).stack.depth answered
    rw [first.machine] at lines
    obtain ⟨counter, told⟩ := lines
    refine ⟨before, after, rfl, idle, counter, ?_⟩
    rcases told with ⟨fetched, told⟩ | ⟨silent, told⟩
    · simp [body_append, body_of_no_deeds idle, Entry.isStep, told, fetched]
    · simp [body_append, body_of_no_deeds idle, Entry.isStep, told, silent]

structure Chronicle (m : Machine) (period : Nat) (story : List Entry) (result : Result)
    (log : List LogLine) : Prop where
  outline : log = .clockRunning period :: (body m story ++ report result ++ [.clockStopped])
  step (before after : List Entry) (answer : Answer) :
    story = before ++ .clock (.stepped answer) :: after →
    ∃ lines, (m.performAll (commands before)).Logs lines ∧
      body m story =
        body m before ++ lines ++ body (m.performAll (commands before ++ [.step])) after
  traces : log.filter (·.level == "TRACE") = (origins m story).filterMap Machine.trace
  traceTexts : (log.filter (·.level == "TRACE")).map LogLine.text =
    (origins m story).filterMap fun origin => origin.fetch.toOption.map fun w =>
      "0x" ++ hex 3 origin.store.pc.toNat ++ ": " ++ hex 4 w.toNat
  waits : log.filter (·.level == "DEBUG") =
    (origins m story).filterMap fun origin => origin.awaits?.map .awaitingKey
  waitTexts : (log.filter (·.level == "DEBUG")).map LogLine.text =
    (origins m story).filterMap fun origin => origin.awaits?.map fun x =>
      "waiting for a key press for V" ++ hex 1 x
  clockTexts : (log.filter (·.level == "INFO")).map LogLine.text =
    ["instruction clock running at " ++ duration period ++ " per tick",
      "instruction clock stopped"]
  succeeded : result = .ok () → log.filter (·.level == "ERROR") = []
  failed (failure : Failure) : result = .error failure →
    (log.filter (·.level == "ERROR")).map LogLine.text = [failure.message]
  last (w pc : UInt16) (fault : Fault) : result = .error (.cpu w pc fault) →
    EndsInFailure m story w pc fault

theorem Course.chronicle {story : List Entry} (sound : m.Sound)
    (course : Course m .head story m' (.ended result)) (period : Nat) :
    Chronicle m period story result
      (.clockRunning period :: (body m story ++ report result ++ [.clockStopped])) where
  outline := rfl
  step before after answer split := by
    subst split
    exact exists_lines before after answer
  traces := filter_lines (by simp) (by simp) filter_trace m period story result
  traceTexts := by
    rw [filter_lines (by simp) (by simp) filter_trace]
    simp only [List.map_filterMap, text_trace]
  waits := filter_lines (by simp) (by simp) filter_debug m period story result
  waitTexts := by
    rw [filter_lines (by simp) (by simp) filter_debug]
    simp only [List.map_filterMap, text_awaiting]
  clockTexts := by
    have told : (body m story).filter (·.level == "INFO") = [] :=
      filter_other (by simp) (by simp) m story
    cases result <;>
    · simp only [report, List.filter_cons, List.filter_append, told]
      rfl
  succeeded ended := by
    rw [filter_outline (by simp), filter_other (by simp) (by simp), ended]
    rfl
  failed failure ended := by
    subst ended
    rw [filter_outline (by simp), filter_other (by simp) (by simp)]
    rfl
  last w pc fault ended := by
    subst ended
    exact course.ends_in_failure sound

/-- However clock and host take turns, the log of a run that returns is what its steps and its
result give to tell. -/
theorem clock_log_is_faithful (reachable : s.machine.Reachable) (starting : s.phase = .starting)
    {events : List Event} (returned : (s.run events).phase = .returned result) :
    ∃ lines, (s.run events).log = s.log ++ lines ∧
      Chronicle s.machine s.period (s.story events) result lines := by
  obtain ⟨m, q, course, ended⟩ := exists_course reachable starting events
  have tells : s.Tells (s.log ++ [.clockRunning s.period]) := by
    simp [Tells, owed, starting, Phase.ahead]
  have told := tells.run reachable.sound (stands_of_starting starting) events
  have place := ended.place
  rw [returned] at place
  cases place
  refine ⟨_, ?_, course.chronicle reachable.sound s.period⟩
  simpa [Tells, owed, returned, Phase.ahead] using told

-- A key is pressed during the wait, and nothing that could be executed follows.
def answeredWait : List Event :=
  List.replicate 8 .clock ++ .host (.keys (.press 4)) :: List.replicate 10 .clock

theorem unread_word_is_logged :
    (awaitingKey.run answeredWait).phase =
        .returned (.error (.cpu 0 0x202 .unknownInstruction)) ∧
      (awaitingKey.run answeredWait).log =
        [.clockRunning 2000000, .fetched 0x200 0xF00A, .awaitingKey v0, .fetched 0x202 0,
          .failed (.cpu 0 0x202 .unknownInstruction), .clockStopped] ∧
      Chronicle awaitingKey.machine 2000000 (awaitingKey.story answeredWait)
        (.error (.cpu 0 0x202 .unknownInstruction)) (awaitingKey.run answeredWait).log := by
  have returned : (awaitingKey.run answeredWait).phase =
      .returned (.error (.cpu 0 0x202 .unknownInstruction)) := by decide +kernel
  obtain ⟨lines, log, chronicle⟩ :=
    clock_log_is_faithful (s := awaitingKey) (reachable_loaded [0xF0, 0x0A] []) rfl returned
  refine ⟨returned, by decide +kernel, ?_⟩
  rw [log]
  exact chronicle

end Session

end Chip8
