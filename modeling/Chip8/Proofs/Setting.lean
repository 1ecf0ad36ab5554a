import Chip8.Proofs.Countdown

set_option autoImplicit false

namespace Chip8.Countdown

variable {c next : Countdown} {d d' : Driver} {earlier : List Driver} {k n : Nat} {event : Event}
  {v : UInt8} {ticks : List Nat}

variable (c) in
def Uncalled (events : List Event) : Prop :=
  ∀ before v after, events = before ++ .set v :: after → (c.run before).call ≠ .idle

theorem Uncalled.tail {rest : List Event} (uncalled : c.Uncalled (event :: rest)) :
    (c.react event).Uncalled rest :=
  fun before v after split => uncalled (event :: before) v after (congrArg (event :: ·) split)

/-- Where a call that stores `v` stands, or what it has left behind. Before it there were `n`
drivers. -/
inductive Serving (v : UInt8) (n : Nat) (c : Countdown) : Prop where
  | pending
    (call : c.call = .cancelling v ∨ c.call = .joining v ∨ c.call = .storing v ∨
      c.call = .spawning v)
    (count : c.drivers.length = n)
  | cleared (call : c.call = .idle) (zero : v = 0) (value : c.value = 0) (free : c.held = false)
    (count : c.drivers.length = n)
  | counting (call : c.call = .idle) (nonzero : v ≠ 0) (held : c.held = true) (own : Driver)
    (earlier : List Driver) (newest : c.drivers = own :: earlier) (start : own.start = v)
    (count : earlier.length = n)

theorem Serving.advanceCall (sound : c.Sound) (serving : c.Serving v n) :
    c.advanceCall.Serving v n := by
  have fits := sound.fits
  have still := serving
  cases serving with
  | cleared call | counting call =>
    rw [Countdown.advanceCall]
    simp only [call]
    exact still
  | pending call count =>
    rw [Countdown.advanceCall]
    rcases call with call | call | call | call <;> rw [call] at fits <;> simp only [call]
    · by_cases held : c.held = true
      · rw [if_pos held]
        refine .pending (.inr (.inl rfl)) ?_
        simpa [cancelNewest] using count
      · rw [if_neg held]
        exact .pending (.inr (.inr (.inl rfl))) count
    · split
      · exact .pending (.inr (.inr (.inl rfl))) count
      · exact .pending (.inr (.inl call)) count
    · by_cases zero : v = 0
      · rw [if_pos zero]
        exact .cleared rfl zero zero fits count
      · rw [if_neg zero]
        exact .pending (.inr (.inr (.inr rfl))) count
    · exact .counting rfl fits.2.2 rfl _ _ rfl rfl count

theorem Serving.reacted (sound : c.Sound) (serving : c.Serving v n)
    (uncalled : ∀ w, event = .set w → c.call ≠ .idle) (reacted : c.Reacted event next) :
    next.Serving v n := by
  cases reacted with
  | idled => exact serving
  | called idle => exact absurd idle (uncalled _ rfl)
  | advanced => exact serving.advanceCall sound
  | @acted _ k d d' value found acts =>
    obtain ⟨_, rfl, held, newest, _⟩ := sound.newest found acts.unfinished
    -- Whoever acts is held, so after a call that has cleared the value it is nobody.
    cases serving with
    | pending call count => exact .pending call (List.length_set.trans count)
    | cleared _ _ _ free =>
      rw [held] at free
      contradiction
    | counting call nonzero _ own earlier newest' start count =>
      rw [newest'] at newest
      cases newest
      have replaced := congrArg (List.set · 0 d') newest'
      exact .counting call nonzero held _ _ replaced (acts.start.trans start) count

theorem Serving.run {events : List Event} (sound : c.Sound) (serving : c.Serving v n)
    (uncalled : c.Uncalled events) : (c.run events).Serving v n := by
  induction events generalizing c with
  | nil => exact serving
  | cons event rest ih =>
    have reacted := c.reacted event
    have here (w : UInt8) (call : event = .set w) : c.call ≠ .idle :=
      uncalled [] w rest (congrArg (· :: rest) call)
    exact ih (sound.reacted reacted) (serving.reacted sound here reacted) uncalled.tail

structure Served (v : UInt8) (n : Nat) (c : Countdown) : Prop where
  zero : v = 0 → c.value = 0 ∧ c.drivers.length = n ∧ ∀ d ∈ c.drivers, d.isFinished = true
  counting : v ≠ 0 → ∃ own earlier, c.drivers = own :: earlier ∧ earlier.length = n ∧
    own.start = v ∧ own.ticks ≤ v.toNat ∧ c.value.toNat = v.toNat - own.ticks ∧
    ∀ d ∈ earlier, d.isFinished = true

theorem Serving.served (sound : c.Sound) (serving : c.Serving v n) (idle : c.call = .idle) :
    c.Served v n := by
  have done {drivers : List Driver} (gone : ∀ d ∈ drivers, d.phase = .finished) :
      ∀ d ∈ drivers, d.isFinished = true :=
    fun d present => decide_eq_true (gone d present)
  cases serving with
  | pending call =>
    rw [idle] at call
    simp at call
  | cleared _ zero value free count =>
    have gone := done (sound.manned.gone free)
    exact ⟨fun _ => ⟨value, count, gone⟩, fun nonzero => absurd zero nonzero⟩
  | counting _ nonzero held own earlier newest start count =>
    refine ⟨fun zero => absurd zero nonzero, fun _ => ⟨own, earlier, newest, count, start, ?_⟩⟩
    obtain ⟨own', earlier', newest', accounts, gone⟩ := sound.manned.newest held
    rw [newest] at newest'
    cases newest'
    have left := accounts.left
    rw [start] at left
    exact ⟨by omega, by omega, done gone⟩

theorem Sound.served {rest : List Event} (sound : c.Sound) (idle : c.call = .idle)
    (uncalled : (c.react (.set v)).Uncalled rest)
    (returned : ((c.react (.set v)).run rest).call = .idle) :
    ((c.react (.set v)).run rest).Served v c.drivers.length := by
  have begun := sound.reacted (c.reacted (.set v))
  have serving : (c.react (.set v)).Serving v c.drivers.length := by
    rw [react, if_pos idle]
    exact .pending (.inl rfl) rfl
  exact (serving.run begun uncalled).served (begun.run rest) returned

def Settled (ticks : List Nat) (drivers : List Driver) : Prop :=
  ∃ recent past, drivers = recent ++ past ∧ past.map Driver.ticks = ticks ∧ ∀ d ∈ past, ¬d.Counts

-- A driver that is itself among the oldest has to stay out of its loop.
theorem Settled.replaced (settled : Settled ticks (d :: earlier))
    (out : ¬d.Counts → d'.ticks = d.ticks ∧ ¬d'.Counts) : Settled ticks (d' :: earlier) := by
  obtain ⟨recent, past, split, same, left⟩ := settled
  cases recent with
  | nil =>
    rw [List.nil_append] at split
    subst split
    obtain ⟨kept, still⟩ := out (left d List.mem_cons_self)
    refine ⟨[], d' :: earlier, rfl, ?_, ?_⟩
    · rw [← same, List.map_cons, List.map_cons, kept]
    · exact List.forall_mem_cons.2 ⟨still, (List.forall_mem_cons.1 left).2⟩
  | cons newest recent =>
    cases split
    exact ⟨d' :: recent, past, rfl, same, left⟩

theorem Settled.cons (settled : Settled ticks earlier) : Settled ticks (d :: earlier) := by
  obtain ⟨recent, past, rfl, rest⟩ := settled
  exact ⟨d :: recent, past, rfl, rest⟩

theorem Settled.advanceCall (settled : Settled ticks c.drivers) :
    Settled ticks c.advanceCall.drivers := by
  rw [Countdown.advanceCall]
  split
  case h_2 =>
    split
    · rw [cancelNewest]
      cases drivers : c.drivers with
      | nil =>
        rw [drivers] at settled
        exact settled
      | cons newest earlier =>
        rw [drivers] at settled
        exact settled.replaced fun out => ⟨rfl, out⟩
    · exact settled
  case h_3 => split <;> exact settled
  case h_5 => exact settled.cons
  all_goals exact settled

theorem Settled.reacted (sound : c.Sound) (settled : Settled ticks c.drivers)
    (reacted : c.Reacted event next) : Settled ticks next.drivers := by
  cases reacted with
  | idled | called => exact settled
  | advanced => exact settled.advanceCall
  | @acted _ k d d' value found acts =>
    obtain ⟨earlier, rfl, _, newest, _⟩ := sound.newest found acts.unfinished
    simp only [newest, List.set_cons_zero]
    rw [newest] at settled
    refine settled.replaced fun out => ?_
    cases acts with
    | timeout waiting | notice waiting => exact absurd (.inl waiting) out
    | decrement ticking => exact absurd (.inr ticking) out
    | finish => exact ⟨rfl, by simp [Driver.Counts]⟩

theorem Settled.run (sound : c.Sound) (settled : Settled ticks c.drivers) (events : List Event) :
    Settled ticks (c.run events).drivers := by
  induction events generalizing c with
  | nil => exact settled
  | cons event rest ih =>
    have reacted := c.reacted event
    exact ih (sound.reacted reacted) (settled.reacted sound reacted)

theorem Sound.ticks_final (sound : c.Sound) (out : ∀ d ∈ c.drivers, ¬d.Counts)
    (rest : List Event) :
    c.drivers.map Driver.ticks <:+ (c.run rest).drivers.map Driver.ticks := by
  have settled : Settled (c.drivers.map Driver.ticks) c.drivers := ⟨[], _, rfl, rfl, out⟩
  obtain ⟨recent, past, split, same, _⟩ := settled.run sound rest
  rw [split, List.map_append, same]
  exact List.suffix_append _ _

theorem uncalled_of_forall {events : List Event} (silent : ∀ event ∈ events, ∀ v, event ≠ .set v) :
    c.Uncalled events := by
  rintro before v after rfl
  exact absurd rfl (silent (.set v) (by simp) v)

theorem Reacted.call_eq (reacted : c.Reacted event next) (uncalled : ∀ v, event ≠ .set v)
    (driver : event ≠ .caller) : next.call = c.call := by
  cases reacted with
  | idled | acted => rfl
  | called => exact absurd rfl (uncalled _)
  | advanced => exact absurd rfl driver

def Call.left : Call → Nat
  | .idle => 0
  | .spawning _ => 1
  | .storing _ => 2
  | .joining _ => 3
  | .cancelling _ => 4

theorem left_advanceCall (free : ∀ v, c.call = .joining v → c.newestFinished = true) :
    c.advanceCall.call.left ≤ c.call.left - 1 := by
  cases call : c.call with
  | idle | spawning => simp [Countdown.advanceCall, call, Call.left]
  | cancelling | storing =>
    simp only [Countdown.advanceCall, call]
    split <;> simp [Call.left]
  | joining v => simp [Countdown.advanceCall, call, free v call, Call.left]

theorem Call.left_le (call : Call) : call.left ≤ 4 := by
  cases call <;> simp [Call.left]

theorem Call.idle_of_left {call : Call} (done : call.left = 0) : call = .idle := by
  cases call with
  | idle => rfl
  | _ => cases done

-- However far a cancelled driver has come, it finishes without another timeout.
def windUp : List Event := [.decrement 0, .notice 0, .finish 0]

theorem Sound.finished_windUp (sound : c.Sound) (call : c.call = .joining v) :
    (c.run windUp).newestFinished = true := by
  have fits := sound.fits
  rw [call] at fits
  obtain ⟨⟨start, ticks, cancelled, phase⟩, earlier, newest, _⟩ := sound.manned.newest fits.1
  have told : cancelled = true := fits.2 _ (by rw [newest]; rfl)
  by_cases zero : c.value - 1 = 0 <;> cases phase <;>
    simp [Countdown.run, windUp, react, decrement, newest, told, zero, newestFinished,
      Driver.isFinished]

theorem call_windUp (c : Countdown) : (c.run windUp).call = c.call := by
  have decrement := (c.reacted (.decrement 0)).call_eq (by simp) (by simp)
  have notice := ((c.react (.decrement 0)).reacted (.notice 0)).call_eq (by simp) (by simp)
  have finish := (((c.react (.decrement 0)).react (.notice 0)).reacted (.finish 0)).call_eq
    (by simp) (by simp)
  exact finish.trans (notice.trans decrement)

theorem left_advanceCall_of_le (few : c.call.left ≤ 2) :
    c.advanceCall.call.left ≤ c.call.left - 1 :=
  left_advanceCall fun v call => by simp [call, Call.left] at few

theorem call_of_left_le (few : c.call.left ≤ 3)
    (free : ∀ v, c.call = .joining v → c.newestFinished = true) :
    (c.run [.caller, .caller, .caller]).call = .idle := by
  have joined := left_advanceCall free
  have stored := left_advanceCall_of_le (c := c.advanceCall) (by omega)
  have spawned := left_advanceCall_of_le (c := c.advanceCall.advanceCall) (by omega)
  have done : c.advanceCall.advanceCall.advanceCall.call.left = 0 := by omega
  exact Call.idle_of_left done

def windDown : List Event := .caller :: windUp ++ [.caller, .caller, .caller]

theorem Sound.completes (sound : c.Sound) :
    c.Uncalled windDown ∧ (c.run windDown).call = .idle := by
  refine ⟨uncalled_of_forall (by simp [windDown, windUp]), ?_⟩
  have told : c.advanceCall.call.left ≤ 3 := by
    by_cases joining : ∃ v, c.call = .joining v
    · obtain ⟨v, call⟩ := joining
      simp only [Countdown.advanceCall, call]
      split <;> simp [Call.left, call]
    · have fewer := left_advanceCall fun v call => absurd ⟨v, call⟩ joining
      have most := c.call.left_le
      omega
  have kept := call_windUp c.advanceCall
  rw [windDown, run_append]
  refine call_of_left_le (c := c.advanceCall.run windUp) (kept ▸ told) fun v call => ?_
  exact sound.advanceCall.finished_windUp (kept.symm.trans call)

theorem not_counts_of_finished (finished : d.phase = .finished) : ¬d.Counts := by
  simp [Driver.Counts, finished]

theorem react_decrement (found : c.drivers[k]? = some d) (ticking : d.phase = .ticking) :
    c.react (.decrement k) = c.decrement k d := by
  rw [react]
  simp only [found]
  exact if_pos ticking

theorem Sound.out_of_storing (sound : c.Sound) (call : c.call = .storing v) :
    ∀ d ∈ c.drivers, ¬d.Counts := by
  have fits := sound.fits
  rw [call] at fits
  exact fun d present => not_counts_of_finished (sound.manned.gone fits d present)

theorem Sound.out_of_zero (sound : c.Sound) (found : c.drivers[k]? = some d)
    (ticking : d.phase = .ticking) (zero : (c.react (.decrement k)).value = 0) :
    ∀ d ∈ (c.react (.decrement k)).drivers, ¬d.Counts := by
  obtain ⟨earlier, rfl, _, newest, _, gone⟩ := sound.newest found (by simp [ticking])
  rw [react_decrement found ticking] at zero ⊢
  have last : c.value - 1 = 0 := zero
  simp only [decrement, newest, List.set_cons_zero, last]
  refine List.forall_mem_cons.2 ⟨by simp [Driver.Counts], ?_⟩
  exact fun d present => not_counts_of_finished (gone d present)

/-- Whatever calls are made and however caller and drivers take turns, only one driver is at work,
and none lowers a value that is not its own. -/
theorem Reachable.counts_down (reachable : c.Reachable) :
    c.drivers.countP (fun d => !d.isFinished) ≤ 1 ∧
    (∀ (k : Nat) (d : Driver), c.drivers[k]? = some d → d.phase = .ticking →
      1 ≤ c.value.toNat ∧ (c.react (.decrement k)).value.toNat + 1 = c.value.toNat ∧
        ∃ d' : Driver, (c.react (.decrement k)).drivers[k]? = some d' ∧ d'.ticks = d.ticks + 1) ∧
    (∀ event, (c.react event).value ≠ c.value →
      (∃ v, event = .caller ∧ c.call = .storing v ∧ (c.react event).value = v) ∨
      ∃ k d, event = .decrement k ∧ c.drivers[k]? = some d ∧ d.phase = .ticking ∧
        1 ≤ c.value.toNat ∧ (c.react event).value.toNat + 1 = c.value.toNat) ∧
    (∀ v rest, c.call = .idle → (c.react (.set v)).Uncalled rest →
      ((c.react (.set v)).run rest).call = .idle →
      ((c.react (.set v)).run rest).Served v c.drivers.length) ∧
    (∃ rest, c.Uncalled rest ∧ (c.run rest).call = .idle) ∧
    (∀ v rest, c.call = .storing v →
      c.drivers.map Driver.ticks <:+ (c.run rest).drivers.map Driver.ticks) ∧
    ∀ (k : Nat) (d : Driver) (rest : List Event), c.drivers[k]? = some d → d.phase = .ticking →
      (c.react (.decrement k)).value = 0 →
      (c.react (.decrement k)).drivers.map Driver.ticks <:+
        ((c.react (.decrement k)).run rest).drivers.map Driver.ticks := by
  have sound := reachable.sound
  refine ⟨sound.manned.unfinished_le, ?_, ?_, ?_, ⟨windDown, sound.completes⟩, ?_, ?_⟩
  · intro k d found ticking
    obtain ⟨_, _, _, _, accounts, _⟩ := sound.newest found (by simp [ticking])
    have pos := accounts.pos (.inr ticking)
    have bound := (List.getElem?_eq_some_iff.1 found).1
    rw [react_decrement found ticking]
    exact ⟨pos, Driver.toNat_pred pos, _, List.getElem?_set_self bound, rfl⟩
  · exact fun event changed => sound.value_reacted (c.reacted event) changed
  · exact fun v rest idle uncalled returned => sound.served idle uncalled returned
  · exact fun v rest call => sound.ticks_final (sound.out_of_storing call) rest
  · intro k d rest found ticking zero
    have next := sound.reacted (c.reacted (.decrement k))
    exact next.ticks_final (sound.out_of_zero found ticking zero) rest

def racing : Countdown := idle.run [.set 2, .caller, .caller, .caller, .timeout 0]

-- A call during which it still makes that tick, before the new value is stored, and then the first
-- tick of the driver after it.
def race : List Event :=
  [.caller, .decrement 0, .caller, .notice 0, .finish 0, .caller, .caller, .caller, .timeout 0,
    .decrement 0]

theorem race_counts_down :
    racing.Reachable ∧ racing.drivers.map Driver.phase = [.ticking] ∧
      ((racing.react (.set 3)).run race).Served 3 1 ∧
      ((racing.react (.set 3)).run race).value = 2 ∧
      ((racing.react (.set 3)).run race).drivers.map Driver.ticks = [1, 1] := by
  have reachable : racing.Reachable := ⟨_, rfl⟩
  have uncalled : (racing.react (.set 3)).Uncalled race :=
    uncalled_of_forall (by simp [race])
  have served := reachable.counts_down.2.2.2.1 3 race (by decide) uncalled (by decide)
  exact ⟨reachable, by decide, served, by decide, by decide⟩

end Chip8.Countdown
