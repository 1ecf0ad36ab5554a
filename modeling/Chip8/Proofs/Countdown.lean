import Chip8.Countdown

set_option autoImplicit false

namespace Chip8.Countdown

variable {c next : Countdown} {d d' : Driver} {k : Nat} {event : Event} {v value : UInt8}

namespace Driver

def Counts (d : Driver) : Prop :=
  d.phase = .waiting ∨ d.phase = .ticking

inductive Acts (k : Nat) (d : Driver) (value : UInt8) : Event → Driver → UInt8 → Prop where
  | timeout (waiting : d.phase = .waiting) :
    Acts k d value (.timeout k) { d with phase := .ticking } value
  | decrement (ticking : d.phase = .ticking) :
    Acts k d value (.decrement k)
      { d with ticks := d.ticks + 1, phase := if value - 1 = 0 then .leaving else .waiting }
      (value - 1)
  | notice (waiting : d.phase = .waiting) (cancelled : d.cancelled = true) :
    Acts k d value (.notice k) { d with phase := .leaving } value
  | finish (leaving : d.phase = .leaving) :
    Acts k d value (.finish k) { d with phase := .finished } value

theorem Acts.unfinished (acts : d.Acts k value event d' v) : d.phase ≠ .finished := by
  cases acts with
  | timeout h | decrement h | notice h | finish h => simp [h]

theorem Acts.start (acts : d.Acts k value event d' v) : d'.start = d.start := by
  cases acts <;> rfl

theorem Acts.cancelled (acts : d.Acts k value event d' v) : d'.cancelled = d.cancelled := by
  cases acts <;> rfl

structure Accounts (d : Driver) (value : UInt8) : Prop where
  left : value.toNat + d.ticks = d.start.toNat
  pos : d.Counts → 0 < value.toNat

theorem toNat_pred (pos : 0 < value.toNat) : (value - 1).toNat + 1 = value.toNat := by
  have one : (1 : UInt8) ≤ value := UInt8.le_iff_toNat_le.2 pos
  rw [UInt8.toNat_sub_of_le _ _ one]
  exact Nat.sub_add_cancel pos

theorem Accounts.acts (accounts : d.Accounts value) (acts : d.Acts k value event d' v) :
    d'.Accounts v := by
  cases acts with
  | timeout waiting => exact ⟨accounts.left, fun _ => accounts.pos (.inl waiting)⟩
  | decrement ticking =>
    have lowered := toNat_pred (accounts.pos (.inr ticking))
    have left := accounts.left
    refine ⟨by simp only; omega, fun counts => ?_⟩
    by_cases zero : value - 1 = 0
    · simp [Counts, zero] at counts
    · exact Nat.pos_of_ne_zero fun same => zero (UInt8.toNat_inj.1 same)
  | notice | finish =>
    refine ⟨accounts.left, fun counts => ?_⟩
    simp [Counts] at counts

theorem accounts_spawn (nonzero : v ≠ 0) : (Driver.spawn v).Accounts v :=
  ⟨rfl, fun _ => Nat.pos_of_ne_zero fun same => nonzero (UInt8.toNat_inj.1 same)⟩

end Driver

inductive Reacted (c : Countdown) : Event → Countdown → Prop where
  | idled {event : Event} : Reacted c event c
  | called {v : UInt8} (idle : c.call = .idle) :
    Reacted c (.set v) { c with call := .cancelling v }
  | advanced : Reacted c .caller c.advanceCall
  | acted {event : Event} {k : Nat} {d d' : Driver} {value : UInt8}
    (found : c.drivers[k]? = some d) (acts : d.Acts k c.value event d' value) :
    Reacted c event { c with value, drivers := c.drivers.set k d' }

theorem reacted (c : Countdown) (event : Event) : c.Reacted event (c.react event) := by
  cases event with
  | set v =>
    rw [react]
    split
    · next idle => exact .called idle
    · exact .idled
  | caller => exact .advanced
  | timeout k | decrement k | finish k =>
    rw [react]
    split
    · split
      · next found h =>
        refine .acted found ?_
        constructor
        exact h
      · exact .idled
    · exact .idled
  | notice k =>
    rw [react]
    split
    · split
      · next found h => exact .acted found (.notice h.1 h.2)
      · exact .idled
    · exact .idled

/-- Either no driver is held and all have finished, or the newest is held and accounts for the
value, and all the others have finished. -/
inductive Manned (value : UInt8) (drivers : List Driver) (held : Bool) : Prop where
  | released (free : held = false) (gone : ∀ d ∈ drivers, d.phase = .finished)
  | held (own : Driver) (earlier : List Driver) (held : held = true)
    (newest : drivers = own :: earlier) (accounts : own.Accounts value)
    (gone : ∀ d ∈ earlier, d.phase = .finished)

def Fits (c : Countdown) : Call → Prop
  | .idle | .cancelling _ => True
  | .joining _ => c.held = true ∧ ∀ own ∈ c.drivers.head?, own.cancelled = true
  | .storing _ => c.held = false
  | .spawning v => c.held = false ∧ c.value = v ∧ v ≠ 0

structure Sound (c : Countdown) : Prop where
  manned : Manned c.value c.drivers c.held
  fits : c.Fits c.call

theorem sound_idle : idle.Sound :=
  ⟨.released rfl (List.forall_mem_nil _), trivial⟩

theorem Manned.gone {drivers : List Driver} {held : Bool} (manned : Manned value drivers held)
    (free : held = false) : ∀ d ∈ drivers, d.phase = .finished := by
  cases manned with
  | released _ gone => exact gone
  | held _ _ held =>
    rw [held] at free
    contradiction

theorem Manned.newest {drivers : List Driver} {held : Bool} (manned : Manned value drivers held)
    (isHeld : held = true) :
    ∃ own earlier, drivers = own :: earlier ∧ own.Accounts value ∧
      ∀ d ∈ earlier, d.phase = .finished := by
  cases manned with
  | released free =>
    rw [free] at isHeld
    contradiction
  | held own earlier _ newest accounts gone => exact ⟨own, earlier, newest, accounts, gone⟩

theorem Sound.newest (sound : c.Sound) (found : c.drivers[k]? = some d)
    (unfinished : d.phase ≠ .finished) :
    ∃ earlier, k = 0 ∧ c.held = true ∧ c.drivers = d :: earlier ∧ d.Accounts c.value ∧
      ∀ d ∈ earlier, d.phase = .finished := by
  cases sound.manned with
  | released _ gone => exact absurd (gone d (List.mem_of_getElem? found)) unfinished
  | held own earlier held newest accounts gone =>
    rw [newest] at found
    cases k with
    | zero =>
      cases found
      exact ⟨earlier, rfl, held, newest, accounts, gone⟩
    | succ k => exact absurd (gone d (List.mem_of_getElem? found)) unfinished

theorem Sound.acted (sound : c.Sound) (found : c.drivers[k]? = some d)
    (acts : d.Acts k c.value event d' value) :
    Sound { c with value, drivers := c.drivers.set k d' } := by
  obtain ⟨earlier, rfl, held, newest, accounts, gone⟩ := sound.newest found acts.unfinished
  have replaced : c.drivers.set 0 d' = d' :: earlier := by rw [newest, List.set_cons_zero]
  refine ⟨.held d' earlier held replaced (accounts.acts acts) gone, ?_⟩
  -- A call that has still to spawn holds no driver, and one that joins has told its driver so.
  have fits := sound.fits
  change Fits _ c.call
  cases call : c.call <;> rw [call] at fits
  case joining =>
    refine ⟨held, fun own newest' => ?_⟩
    simp only [replaced, List.head?_cons, Option.mem_some_iff] at newest'
    rw [← newest', acts.cancelled]
    exact fits.2 d (by rw [newest]; rfl)
  case spawning =>
    rw [fits.1] at held
    contradiction
  all_goals exact fits

theorem Sound.advanceCall (sound : c.Sound) : c.advanceCall.Sound := by
  have manned := sound.manned
  have fits := sound.fits
  rw [Countdown.advanceCall]
  split
  case h_1 => exact sound
  case h_2 =>
    by_cases isHeld : c.held = true
    · obtain ⟨own, earlier, newest, accounts, gone⟩ := manned.newest isHeld
      simp only [if_pos isHeld, cancelNewest, newest, List.modifyHead_cons]
      refine ⟨.held _ earlier isHeld rfl ⟨accounts.left, accounts.pos⟩ gone, isHeld, ?_⟩
      rintro _ ⟨rfl⟩
      rfl
    · rw [if_neg isHeld]
      exact ⟨manned, eq_false_of_ne_true isHeld⟩
  case h_3 call =>
    split
    · next finished =>
      refine ⟨.released rfl ?_, rfl⟩
      cases manned with
      | released _ gone => exact gone
      | held own earlier _ newest _ gone =>
        rw [newestFinished, newest] at finished
        rw [newest]
        refine List.forall_mem_cons.2 ⟨?_, gone⟩
        simpa [Driver.isFinished] using finished
    · exact sound
  case h_4 v call =>
    rw [call] at fits
    have gone := manned.gone fits
    by_cases zero : v = 0
    · rw [if_pos zero]
      exact ⟨.released fits gone, trivial⟩
    · rw [if_neg zero]
      exact ⟨.released fits gone, fits, rfl, zero⟩
  case h_5 v call =>
    rw [call] at fits
    obtain ⟨free, rfl, nonzero⟩ := fits
    exact ⟨.held _ _ rfl rfl (Driver.accounts_spawn nonzero) (manned.gone free), trivial⟩

theorem Sound.reacted (sound : c.Sound) (reacted : c.Reacted event next) : next.Sound := by
  cases reacted with
  | idled => exact sound
  | called => exact ⟨sound.manned, trivial⟩
  | advanced => exact sound.advanceCall
  | acted found acts => exact sound.acted found acts

theorem Sound.run (sound : c.Sound) (events : List Event) : (c.run events).Sound := by
  induction events generalizing c with
  | nil => exact sound
  | cons event rest ih => exact ih (sound.reacted (c.reacted event))

def Reachable (c : Countdown) : Prop :=
  ∃ events, idle.run events = c

theorem Reachable.sound (reachable : c.Reachable) : c.Sound := by
  obtain ⟨events, rfl⟩ := reachable
  exact sound_idle.run events

theorem Manned.unfinished_le {drivers : List Driver} {held : Bool}
    (manned : Manned value drivers held) : drivers.countP (fun d => !d.isFinished) ≤ 1 := by
  have zero {drivers : List Driver} (gone : ∀ d ∈ drivers, d.phase = .finished) :
      drivers.countP (fun d => !d.isFinished) = 0 := by
    rw [List.countP_eq_zero]
    intro d present
    simp [Driver.isFinished, gone d present]
  cases manned with
  | released _ gone => exact Nat.le_trans (Nat.le_of_eq (zero gone)) (Nat.zero_le 1)
  | held own earlier _ newest _ gone =>
    rw [newest, List.countP_cons, zero gone]
    split <;> omega

theorem Sound.value_reacted (sound : c.Sound) (reacted : c.Reacted event next)
    (changed : next.value ≠ c.value) :
    (∃ v, event = .caller ∧ c.call = .storing v ∧ next.value = v) ∨
    ∃ k d, event = .decrement k ∧ c.drivers[k]? = some d ∧ d.phase = .ticking ∧
      1 ≤ c.value.toNat ∧ next.value.toNat + 1 = c.value.toNat := by
  cases reacted with
  | idled | called => exact absurd rfl changed
  | advanced =>
    rw [Countdown.advanceCall] at changed ⊢
    split at changed
    case h_4 v call =>
      rw [call]
      exact .inl ⟨v, rfl, rfl, rfl⟩
    case h_2 =>
      split at changed <;> exact absurd rfl changed
    case h_3 =>
      split at changed <;> exact absurd rfl changed
    all_goals exact absurd rfl changed
  | acted found acts =>
    obtain ⟨_, _, _, _, accounts, _⟩ := sound.newest found acts.unfinished
    cases acts with
    | timeout | notice | finish => exact absurd rfl changed
    | decrement ticking =>
      have pos := accounts.pos (.inr ticking)
      exact .inr ⟨_, _, rfl, found, ticking, pos, Driver.toNat_pred pos⟩

end Chip8.Countdown
