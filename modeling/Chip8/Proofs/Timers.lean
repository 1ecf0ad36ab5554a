import Chip8.Proofs.Footprint
import Chip8.Proofs.Setting
import Mathlib.Logic.Function.Iterate

set_option autoImplicit false

namespace Chip8

theorem Store.timer_tick (s : Store) (ticked timer : Timer) :
    (s.tick ticked).timer timer =
      if ticked = timer then Timer.lowered (s.timer timer) else s.timer timer := by
  cases ticked <;> cases timer <;> rfl

def Command.isIdle : Command → Bool
  | .keys _ | .tick _ => true
  | _ => false

namespace Machine

def Idle (commands : List Command) : Prop :=
  ∀ command ∈ commands, command.isIdle = true

variable {m : Machine} {commands : List Command}

theorem timer_of_idle (idle : Idle commands) (timer : Timer) :
    (m.performAll commands).store.timer timer =
      Timer.lowered^[commands.count (.tick timer)] (m.store.timer timer) := by
  induction commands generalizing m with
  | nil => rfl
  | cons command rest ih =>
    obtain ⟨first, others⟩ := List.forall_mem_cons.1 idle
    have later := ih (m := (m.perform command).2) others
    cases command with
    | keys =>
      rw [List.count_cons_of_ne (by simp)]
      exact later
    | tick ticked =>
      have now : ((m.perform (.tick ticked)).2.store.timer timer) = _ :=
        m.store.timer_tick ticked timer
      rw [now] at later
      by_cases same : ticked = timer
      · rw [same, List.count_cons_self]
        rw [same, if_pos rfl] at later
        exact later
      · rw [List.count_cons_of_ne (by simp [same])]
        rw [if_neg same] at later
        exact later
    | _ => cases first

def ticking (ticks : Timer → Nat) : List Command :=
  List.replicate (ticks .delay) (.tick .delay) ++ List.replicate (ticks .sound) (.tick .sound)

theorem idle_ticking (ticks : Timer → Nat) : Idle (ticking ticks) := by
  intro command present
  rcases List.mem_append.1 present with present | present <;>
  · rw [List.eq_of_mem_replicate present]
    rfl

theorem count_ticking (ticks : Timer → Nat) (timer : Timer) :
    (ticking ticks).count (.tick timer) = ticks timer := by
  cases timer <;> simp [ticking, List.count_append, List.count_replicate]

end Machine

namespace Countdown

variable {c : Countdown} {event : Event} {events : List Event} {v : UInt8} {n : Nat}

theorem lowered_of_pred {value next : UInt8} (pos : 1 ≤ value.toNat)
    (pred : next.toNat + 1 = value.toNat) : next = Timer.lowered value := by
  have nonzero : value ≠ 0 := by
    rintro rfl
    cases pos
  have lowered := Driver.toNat_pred pos
  rw [Timer.lowered, if_neg nonzero, ← UInt8.toNat_inj]
  omega

theorem toNat_lowered_iterate (v : UInt8) (n : Nat) :
    (Timer.lowered^[n] v).toNat = v.toNat - n := by
  induction n generalizing v with
  | zero => rfl
  | succ n ih =>
    rw [Function.iterate_succ_apply, ih]
    by_cases zero : v = 0
    · simp [Timer.lowered, zero]
    · have pos : 0 < v.toNat := Nat.pos_of_ne_zero fun same => zero (UInt8.toNat_inj.1 same)
      have pred := Driver.toNat_pred pos
      rw [Timer.lowered, if_neg zero]
      omega

theorem Served.value_eq (served : c.Served v n) : ∃ count, c.value = Timer.lowered^[count] v := by
  by_cases zero : v = 0
  · exact ⟨0, (served.zero zero).1.trans zero.symm⟩
  · obtain ⟨own, _, _, _, _, _, left, _⟩ := served.counting zero
    exact ⟨own.ticks, UInt8.toNat_inj.1 (left.trans (toNat_lowered_iterate v own.ticks).symm)⟩

structure Rests (c : Countdown) : Prop where
  reachable : c.Reachable
  idle : c.call = .idle

theorem rests_idle : idle.Rests :=
  ⟨⟨[], rfl⟩, rfl⟩

theorem Reachable.run (reachable : c.Reachable) (events : List Event) :
    (c.run events).Reachable := by
  obtain ⟨before, rfl⟩ := reachable
  exact ⟨before ++ events, run_append idle before events⟩

theorem Rests.react (rests : c.Rests) (silent : ∀ w, event ≠ .set w) : (c.react event).Rests := by
  refine ⟨rests.reachable.run [event], ?_⟩
  by_cases caller : event = .caller
  · rw [caller, Countdown.react, advanceCall, rests.idle]
    exact rests.idle
  · exact ((c.reacted event).call_eq silent caller).trans rests.idle

theorem Rests.value_react (rests : c.Rests) (event : Event) :
    (c.react event).value = c.value ∨ (c.react event).value = Timer.lowered c.value := by
  refine Classical.or_iff_not_imp_left.2 fun changed => ?_
  rcases rests.reachable.sound.value_reacted (c.reacted event) changed with
    ⟨_, _, storing, _⟩ | ⟨_, _, _, _, _, pos, pred⟩
  · rw [rests.idle] at storing
    contradiction
  · exact lowered_of_pred pos pred

theorem Rests.run (rests : c.Rests) (silent : ∀ event ∈ events, ∀ w, event ≠ .set w) :
    (c.run events).Rests ∧ ∃ count, (c.run events).value = Timer.lowered^[count] c.value := by
  induction events generalizing c with
  | nil => exact ⟨rests, 0, rfl⟩
  | cons event rest ih =>
    obtain ⟨first, others⟩ := List.forall_mem_cons.1 silent
    obtain ⟨rested, count, value⟩ := ih (rests.react first) others
    refine ⟨rested, ?_⟩
    rcases rests.value_react event with kept | lowered
    · rw [kept] at value
      exact ⟨count, value⟩
    · rw [lowered] at value
      exact ⟨count + 1, value⟩

/-- The drivers are left to themselves, or a call comes first and to its end. Either way `v` is what
they start from. -/
def Yields (c : Countdown) (v : UInt8) (events : List Event) : Prop :=
  (c.value = v ∧ ∀ event ∈ events, ∀ w, event ≠ .set w) ∨
  ∃ rest, events = .set v :: rest ∧ (c.react (.set v)).Uncalled rest ∧ (c.run events).call = .idle

theorem Rests.yields (rests : c.Rests) (yields : c.Yields v events) :
    (c.run events).Rests ∧ ∃ count, (c.run events).value = Timer.lowered^[count] v := by
  rcases yields with ⟨rfl, silent⟩ | ⟨rest, rfl, uncalled, returned⟩
  · exact rests.run silent
  · exact ⟨⟨rests.reachable.run _, returned⟩,
      (rests.reachable.sound.served rests.idle uncalled returned).value_eq⟩

end Countdown

abbrev Countdowns := Timer → Countdown

namespace Countdowns

open Machine (Idle ticking idle_ticking count_ticking timer_of_idle)

def react (c : Countdowns) (event : Timer × Countdown.Event) : Countdowns :=
  Function.update c event.1 ((c event.1).react event.2)

def run (c : Countdowns) (events : List (Timer × Countdown.Event)) : Countdowns :=
  events.foldl react c

def own (timer : Timer) (events : List (Timer × Countdown.Event)) : List Countdown.Event :=
  (events.filter fun event => event.1 = timer).map Prod.snd

theorem run_apply (c : Countdowns) (events : List (Timer × Countdown.Event)) (timer : Timer) :
    c.run events timer = (c timer).run (own timer events) := by
  induction events generalizing c with
  | nil => rfl
  | cons event rest ih =>
    have next : c.run (event :: rest) timer = (c.react event).run rest timer := rfl
    rw [next, ih]
    by_cases here : event.1 = timer
    · subst here
      simp [own, react, Countdown.run]
    · simp [own, react, Function.update_of_ne (Ne.symm here), here]

structure Show (c : Countdowns) (m : Machine) : Prop where
  rests (timer : Timer) : (c timer).Rests
  value (timer : Timer) : m.store.timer timer = (c timer).value

/-- Whatever turns the drivers of both timers take, to the machine it is a history of ticks. -/
theorem exists_ticks {c : Countdowns} {m : Machine} {events : List (Timer × Countdown.Event)}
    (rests : ∀ timer, (c timer).Rests)
    (yields : ∀ timer, (c timer).Yields (m.store.timer timer) (own timer events)) :
    ∃ history, Idle history ∧ (c.run events).Show (m.performAll history) := by
  choose ticks lowered using fun timer => ((rests timer).yields (yields timer)).2
  refine ⟨ticking ticks, idle_ticking ticks, fun timer => ?_, fun timer => ?_⟩
  · rw [run_apply]
    exact ((rests timer).yields (yields timer)).1
  · rw [run_apply, timer_of_idle (idle_ticking ticks), count_ticking, lowered]

end Countdowns

end Chip8
