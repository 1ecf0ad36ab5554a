import Chip8.Proofs.CallStack
import Chip8.Proofs.Observation

set_option autoImplicit false

namespace Chip8

inductive Transfer where
  | call (target : UInt16)
  | leave
  | jump (target : UInt16)
  | advance
deriving DecidableEq, Repr

def Transfer.effect : Transfer → Exec Unit
  | .call target => .update (·.call target)
  | .leave => .update Store.leave
  | .jump target => .jump target
  | .advance => .change Store.advance

structure Sight where
  answer : Except (Halt Fault) Unit
  pc : UInt16
  depth : Nat

def Machine.transfer (m : Machine) (t : Transfer) : Sight × Machine :=
  let (answer, next) := t.effect.attempt m
  (⟨answer, next.store.pc, next.store.stack.depth⟩, next)

structure Control where
  pc : UInt16
  returns : List UInt16
deriving DecidableEq, Repr

namespace Control

def after (c : Control) : Transfer → Except (Halt Fault) Unit × Control
  | .call target =>
    if c.returns.length < 16 then (.ok (), ⟨target, c.returns ++ [c.pc]⟩)
    else (.error (.error (.stackOverflow target)), c)
  | .leave =>
    match c.returns.getLast? with
    | some a => (.ok (), ⟨a, c.returns.dropLast⟩)
    | none => (.ok (), c)
  | .jump target => (.ok (), { c with pc := target })
  | .advance => (.ok (), { c with pc := c.pc + 2 })

def transfer (c : Control) (t : Transfer) : Sight × Control :=
  let (answer, next) := c.after t
  (⟨answer, next.pc, next.returns.length⟩, next)

variable {c : Control}

theorem transfer_call_of_room (room : c.returns.length < 16) (target : UInt16) :
    c.transfer (.call target) =
      (⟨.ok (), target, c.returns.length + 1⟩, ⟨target, c.returns ++ [c.pc]⟩) := by
  simp only [transfer, after, if_pos room, List.length_append, List.length_singleton]

theorem transfer_call_of_full (full : 16 ≤ c.returns.length) (target : UInt16) :
    c.transfer (.call target) =
      (⟨.error (.error (.stackOverflow target)), c.pc, c.returns.length⟩, c) := by
  simp only [transfer, after, if_neg (Nat.not_lt.2 full)]

theorem transfer_leave_nil (pc : UInt16) :
    transfer ⟨pc, []⟩ .leave = (⟨.ok (), pc, 0⟩, ⟨pc, []⟩) := rfl

theorem transfer_leave_concat (pc a : UInt16) (below : List UInt16) :
    transfer ⟨pc, below ++ [a]⟩ .leave = (⟨.ok (), a, below.length⟩, ⟨a, below⟩) := by
  simp only [transfer, after, List.getLast?_concat, List.dropLast_concat]

end Control

namespace Machine

variable {m n origin : Machine} {c : Control} {stack : CallStack}

def control (m : Machine) : Control :=
  ⟨m.store.pc, m.store.stack.live⟩

def redirect (m : Machine) (pc : UInt16) (stack : CallStack) : Machine :=
  { m with store := { m.store with pc, stack } }

theorem transfer_call_of_push {target : UInt16}
    (pushed : m.store.stack.push? m.store.pc = some stack) :
    m.transfer (.call target) =
      (⟨.ok (), target, stack.depth⟩, m.redirect target stack) := by
  simp only [transfer, Transfer.effect, Exec.attempt, Exec.update, Store.call, pushed, redirect]

theorem transfer_call_of_full {target : UInt16}
    (full : m.store.stack.push? m.store.pc = none) :
    m.transfer (.call target) =
      (⟨.error (.error (.stackOverflow target)), m.store.pc, m.store.stack.depth⟩, m) := by
  simp only [transfer, Transfer.effect, Exec.attempt, Exec.update, Store.call, full]

theorem transfer_leave_of_pop {a : UInt16} (popped : m.store.stack.pop = .ok (some (a, stack))) :
    m.transfer .leave = (⟨.ok (), a, stack.depth⟩, m.redirect a stack) := by
  simp only [transfer, Transfer.effect, Exec.attempt, Exec.update, Store.leave, popped, redirect]

theorem transfer_leave_of_empty (empty : m.store.stack.pop = .ok none) :
    m.transfer .leave = (⟨.ok (), m.store.pc, m.store.stack.depth⟩, m) := by
  simp only [transfer, Transfer.effect, Exec.attempt, Exec.update, Store.leave, empty]

theorem transfer_leave_of_trap {t : Trap} (trapped : m.store.stack.pop = .error t) :
    m.transfer .leave = (⟨.error (.trap t), m.store.pc, m.store.stack.depth⟩, m) := by
  simp only [transfer, Transfer.effect, Exec.attempt, Exec.update, Store.leave, trapped]

theorem transfer_jump (target : UInt16) :
    m.transfer (.jump target) =
      (⟨.ok (), target, m.store.stack.depth⟩, m.redirect target m.store.stack) := rfl

theorem transfer_advance :
    m.transfer .advance =
      (⟨.ok (), m.store.pc + 2, m.store.stack.depth⟩,
        m.redirect (m.store.pc + 2) m.store.stack) := rfl

theorem eq_of_transfer_failed {t : Transfer} {halt : Halt Fault}
    (failed : (m.transfer t).1.answer = .error halt) : (m.transfer t).2 = m := by
  cases t with
  | jump | advance => cases failed
  | call target =>
    cases pushed : m.store.stack.push? m.store.pc with
    | none => rw [transfer_call_of_full pushed]
    | some stack =>
      rw [transfer_call_of_push pushed] at failed
      cases failed
  | leave =>
    cases popped : m.store.stack.pop with
    | error t => rw [transfer_leave_of_trap popped]
    | ok top =>
      cases top with
      | none => rw [transfer_leave_of_empty popped]
      | some top =>
        rw [transfer_leave_of_pop popped] at failed
        cases failed

structure Tracks (origin m : Machine) (c : Control) : Prop where
  shown : m.control = c
  room : m.store.stack.depth ≤ 16
  frame : m = origin.redirect m.store.pc m.store.stack

theorem Tracks.redirect (tracks : origin.Tracks m c) (pc : UInt16) (room : stack.depth ≤ 16) :
    origin.Tracks (m.redirect pc stack) ⟨pc, stack.live⟩ := by
  refine ⟨rfl, room, ?_⟩
  rw [tracks.frame]
  rfl

theorem Tracks.call (tracks : origin.Tracks m c) (target : UInt16) :
    (m.transfer (.call target)).1 = (c.transfer (.call target)).1 ∧
      origin.Tracks (m.transfer (.call target)).2 (c.transfer (.call target)).2 := by
  obtain rfl := tracks.shown
  have height : m.control.returns.length = m.store.stack.depth :=
    CallStack.length_live _ tracks.room
  rcases Nat.lt_or_ge m.store.stack.depth 16 with room | full
  · obtain ⟨stack, pushed⟩ : ∃ stack, m.store.stack.push? m.store.pc = some stack :=
      ⟨_, CallStack.push?_of_room room _⟩
    have deeper := CallStack.depth_push pushed
    have next := tracks.redirect target (show stack.depth ≤ 16 by omega)
    rw [CallStack.live_push pushed] at next
    rw [transfer_call_of_push pushed, Control.transfer_call_of_room (height ▸ room), height, deeper]
    exact ⟨rfl, next⟩
  · rw [transfer_call_of_full (CallStack.push?_of_full full _),
      Control.transfer_call_of_full (height ▸ full), height]
    exact ⟨rfl, tracks⟩

theorem Tracks.leave (tracks : origin.Tracks m c) :
    (m.transfer .leave).1 = (c.transfer .leave).1 ∧
      origin.Tracks (m.transfer .leave).2 (c.transfer .leave).2 := by
  obtain rfl := tracks.shown
  rcases Nat.eq_zero_or_pos m.store.stack.depth with empty | pos
  · have nothing : m.control = ⟨m.store.pc, []⟩ :=
      congrArg (Control.mk m.store.pc) (CallStack.live_eq_nil_iff.2 empty)
    rw [transfer_leave_of_empty (CallStack.pop_of_empty empty), nothing,
      Control.transfer_leave_nil, empty]
    exact ⟨rfl, nothing ▸ tracks⟩
  · obtain ⟨a, stack, popped⟩ : ∃ a stack, m.store.stack.pop = .ok (some (a, stack)) :=
      ⟨_, _, CallStack.pop_of_within pos tracks.room⟩
    have deeper := CallStack.depth_pop popped
    have room : stack.depth ≤ 16 := by
      have := tracks.room
      omega
    have last : m.control = ⟨m.store.pc, stack.live ++ [a]⟩ :=
      congrArg (Control.mk m.store.pc) (CallStack.live_pop popped)
    rw [last, transfer_leave_of_pop popped, Control.transfer_leave_concat,
      CallStack.length_live _ room]
    exact ⟨rfl, tracks.redirect a room⟩

theorem tracks_transfer (origin : Machine) :
    Simulates Machine.transfer Control.transfer origin.Tracks := by
  intro m c tracks t
  cases t with
  | call target => exact tracks.call target
  | leave => exact tracks.leave
  | jump target | advance =>
    obtain rfl := tracks.shown
    have height := CallStack.length_live _ tracks.room
    exact ⟨congrArg (Sight.mk _ _) height.symm, tracks.redirect _ tracks.room⟩

structure SameLive (m n : Machine) : Prop where
  rest : n.store = { m.store with stack := n.store.stack }
  depth : n.store.stack.depth = m.store.stack.depth
  slots (k : Fin 16) : k.val < m.store.stack.depth →
    n.store.stack.slots.get k = m.store.stack.slots.get k

theorem SameLive.alike (same : m.SameLive n) : m.store.stack.Alike n.store.stack :=
  CallStack.alike_iff.2 ⟨same.depth, same.slots⟩

theorem SameLive.pc (same : m.SameLive n) : n.store.pc = m.store.pc := by
  rw [same.rest]

theorem SameLive.redirect (same : m.SameLive n) (pc : UInt16) {stack stack' : CallStack}
    (alike : stack.Alike stack') : (m.redirect pc stack).SameLive (n.redirect pc stack') := by
  obtain ⟨depth, slots⟩ := CallStack.alike_iff.1 alike
  refine ⟨?_, depth, slots⟩
  simp only [Machine.redirect]
  rw [same.rest]

theorem SameLive.call (same : m.SameLive n) (target : UInt16) :
    (m.transfer (.call target)).1 = (n.transfer (.call target)).1 ∧
      (m.transfer (.call target)).2.SameLive (n.transfer (.call target)).2 := by
  rcases same.alike.push? m.store.pc with ⟨full, full'⟩ | ⟨stack, stack', pushed, pushed', alike⟩
  · rw [transfer_call_of_full full, transfer_call_of_full (same.pc ▸ full'), same.pc, same.depth]
    exact ⟨rfl, same⟩
  · rw [transfer_call_of_push pushed, transfer_call_of_push (same.pc ▸ pushed'), alike.depth]
    exact ⟨rfl, same.redirect target alike⟩

theorem SameLive.leave (same : m.SameLive n) :
    (m.transfer .leave).1 = (n.transfer .leave).1 ∧
      (m.transfer .leave).2.SameLive (n.transfer .leave).2 := by
  rcases same.alike.pop with equal | ⟨a, stack, stack', popped, popped', alike⟩
  · cases popped : m.store.stack.pop with
    | error t =>
      rw [transfer_leave_of_trap popped, transfer_leave_of_trap (equal.trans popped), same.pc,
        same.depth]
      exact ⟨rfl, same⟩
    | ok top =>
      cases top with
      | none =>
        rw [transfer_leave_of_empty popped, transfer_leave_of_empty (equal.trans popped), same.pc,
          same.depth]
        exact ⟨rfl, same⟩
      | some top =>
        rw [transfer_leave_of_pop popped, transfer_leave_of_pop (equal.trans popped)]
        exact ⟨rfl, same.redirect _ ⟨rfl, rfl⟩⟩
  · rw [transfer_leave_of_pop popped, transfer_leave_of_pop popped', alike.depth]
    exact ⟨rfl, same.redirect a alike⟩

theorem sameLive_transfer : Simulates transfer transfer SameLive := by
  intro m n same t
  cases t with
  | call target => exact same.call target
  | leave => exact same.leave
  | jump target =>
    rw [transfer_jump, transfer_jump, same.depth]
    exact ⟨rfl, same.redirect target same.alike⟩
  | advance =>
    rw [transfer_advance, transfer_advance, same.pc, same.depth]
    exact ⟨rfl, same.redirect _ same.alike⟩

/-- The counter and the depth are at every point those of a list of at most sixteen return
addresses, and nothing but counter and stack ever changes, not even those when a transfer fails;
what stands in slots at or above the depth cannot be told. A stack starts empty, and no transfer
takes it deeper than its slots. -/
theorem transfers_refine_list (room : m.store.stack.depth ≤ 16) (transfers : List Transfer) :
    m.store.stack.depth = m.control.returns.length ∧
    answers transfer m transfers = answers Control.transfer m.control transfers ∧
    (arrival transfer m transfers).control = arrival Control.transfer m.control transfers ∧
    (arrival transfer m transfers).store.stack.depth ≤ 16 ∧
    (∃ pc stack, arrival transfer m transfers = m.redirect pc stack) ∧
    (∀ t halt, ((arrival transfer m transfers).transfer t).1.answer = .error halt →
      ((arrival transfer m transfers).transfer t).2 = arrival transfer m transfers) ∧
    ∀ n, m.SameLive n →
      answers transfer n transfers = answers transfer m transfers ∧
      (arrival transfer m transfers).SameLive (arrival transfer n transfers) := by
  have begun : m.Tracks m m.control := ⟨rfl, room, rfl⟩
  have tracks := (tracks_transfer m).arrival begun transfers
  refine ⟨(CallStack.length_live _ room).symm, (tracks_transfer m).answers_eq begun transfers,
    tracks.shown, tracks.room, ⟨_, _, tracks.frame⟩, fun _ _ => eq_of_transfer_failed, ?_⟩
  intro n same
  exact ⟨(sameLive_transfer.answers_eq same transfers).symm,
    sameLive_transfer.arrival same transfers⟩

theorem left_address_is_not_seen :
    ∃ m n : Machine, m.store.stack.slots ≠ n.store.stack.slots ∧
      answers transfer n (.leave :: List.replicate 17 (.call 0x300)) =
        answers transfer m (.leave :: List.replicate 17 (.call 0x300)) ∧
      (answers transfer m (.leave :: List.replicate 17 (.call 0x300))).getLast? =
        some ⟨.error (.error (.stackOverflow 0x300)), 0x300, 16⟩ ∧
      (arrival transfer m (List.replicate 17 (.call 0x300) ++ List.replicate 16 .leave)).control =
        ⟨0x200, []⟩ := by
  have same : (fresh ⟨fun _ => 0, 0⟩).SameLive
      (arrival transfer (fresh ⟨fun _ => 0, 0⟩) [.call 0x300, .leave]) :=
    ⟨rfl, rfl, fun k below => absurd below (Nat.not_lt_zero k)⟩
  have room : (fresh ⟨fun _ => 0, 0⟩).store.stack.depth ≤ 16 := Nat.zero_le 16
  obtain ⟨_, seen, _, _, _, _, unseen⟩ :=
    transfers_refine_list room (.leave :: List.replicate 17 (.call 0x300))
  obtain ⟨_, _, control, _⟩ :=
    transfers_refine_list room (List.replicate 17 (.call 0x300) ++ List.replicate 16 .leave)
  exact ⟨_, _, by decide, (unseen _ same).1, seen ▸ rfl, control.trans (by decide +kernel)⟩

end Machine

end Chip8
