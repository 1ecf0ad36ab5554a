import Chip8.Proofs.Forms
import Chip8.Proofs.Safety

set_option autoImplicit false

namespace Chip8

theorem Ram.within_of_overwrite_ne {ram : Ram} {start : Nat} {data : List UInt8} {a : Nat}
    (h : a < 4096) (changed : (ram.overwrite start data)[a] ≠ ram[a]) :
    start ≤ a ∧ a < start + data.length := by
  by_cases within : start ≤ a ∧ a < start + data.length
  · exact within
  · rw [Ram.getElem_overwrite, dif_neg within] at changed
    exact absurd rfl changed

namespace Machine

def Writes (w : UInt16) (len : Nat) : Prop :=
  (Form.Matches ⟨0xF, .x, 0x3, 0x3⟩ w ∧ len = 3) ∨
  (Form.Matches ⟨0xF, .x, 0x5, 0x5⟩ w ∧ len = w.toNat / 256 % 16 + 1)

variable (m : Machine)

def Runs (f : Form) : Prop :=
  ∃ w, m.Fetches w ∧ f.Matches w

variable {m} in
theorem Fetches.runs_iff {f : Form} {w : UInt16} (fetched : m.Fetches w) :
    m.Runs f ↔ f.Matches w := by
  constructor
  · rintro ⟨w', fetched', matched⟩
    exact fetched'.unique fetched ▸ matched
  · exact fun matched => ⟨w, fetched, matched⟩

variable {m} in
theorem not_runs_of_no_fetch {f : Form} {halt : Halt Fault} (failed : m.fetch = .error halt) :
    ¬ m.Runs f := by
  rintro ⟨w, fetched, _⟩
  rw [fetch_eq_ok_iff.2 fetched] at failed
  contradiction

instance (f : Form) : Decidable (m.Runs f) :=
  match fetched : m.fetch with
  | .ok _ => decidable_of_iff _ (fetch_eq_ok_iff.1 fetched).runs_iff.symm
  | .error _ => isFalse (not_runs_of_no_fetch fetched)

def Overwrites (a : Nat) : Prop :=
  ∃ w len, m.Fetches w ∧ Writes w len ∧ m.step.1 = .ok .executed ∧
    Layout.Contained m.store.i.toNat len ∧
    m.store.i.toNat ≤ a ∧ a < m.store.i.toNat + len

structure Footprint : Prop where
  ram (a : Nat) (h : a < 4096) : m.step.2.store.ram[a] ≠ m.store.ram[a] → m.Overwrites a
  frame : m.step.2.frame ≠ m.frame → m.Runs ⟨0x0, 0x0, 0xE, 0x0⟩ ∨ m.Runs ⟨0xD, .x, .y, .n⟩
  stack : m.step.2.store.stack ≠ m.store.stack →
    (m.Runs ⟨0x2, .n, .n, .n⟩ ∧ m.step.2.store.stack.depth = m.store.stack.depth + 1 ∧
      m.step.2.store.stack.live = m.store.stack.live ++ [m.store.pc + 2]) ∨
    (m.Runs ⟨0x0, 0x0, 0xE, 0xE⟩ ∧ m.store.stack.depth = m.step.2.store.stack.depth + 1 ∧
      m.store.stack.live = m.step.2.store.stack.live ++ [m.step.2.store.pc])
  delay : m.step.2.store.delay ≠ m.store.delay → m.Runs ⟨0xF, .x, 0x1, 0x5⟩
  sound : m.step.2.store.sound ≠ m.store.sound → m.Runs ⟨0xF, .x, 0x1, 0x8⟩
  random : m.step.2.random ≠ m.random → m.Runs ⟨0xC, .x, .k, .k⟩ ∧ m.step.2.random = m.random.skip
  keypad : m.step.2.keypad = m.keypad

variable {m} {a : Nat}

theorem Fetches.runs {i : Instruction} (fetched : m.Fetches i.encode) : m.Runs i.form :=
  ⟨i.encode, fetched, i.matches_form⟩

theorem Runs.exists_instruction {f : Form} (listed : f ∈ Form.all) (runs : m.Runs f) :
    ∃ i : Instruction, i.form = f ∧ m.Fetches i.encode := by
  obtain ⟨w, fetched, matched⟩ := runs
  cases decoded : Instruction.decode w with
  | none => exact absurd matched (Instruction.not_matches_of_decode decoded f listed)
  | some i =>
    obtain rfl := Instruction.encode_of_decode decoded
    exact ⟨i, (Instruction.matches_encode_iff listed).1 matched, fetched⟩

theorem executed_of_changed {α : Type} (part : Machine → α) (kept : part m.advance = part m)
    (changed : part m.step.2 ≠ part m) :
    ∃ i : Instruction, m.Fetches i.encode ∧ m.advance.refusal i = none ∧
      m.step = (.ok (m.advance.progress i), m.advance.after i) := by
  have stepped := m.stepped
  generalize m.step = result at *
  cases stepped with
  | beyond => exact absurd rfl changed
  | unknown | refused => exact absurd kept changed
  | @executed i fetched accepted => exact ⟨i, fetched, accepted, rfl⟩

theorem contained_of_accepted {start len : Nat} (pos : 0 < len)
    (accepted : (Store.spanRefusal start len).map Halt.error = none) :
    Layout.Contained start len :=
  (Store.spanRefusal_eq_none_iff.1 (Option.map_eq_none_iff.1 accepted)).resolve_left (by omega)

theorem overwrites_of_changed (h : a < 4096)
    (changed : m.step.2.store.ram[a] ≠ m.store.ram[a]) : m.Overwrites a := by
  obtain ⟨i, fetched, accepted, step⟩ :=
    executed_of_changed (fun m => m.store.ram[a]) rfl changed
  rw [Overwrites]
  rw [step] at changed ⊢
  change (m.advance.ramAfter i)[a] ≠ m.store.ram[a] at changed
  cases i with
  | digits x =>
    have within := Ram.within_of_overwrite_ne h changed
    exact ⟨_, 3, fetched, .inl ⟨(Instruction.digits x).matches_form, rfl⟩, rfl,
      contained_of_accepted (by decide) accepted, within⟩
  | save x =>
    have within := Ram.within_of_overwrite_ne h changed
    have count : (m.store.v.toList.take (x + 1)).length = x + 1 := by
      rw [List.length_take, Vector.length_toList]
      omega
    have operand : x.val + 1 = (Instruction.save x).encode.toNat / 256 % 16 + 1 := by
      rw [Instruction.encode, Instruction.second_withValue (by decide)]
    exact ⟨_, x + 1, fetched, .inr ⟨(Instruction.save x).matches_form, operand⟩, rfl,
      contained_of_accepted (Nat.succ_pos _) accepted, within.1, count ▸ within.2⟩
  | _ => exact absurd rfl changed

theorem pop_of_innermost {top : UInt16 × CallStack} (found : m.innermost = some top) :
    m.store.stack.pop = .ok (some top) := by
  unfold innermost at found
  split at found
  · next popped =>
    subst found
    exact popped
  · contradiction

theorem stack_footprint (changed : m.step.2.store.stack ≠ m.store.stack) :
    (m.Runs ⟨0x2, .n, .n, .n⟩ ∧ m.step.2.store.stack.depth = m.store.stack.depth + 1 ∧
      m.step.2.store.stack.live = m.store.stack.live ++ [m.store.pc + 2]) ∨
    (m.Runs ⟨0x0, 0x0, 0xE, 0xE⟩ ∧ m.store.stack.depth = m.step.2.store.stack.depth + 1 ∧
      m.store.stack.live = m.step.2.store.stack.live ++ [m.step.2.store.pc]) := by
  obtain ⟨i, fetched, -, step⟩ := executed_of_changed (fun m => m.store.stack) rfl changed
  rw [step] at changed ⊢
  change m.advance.stackAfter i ≠ m.store.stack at changed
  cases i with
  | call target =>
    simp only [after, stackAfter] at changed ⊢
    cases pushed : m.advance.store.stack.push? m.advance.store.pc with
    | none =>
      rw [pushed] at changed
      exact absurd rfl changed
    | some s =>
      exact .inl ⟨fetched.runs, CallStack.depth_push pushed, CallStack.live_push pushed⟩
  | leave =>
    simp only [after, stackAfter, counterAfter] at changed ⊢
    cases found : m.advance.innermost with
    | none =>
      rw [found] at changed
      exact absurd rfl changed
    | some top =>
      have popped := pop_of_innermost found
      exact .inr ⟨fetched.runs, CallStack.depth_pop popped, CallStack.live_pop popped⟩
  | _ => exact absurd rfl changed

theorem footprint (m : Machine) : m.Footprint where
  ram _ h := overwrites_of_changed h
  frame changed := by
    obtain ⟨i, fetched, -, step⟩ := executed_of_changed (fun m => m.frame) rfl changed
    rw [step] at changed
    change m.advance.frameAfter i ≠ m.frame at changed
    cases i with
    | clear => exact .inl fetched.runs
    | draw => exact .inr fetched.runs
    | _ => exact absurd rfl changed
  stack := stack_footprint
  delay changed := by
    obtain ⟨i, fetched, -, step⟩ := executed_of_changed (fun m => m.store.delay) rfl changed
    rw [step] at changed
    change m.advance.delayAfter i ≠ m.store.delay at changed
    cases i with
    | setDelay => exact fetched.runs
    | _ => exact absurd rfl changed
  sound changed := by
    obtain ⟨i, fetched, -, step⟩ := executed_of_changed (fun m => m.store.sound) rfl changed
    rw [step] at changed
    change m.advance.soundAfter i ≠ m.store.sound at changed
    cases i with
    | setSound => exact fetched.runs
    | _ => exact absurd rfl changed
  random changed := by
    obtain ⟨i, fetched, -, step⟩ := executed_of_changed (fun m => m.random) rfl changed
    rw [step] at changed ⊢
    change m.advance.randomAfter i ≠ m.random at changed
    cases i with
    | random => exact ⟨fetched.runs, rfl⟩
    | _ => exact absurd rfl changed
  keypad := by
    by_contra changed
    obtain ⟨i, -, -, step⟩ := executed_of_changed (fun m => m.keypad) rfl changed
    rw [step] at changed
    exact changed rfl

variable (m a) in
def Replaces : Command → Prop
  | .load program =>
    program.length ≤ Layout.programLimit ∧
      Layout.programStart ≤ a ∧ a < Layout.programStart + program.length
  | .step => m.Overwrites a
  | _ => False

theorem replaces_of_changed {command : Command} (h : a < 4096)
    (changed : (m.perform command).2.store.ram[a] ≠ m.store.ram[a]) : m.Replaces a command := by
  cases command with
  | step => exact overwrites_of_changed h changed
  | load program =>
    rw [Machine.perform, Machine.load, Store.load_eq] at changed
    by_cases large : Layout.programLimit < program.length
    · rw [if_pos large] at changed
      exact absurd rfl changed
    · rw [if_neg large] at changed
      exact ⟨Nat.not_lt.1 large, Ram.within_of_overwrite_ne h changed⟩
  | resume register key =>
    rw [Machine.perform, Machine.resume, Store.writeRegister] at changed
    by_cases inBank : register < 16
    · rw [dif_pos inBank] at changed
      exact absurd rfl changed
    · rw [dif_neg inBank] at changed
      exact absurd rfl changed
  | keys => exact absurd rfl changed
  | tick timer => cases timer <;> exact absurd rfl changed

structure Undisturbed (m m' : Machine) : Prop where
  ram : m'.store.ram = m.store.ram
  registers : m'.store.v = m.store.v
  index : m'.store.i = m.store.i
  counter : m'.store.pc = m.store.pc
  stack : m'.store.stack = m.store.stack
  frame : m'.frame = m.frame
  random : m'.random = m.random

theorem Undisturbed.refl (m : Machine) : m.Undisturbed m :=
  ⟨rfl, rfl, rfl, rfl, rfl, rfl, rfl⟩

theorem Undisturbed.trans {m m' m'' : Machine} (first : m.Undisturbed m')
    (second : m'.Undisturbed m'') : m.Undisturbed m'' where
  ram := second.ram.trans first.ram
  registers := second.registers.trans first.registers
  index := second.index.trans first.index
  counter := second.counter.trans first.counter
  stack := second.stack.trans first.stack
  frame := second.frame.trans first.frame
  random := second.random.trans first.random

theorem undisturbed_tick (m : Machine) (timer : Timer) :
    m.Undisturbed { m with store := m.store.tick timer } := by
  cases timer <;> exact ⟨rfl, rfl, rfl, rfl, rfl, rfl, rfl⟩

theorem eq_step_of_changed {α : Type} (part : Machine → α) {command : Command}
    (kept : ∀ ram v delay sound keypad,
      part { m with store := { m.store with ram, v, delay, sound }, keypad } = part m)
    (changed : part (m.perform command).2 ≠ part m) : command = .step := by
  cases command with
  | step => rfl
  | load program =>
    rw [Machine.perform, Machine.load, Store.load_eq] at changed
    by_cases large : Layout.programLimit < program.length
    · rw [if_pos large] at changed
      exact absurd rfl changed
    · rw [if_neg large] at changed
      exact absurd (kept _ m.store.v m.store.delay m.store.sound m.keypad) changed
  | resume register key =>
    rw [Machine.perform, Machine.resume, Store.writeRegister] at changed
    by_cases inBank : register < 16
    · rw [dif_pos inBank] at changed
      exact absurd (kept m.store.ram _ m.store.delay m.store.sound m.keypad) changed
    · rw [dif_neg inBank] at changed
      exact absurd rfl changed
  | keys => exact absurd (kept m.store.ram m.store.v m.store.delay m.store.sound _) changed
  | tick timer =>
    cases timer <;> exact absurd (kept m.store.ram m.store.v _ _ m.keypad) changed

theorem exists_replaces {history : List Command} (h : a < 4096)
    (changed : (m.performAll history).store.ram[a] ≠ m.store.ram[a]) :
    ∃ before command after, history = before ++ command :: after ∧
      (m.performAll before).Replaces a command := by
  induction history generalizing m with
  | nil => exact absurd rfl changed
  | cons command rest ih =>
    by_cases kept : (m.perform command).2.store.ram[a] = m.store.ram[a]
    · have later : ((m.perform command).2.performAll rest).store.ram[a] ≠
          (m.perform command).2.store.ram[a] := by
        rw [kept]
        exact changed
      obtain ⟨before, found, after, split, replaces⟩ := ih later
      exact ⟨command :: before, found, after, congrArg (command :: ·) split, replaces⟩
    · exact ⟨[], command, rest, rfl, replaces_of_changed h kept⟩

theorem Overwrites.runs (overwrites : m.Overwrites a) :
    m.Runs ⟨0xF, .x, 0x3, 0x3⟩ ∨ m.Runs ⟨0xF, .x, 0x5, 0x5⟩ := by
  obtain ⟨w, _, fetched, writes, _⟩ := overwrites
  exact writes.imp (fun digits => ⟨w, fetched, digits.1⟩) (fun save => ⟨w, fetched, save.1⟩)

theorem Overwrites.index_in_glyphs (overwrites : m.Overwrites a) (below : a < Layout.glyphEnd) :
    Layout.glyphStart ≤ m.store.i.toNat ∧ m.store.i.toNat < Layout.glyphEnd := by
  obtain ⟨_, len, _, _, _, inside, lower, upper⟩ := overwrites
  simp only [Layout.Contained, Layout.programStart, Layout.glyphEnd, Layout.glyphStart] at *
  omega

theorem ram_of_unwritten {history : List Command}
    (unloaded : ∀ program, .load program ∉ history)
    (unwritten : ∀ before after, history = before ++ .step :: after →
      ¬ (m.performAll before).Runs ⟨0xF, .x, 0x3, 0x3⟩ ∧
        ¬ (m.performAll before).Runs ⟨0xF, .x, 0x5, 0x5⟩) :
    (m.performAll history).store.ram = m.store.ram := by
  apply Vector.ext
  intro a h
  by_contra changed
  obtain ⟨before, command, after, rfl, replaces⟩ := exists_replaces h changed
  cases command with
  | load program => exact unloaded program (by simp)
  | step =>
    obtain ⟨digits, save⟩ := unwritten before after rfl
    exact replaces.runs.elim digits save
  | _ => exact replaces.elim

theorem glyph_of_changed {history : List Command} (h : a < 4096) (below : a < Layout.glyphEnd)
    (changed : (m.performAll history).store.ram[a] ≠ m.store.ram[a]) :
    ∃ before after, history = before ++ .step :: after ∧ (m.performAll before).Overwrites a := by
  obtain ⟨before, command, after, split, replaces⟩ := exists_replaces h changed
  cases command with
  | load program =>
    have lower := replaces.2.1
    simp only [Layout.programStart, Layout.glyphEnd] at lower below
    omega
  | step => exact ⟨before, after, split, replaces⟩
  | _ => exact replaces.elim

/-- Nothing outside the registers changes but by its own instructions. Over a history, RAM stays as
it is without programs loaded or bytes written, and the glyphs change only where I points at them.
-/
theorem step_footprint :
    (∀ m : Machine, m.Footprint) ∧
    (∀ (m : Machine) (history : List Command), (∀ program, .load program ∉ history) →
      (∀ before after, history = before ++ .step :: after →
        ¬ (m.performAll before).Runs ⟨0xF, .x, 0x3, 0x3⟩ ∧
          ¬ (m.performAll before).Runs ⟨0xF, .x, 0x5, 0x5⟩) →
      (m.performAll history).store.ram = m.store.ram) ∧
    ∀ (m : Machine) (history : List Command) (a : Nat) (h : a < 4096),
      Layout.glyphStart ≤ a → a < Layout.glyphEnd →
      (m.performAll history).store.ram[a] ≠ m.store.ram[a] →
      ∃ before after, history = before ++ .step :: after ∧ (m.performAll before).Overwrites a ∧
        Layout.glyphStart ≤ (m.performAll before).store.i.toNat ∧
        (m.performAll before).store.i.toNat < Layout.glyphEnd := by
  refine ⟨footprint, fun m history => ram_of_unwritten, ?_⟩
  intro m history a h _ below changed
  obtain ⟨before, after, split, overwrites⟩ := glyph_of_changed h below changed
  exact ⟨before, after, split, overwrites, overwrites.index_in_glyphs below⟩

theorem erased_glyph_footprint :
    ((loaded [0xA0, 0x50, 0xF0, 0x33]).performAll [.step, .step]).store.ram[0x50] ≠
        (loaded [0xA0, 0x50, 0xF0, 0x33]).store.ram[0x50] ∧
      ∃ before after, [.step, .step] = before ++ .step :: after ∧
        ((loaded [0xA0, 0x50, 0xF0, 0x33]).performAll before).Overwrites 0x50 := by
  have changed : ((loaded [0xA0, 0x50, 0xF0, 0x33]).performAll [.step, .step]).store.ram[0x50] ≠
      (loaded [0xA0, 0x50, 0xF0, 0x33]).store.ram[0x50] := by
    decide +kernel
  obtain ⟨before, after, split, overwrites, _⟩ :=
    step_footprint.2.2 _ _ 0x50 (by decide) (by decide) (by decide) changed
  exact ⟨changed, before, after, split, overwrites⟩

end Machine

end Chip8
