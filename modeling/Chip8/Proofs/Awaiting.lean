import Chip8.Proofs.Course
import Chip8.Proofs.Footprint
import Chip8.Proofs.HeldKeys
import Chip8.Proofs.Outcome

set_option autoImplicit false

namespace Chip8

inductive Pressing (keys : Finset (Fin 16)) : List KeyCommand → Prop where
  | oneByOne {codes : List UInt8} (h : Keypad.named codes = keys) :
    Pressing keys (codes.map .press)
  | atOnce {codes : List UInt8} (h : Keypad.named codes = keys) : Pressing keys [.replace codes]

variable {keys : Finset (Fin 16)} {presses presses' : List KeyCommand}

theorem Pressing.held {p : Keypad} (pressing : Pressing keys presses) (free : p.held = ∅) :
    (p.performAll presses).held = keys := by
  cases pressing with
  | @oneByOne codes h =>
    have pressed : p.performAll (codes.map .press) = p.pressAll codes := List.foldl_map
    rw [pressed, Keypad.held_pressAll, free, h, Finset.union_empty]
  | @atOnce codes h =>
    have replaced : p.performAll [.replace codes] = .ofCodes codes := rfl
    rw [replaced, Keypad.ofCodes_eq_pressAll, Keypad.held_pressAll, h]
    simp

theorem Pressing.unique {p : Keypad} (pressing : Pressing keys presses)
    (pressing' : Pressing keys presses') (free : p.held = ∅) :
    p.performAll presses = p.performAll presses' := by
  apply Keypad.ext_held
  rw [pressing.held free, pressing'.held free]

theorem Pressing.first {p : Keypad} (pressing : Pressing keys presses) (free : p.held = ∅)
    (any : keys.Nonempty) : (p.performAll presses).first = some (keys.min' any) := by
  have held := pressing.held free
  subst held
  exact Keypad.first_eq_min' any

namespace Machine

variable {m : Machine} {w : UInt16}

theorem performAll_keys (m : Machine) (presses : List KeyCommand) :
    m.performAll (presses.map .keys) = { m with keypad := m.keypad.performAll presses } := by
  induction presses generalizing m with
  | nil => rfl
  | cons command rest ih =>
    have next : m.performAll ((command :: rest).map .keys) =
      (m.perform (.keys command)).2.performAll (rest.map .keys) := rfl
    rw [next, ih]
    rfl

theorem Fetches.performAll_keys (fetched : m.Fetches w) (presses : List KeyCommand) :
    (m.performAll (presses.map .keys)).Fetches w := by
  rw [m.performAll_keys]
  exact fetched

def answered (m : Machine) (x key : Fin 16) (keypad : Keypad) : Machine :=
  { m with
    store :=
      { m.store with
        pc := m.store.pc + 2
        v := Exec.put m.store.v x (UInt8.ofNat key) }
    keypad }

theorem fetches_awaitKey (fetched : m.Fetches w) (asks : Form.Matches ⟨0xF, .x, 0x0, 0xA⟩ w) :
    m.Fetches (Instruction.awaitKey (Word.x w)).encode := by
  obtain ⟨i, form, fetched'⟩ := Runs.exists_instruction (by decide) ⟨w, fetched, asks⟩
  obtain rfl := fetched.unique fetched'
  cases i with
  | awaitKey x =>
    rw [Instruction.x_awaitKey]
    exact fetched
  | _ => cases form

theorem resume_of_register (m : Machine) {register : Nat} (beyond : 16 ≤ register) (key : UInt8) :
    m.resume register key =
      (.error (.error (.cpu (awaitWord register) (m.store.pc - 2)
        (.invalidRegister register))), m) := by
  rw [resume, Store.writeRegister, dif_neg (by omega)]
  rfl

theorem resume_advance (m : Machine) (x key : Fin 16) :
    m.advance.resume x (UInt8.ofNat key) = (.ok (), m.answered x key m.keypad) := by
  rw [resume_of_nibble, Exec.set_eq_put]
  rfl

/-- The two ways in which a key can be had lead to the same machine. -/
theorem awaited_key_is_read_key (fetched : m.Fetches w) (lacks : m.LacksKey w)
    (any : keys.Nonempty) (waited : Pressing keys presses) (pressed : Pressing keys presses') :
    m.step = (.ok (.awaitingKey (Word.x w)), { m with store.pc := m.store.pc + 2 }) ∧
      (m.step.2.performAll (presses.map .keys)).keypad.first = some (keys.min' any) ∧
      (m.step.2.performAll (presses.map .keys)).resume (Word.x w) (UInt8.ofNat (keys.min' any)) =
        (.ok (), m.answered (Word.x w) (keys.min' any) (m.keypad.performAll presses)) ∧
      (m.performAll (presses'.map .keys)).step =
        (.ok .executed, m.answered (Word.x w) (keys.min' any) (m.keypad.performAll presses)) ∧
      (m.keypad.performAll presses).held = keys ∧
      ∀ (n : Machine) (register : Nat) (key : UInt8),
        (register < 16 → (n.resume register key).1 = .ok ()) ∧
        (16 ≤ register → n.resume register key =
          (.error (.error (.cpu (awaitWord register) (n.store.pc - 2)
            (.invalidRegister register))), n)) := by
  obtain ⟨asks, noKey⟩ := lacks
  have free : m.keypad.held = ∅ := Keypad.held_eq_empty_iff.2 noKey
  have fetched := fetches_awaitKey fetched asks
  have waits := step_of_awaitKey fetched
  have executes := step_of_awaitKey (fetched.performAll_keys presses')
  have same := waited.unique pressed free
  rw [Keypad.first_eq_none_iff.2 noKey] at waits
  rw [performAll_keys, pressed.first free any] at executes
  rw [waits, performAll_keys, performAll_keys]
  refine ⟨rfl, waited.first free any, ?_, ?_, waited.held free, ?_⟩
  · exact resume_advance { m with keypad := m.keypad.performAll presses } _ _
  · rw [executes, same]
    rfl
  · intro n register key
    constructor
    · intro within
      rw [resume_of_nibble n ⟨register, within⟩]
    · intro beyond
      exact n.resume_of_register beyond key

theorem flag_register_awaits_four_and_nine :
    (loaded [0xFF, 0x0A]).step.1 = .ok (.awaitingKey vF) ∧
      ∃ next : Machine, next.store.v.get vF = 4 ∧
        ((loaded [0xFF, 0x0A]).step.2.performAll [.keys (.press 9), .keys (.press 4)]).resume vF 4 =
          (.ok (), next) ∧
        ((loaded [0xFF, 0x0A]).performAll [.keys (.replace [4, 9, 4, 0x40])]).step =
          (.ok .executed, next) := by
  have fetched : (loaded [0xFF, 0x0A]).Fetches 0xFF0A := fetch_eq_ok_iff.1 (by decide +kernel)
  have lacks : (loaded [0xFF, 0x0A]).LacksKey 0xFF0A := ⟨by decide, Keypad.isDown_empty⟩
  have any : Finset.Nonempty ({4, 9} : Finset (Fin 16)) := ⟨4, by decide⟩
  have waited : Pressing {4, 9} [.press 9, .press 4] := @Pressing.oneByOne _ [9, 4] (by decide)
  have pressed : Pressing {4, 9} [.replace [4, 9, 4, 0x40]] := .atOnce (by decide)
  obtain ⟨waits, _, resumed, executed, _⟩ :=
    awaited_key_is_read_key fetched lacks any waited pressed
  have register : Word.x 0xFF0A = vF := by decide
  have lowest : Finset.min' {4, 9} any = 4 := rfl
  rw [register] at waits
  rw [register, lowest] at resumed executed
  exact ⟨congrArg Prod.fst waits, _, Exec.get_put_self _ vF 4, resumed, executed⟩

end Machine

end Chip8
