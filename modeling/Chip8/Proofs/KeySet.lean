import Chip8.Fault
import Chip8.Proofs.HeldKeys

set_option autoImplicit false

namespace Chip8

def KeyCommand.onNumbers (keys : Finset Nat) : KeyCommand → Finset Nat
  | .press code => if code.toNat ≤ 0xF then insert code.toNat keys else keys
  | .release code => if code.toNat ≤ 0xF then keys.erase code.toNat else keys
  | .replace codes => ((codes.map UInt8.toNat).filter fun n => n ≤ 0xF).toFinset
  | .clear => ∅

inductive KeyCommand.Touches (code : UInt8) : KeyCommand → Prop where
  | press : Touches code (.press code)
  | release : Touches code (.release code)

namespace KeyCommand

variable {keys : Finset Nat} {code : UInt8} {n : Nat}

theorem mem_onNumbers_press :
    n ∈ onNumbers keys (.press code) ↔ n ∈ keys ∨ (n = code.toNat ∧ n ≤ 0xF) := by
  by_cases small : code.toNat ≤ 0xF
  · rw [onNumbers, if_pos small, Finset.mem_insert]
    grind
  · rw [onNumbers, if_neg small]
    grind

theorem mem_onNumbers_release :
    n ∈ onNumbers keys (.release code) ↔ n ∈ keys ∧ (n = code.toNat → 0xF < n) := by
  by_cases small : code.toNat ≤ 0xF
  · rw [onNumbers, if_pos small, Finset.mem_erase]
    grind
  · rw [onNumbers, if_neg small]
    grind

theorem onNumbers_comm (keys : Finset Nat) {a b : UInt8} {c d : KeyCommand} (other : a ≠ b)
    (first : c.Touches a) (second : d.Touches b) :
    d.onNumbers (c.onNumbers keys) = c.onNumbers (d.onNumbers keys) := by
  have apart : a.toNat ≠ b.toNat := fun same => other (UInt8.toNat_inj.1 same)
  ext n
  cases first <;> cases second <;> simp only [mem_onNumbers_press, mem_onNumbers_release] <;> grind

end KeyCommand

namespace Keypad

variable {p : Keypad} {code : UInt8} {k : Fin 16}

def numbers (p : Keypad) : Finset Nat :=
  p.held.map Fin.valEmbedding

theorem val_mem_numbers : k.val ∈ p.numbers ↔ k ∈ p.held :=
  Finset.mem_map' Fin.valEmbedding

theorem isDown_iff_mem_numbers :
    p.isDown code = true ↔ code.toNat ≤ 0xF ∧ code.toNat ∈ p.numbers := by
  cases key : key? code with
  | none =>
    have beyond := key?_eq_none_iff.1 key
    simp only [isDown, key, Bool.false_eq_true, false_iff]
    omega
  | some k =>
    have number := key?_eq_some_iff.1 key
    have small := k.isLt
    rw [isDown_of_key? key, ← mem_held, number, val_mem_numbers]
    exact ⟨fun held => ⟨by omega, held⟩, And.right⟩

theorem numbers_eq_empty_iff : p.numbers = ∅ ↔ p.first = none := by
  rw [numbers, Finset.map_eq_empty, held_eq_empty_iff, first_eq_none_iff]

theorem first_eq_min_numbers (any : p.numbers.Nonempty) :
    p.first.map Fin.val = some (p.numbers.min' any) := by
  have held : p.held.Nonempty := Finset.map_nonempty.1 any
  rw [first_eq_min' held, Option.map_some]
  congr 1
  apply le_antisymm
  · apply Finset.le_min'
    intro n member
    obtain ⟨k, present, rfl⟩ := Finset.mem_map.1 member
    exact Fin.le_def.1 (Finset.min'_le _ _ present)
  · exact Finset.min'_le _ _ (val_mem_numbers.2 (Finset.min'_mem _ held))

theorem held_release (code : UInt8) : (p.release code).held = p.held \ named [code] := by
  cases key : key? code with
  | none => simp [release, named, key]
  | some k =>
    ext j
    simp only [mem_held, getLsbD_release key, Finset.mem_sdiff, Bool.and_eq_true]
    simp [named, key]

theorem held_ofCodes (codes : List UInt8) : (ofCodes codes).held = named codes := by
  rw [ofCodes_eq_pressAll, held_pressAll, held_empty, Finset.union_empty]

theorem mem_named {codes : List UInt8} : k ∈ named codes ↔ ∃ code ∈ codes, code.toNat = k := by
  simp only [named, List.mem_toFinset, List.mem_filterMap, key?_eq_some_iff]

theorem map_named (codes : List UInt8) :
    (named codes).map Fin.valEmbedding =
      ((codes.map UInt8.toNat).filter fun n => n ≤ 0xF).toFinset := by
  ext n
  simp only [Finset.mem_map, mem_named, List.mem_toFinset, List.mem_filter, List.mem_map,
    decide_eq_true_eq]
  constructor
  · rintro ⟨k, ⟨code, listed, number⟩, rfl⟩
    exact ⟨⟨code, listed, number⟩, Nat.le_of_lt_succ k.isLt⟩
  · rintro ⟨⟨code, listed, rfl⟩, small⟩
    exact ⟨⟨code.toNat, by omega⟩, ⟨code, listed, rfl⟩, rfl⟩

theorem numbers_perform (p : Keypad) (command : KeyCommand) :
    (p.perform command).numbers = command.onNumbers p.numbers := by
  cases command with
  | clear => exact (Finset.map_eq_empty).2 held_empty
  | replace codes =>
    rw [perform, numbers, held_ofCodes, map_named]
    rfl
  | press code =>
    rw [perform, numbers, held_press, Finset.map_union, map_named, KeyCommand.onNumbers]
    split <;> simp [numbers, *]
  | release code =>
    rw [perform, numbers, held_release, Finset.map_sdiff, map_named, KeyCommand.onNumbers]
    split <;> simp [numbers, Finset.sdiff_singleton_eq_erase, *]

theorem numbers_performAll (p : Keypad) (commands : List KeyCommand) :
    (p.performAll commands).numbers = commands.foldl KeyCommand.onNumbers p.numbers := by
  induction commands generalizing p with
  | nil => rfl
  | cons command rest ih =>
    have next : p.performAll (command :: rest) = (p.perform command).performAll rest := rfl
    rw [next, ih, numbers_perform, List.foldl_cons]

theorem ext_numbers {q : Keypad} (same : p.numbers = q.numbers) : p = q :=
  ext_held (Finset.map_injective _ same)

theorem replace_eq_press_all (p : Keypad) {codes codes' : List UInt8}
    (same : ∀ code, code ∈ codes ↔ code ∈ codes') :
    p.performAll (.clear :: codes'.map .press) = p.perform (.replace codes) := by
  have pressed : p.performAll (.clear :: codes'.map .press) = empty.pressAll codes' :=
    List.foldl_map
  have named_eq : named codes' = named codes := by
    ext k
    simp only [mem_named, same]
  apply ext_held
  rw [pressed, held_pressAll, held_empty, Finset.union_empty, perform, held_ofCodes, named_eq]

theorem perform_comm (p : Keypad) {a b : UInt8} {c d : KeyCommand} (other : a ≠ b)
    (first : c.Touches a) (second : d.Touches b) :
    (p.perform c).perform d = (p.perform d).perform c := by
  apply ext_numbers
  simp only [numbers_perform]
  exact KeyCommand.onNumbers_comm _ other first second

def shiftedBit (amount : Nat) : Except Trap (BitVec 16) :=
  if amount < 16 then .ok (1#16 <<< amount) else .error .overflow

def alterByShift (p : Keypad) (code : UInt8) (alter : BitVec 16 → BitVec 16) :
    Except Trap Keypad :=
  if code.toNat < keyCount then do
    let bit ← shiftedBit code.toNat
    return ⟨alter bit⟩
  else return p

def performByShifts (p : Keypad) : KeyCommand → Except Trap Keypad
  | .press code => p.alterByShift code fun bit => p.mask ||| bit
  | .release code => p.alterByShift code fun bit => p.mask &&& ~~~bit
  | .replace codes => do
    let add (mask : BitVec 16) (code : UInt8) := return mask ||| (← shiftedBit code.toNat)
    let mask ← (codes.filter fun code => code.toNat < keyCount).foldlM add 0#16
    return ⟨mask⟩
  | .clear => return .empty

def isDownByShift (p : Keypad) (code : UInt8) : Except Trap Bool :=
  if code.toNat < keyCount then do
    let bit ← shiftedBit code.toNat
    return p.mask &&& bit != 0#16
  else return false

theorem shiftedBit_of_key? (key : key? code = some k) : shiftedBit code.toNat = .ok (bit k) := by
  have number := key?_eq_some_iff.1 key
  rw [shiftedBit, number, if_pos k.isLt, bit, BitVec.twoPow]

theorem lt_of_key? (key : key? code = some k) : code.toNat < keyCount :=
  key?_eq_some_iff.1 key ▸ k.isLt

theorem not_lt_of_key? (key : key? code = none) : ¬ code.toNat < keyCount :=
  Nat.not_lt.2 (key?_eq_none_iff.1 key)

theorem isDownByShift_eq (p : Keypad) (code : UInt8) :
    p.isDownByShift code = .ok (p.isDown code) := by
  cases key : key? code with
  | none =>
    rw [isDownByShift, if_neg (not_lt_of_key? key), isDown, key]
    rfl
  | some k =>
    rw [isDownByShift, if_pos (lt_of_key? key), shiftedBit_of_key? key, isDown, key]
    rfl

theorem alterByShift_eq (p : Keypad) (code : UInt8) (alter : BitVec 16 → BitVec 16) :
    p.alterByShift code alter =
      .ok (match key? code with
        | some k => ⟨alter (bit k)⟩
        | none => p) := by
  cases key : key? code with
  | none =>
    rw [alterByShift, if_neg (not_lt_of_key? key)]
    rfl
  | some k =>
    rw [alterByShift, if_pos (lt_of_key? key), shiftedBit_of_key? key]
    rfl

theorem foldlM_shiftedBit (codes : List UInt8) (mask : BitVec 16) :
    (codes.filter fun code => code.toNat < keyCount).foldlM
        (fun mask code => return mask ||| (← shiftedBit code.toNat)) mask =
      (.ok ((codes.filterMap key?).foldl (fun mask k => mask ||| bit k) mask) :
        Except Trap (BitVec 16)) := by
  induction codes generalizing mask with
  | nil => rfl
  | cons code rest ih =>
    cases key : key? code with
    | none =>
      rw [List.filter_cons_of_neg (by simpa using not_lt_of_key? key),
        List.filterMap_cons_none key, ih]
    | some k =>
      rw [List.filter_cons_of_pos (by simpa using lt_of_key? key), List.filterMap_cons_some key,
        List.foldlM_cons, shiftedBit_of_key? key, List.foldl_cons, ← ih]
      rfl

theorem performByShifts_eq (p : Keypad) (command : KeyCommand) :
    p.performByShifts command = .ok (p.perform command) := by
  cases command with
  | clear => rfl
  | press code => exact p.alterByShift_eq code _
  | release code => exact p.alterByShift_eq code _
  | replace codes =>
    rw [performByShifts, foldlM_shiftedBit]
    rfl

theorem first_eq_ctz (p : Keypad) :
    p.first.map Fin.val = if p.mask = 0#16 then none else some p.mask.ctz.toNat := by
  by_cases blank : p.mask = 0#16
  · obtain rfl : p = empty := congrArg mk blank
    rfl
  · have small : p.mask.ctz.toNat < 16 := BitVec.lt_def.1 (BitVec.ctz_lt_iff_ne_zero.2 blank)
    have lowest : p.Lowest ⟨p.mask.ctz.toNat, small⟩ := by
      refine ⟨(isDown_ofNat p _).trans (BitVec.getLsbD_true_ctz_of_ne_zero blank), ?_⟩
      intro code down
      by_contra above
      cases key : key? code with
      | none => simp [isDown, key] at down
      | some k =>
        have below : k.val < p.mask.ctz.toNat := key?_eq_some_iff.1 key ▸ Nat.not_le.1 above
        rw [isDown_of_key? key, BitVec.getLsbD_false_of_lt_ctz below] at down
        contradiction
    rw [if_neg blank, first_eq_some_iff.2 lowest, Option.map_some]

/-- After any history the keypad is the set of numbers that its commands make, and tells its lowest
key; replacing all keys is pressing the new ones on a blank keypad, in any order and as often as one
likes; what is done to different keys may be done in any order; and no code makes a shift leave the
word. -/
theorem keypad_is_a_set_of_numbers (commands : List KeyCommand) :
    (∀ code, (empty.performAll commands).isDown code = true ↔
      code.toNat ≤ 0xF ∧ code.toNat ∈ commands.foldl KeyCommand.onNumbers ∅) ∧
    ((empty.performAll commands).first = none ↔ commands.foldl KeyCommand.onNumbers ∅ = ∅) ∧
    (∀ any : (commands.foldl KeyCommand.onNumbers ∅).Nonempty,
      (empty.performAll commands).first.map Fin.val =
        some ((commands.foldl KeyCommand.onNumbers ∅).min' any)) ∧
    (∀ codes codes', (∀ code, code ∈ codes ↔ code ∈ codes') →
      (empty.performAll commands).perform (.replace codes') =
        (empty.performAll commands).perform (.replace codes) ∧
      (empty.performAll commands).performAll (.clear :: codes'.map .press) =
        (empty.performAll commands).perform (.replace codes)) ∧
    (∀ (a b : UInt8) (c d : KeyCommand), a ≠ b → c.Touches a → d.Touches b →
      ((empty.performAll commands).perform c).perform d =
        ((empty.performAll commands).perform d).perform c) ∧
    (∀ command, (empty.performAll commands).performByShifts command =
      .ok ((empty.performAll commands).perform command)) ∧
    (∀ code, (empty.performAll commands).isDownByShift code =
      .ok ((empty.performAll commands).isDown code)) ∧
    (empty.performAll commands).first.map Fin.val =
      if (empty.performAll commands).mask = 0#16 then none
      else some (empty.performAll commands).mask.ctz.toNat := by
  have numbers : (empty.performAll commands).numbers = commands.foldl KeyCommand.onNumbers ∅ :=
    (numbers_performAll empty commands).trans
      (congrArg (commands.foldl KeyCommand.onNumbers) (Finset.map_eq_empty.2 held_empty))
  rw [← numbers]
  refine ⟨fun _ => isDown_iff_mem_numbers, numbers_eq_empty_iff.symm, first_eq_min_numbers, ?_, ?_,
    performByShifts_eq _, isDownByShift_eq _, first_eq_ctz _⟩
  · intro codes codes' same
    have pressed := replace_eq_press_all (empty.performAll commands) same
    exact ⟨(replace_eq_press_all _ fun _ => Iff.rfl).symm.trans pressed, pressed⟩
  · intro a b c d other first second
    exact perform_comm _ other first second

theorem three_keys_are_a_set :
    (empty.performAll [.replace [0xB, 0x20, 3, 0xB], .press 7, .release 0x13]).first.map Fin.val =
        some 3 ∧
      (empty.performAll [.replace [0xB, 0x20, 3, 0xB], .press 7, .release 0x13]).isDown 0xB = true ∧
      empty.performAll [.clear, .press 3, .press 0x20, .press 0xB] = ofCodes [0xB, 0x20, 3, 0xB] ∧
      ((empty.press 7).perform (.press 4)).perform (.release 7) =
        ((empty.press 7).perform (.release 7)).perform (.press 4) := by
  obtain ⟨down, _, lowest, _⟩ :=
    keypad_is_a_set_of_numbers [.replace [0xB, 0x20, 3, 0xB], .press 7, .release 0x13]
  obtain ⟨_, _, _, replaced, _⟩ := keypad_is_a_set_of_numbers []
  obtain ⟨_, _, _, _, swapped, _⟩ := keypad_is_a_set_of_numbers [.press 7]
  refine ⟨lowest ⟨3, by decide⟩, (down 0xB).2 (by decide), ?_,
    swapped 4 7 _ _ (by decide) .press .release⟩
  have same (code : UInt8) : code ∈ [0xB, 0x20, 3, 0xB] ↔ code ∈ [3, 0x20, 0xB] := by
    simp only [List.mem_cons, List.not_mem_nil, or_false]
    grind
  exact (replaced [0xB, 0x20, 3, 0xB] [3, 0x20, 0xB] same).2

end Keypad

end Chip8
