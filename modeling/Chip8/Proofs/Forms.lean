import Chip8.Instruction.Lemmas

set_option autoImplicit false

namespace Chip8

inductive Digit where
  | only (value : Nat)
  | x
  | y
  | n
  | k
deriving DecidableEq, Repr

instance (value : Nat) : OfNat Digit value := ⟨.only value⟩

def Digit.Matches : Digit → Nat → Prop
  | .only value, digit => digit = value
  | _, _ => True

instance : (d : Digit) → (digit : Nat) → Decidable (d.Matches digit)
  | .only value, digit => inferInstanceAs (Decidable (digit = value))
  | .x, _ | .y, _ | .n, _ | .k, _ => isTrue trivial

def Digit.Apart : Digit → Digit → Prop
  | .only a, .only b => a ≠ b
  | _, _ => False

instance (a b : Digit) : Decidable (a.Apart b) := by
  unfold Digit.Apart
  split <;> infer_instance

theorem Digit.Apart.not_matches {a b : Digit} (apart : a.Apart b) {digit : Nat}
    (matched : a.Matches digit) : ¬ b.Matches digit := by
  cases a with
  | only =>
    cases b with
    | only => exact fun matched' => apart (matched.symm.trans matched')
    | _ => exact apart.elim
  | _ => exact apart.elim

structure Form where
  first : Digit
  second : Digit
  third : Digit
  fourth : Digit
deriving DecidableEq, Repr

namespace Form

def Matches (f : Form) (w : UInt16) : Prop :=
  f.first.Matches (w.toNat / 4096) ∧ f.second.Matches (w.toNat / 256 % 16) ∧
    f.third.Matches (w.toNat / 16 % 16) ∧ f.fourth.Matches (w.toNat % 16)

instance (f : Form) (w : UInt16) : Decidable (f.Matches w) :=
  inferInstanceAs (Decidable (_ ∧ _ ∧ _ ∧ _))

def Apart (f g : Form) : Prop :=
  f.first.Apart g.first ∨ f.second.Apart g.second ∨ f.third.Apart g.third ∨
    f.fourth.Apart g.fourth

instance (f g : Form) : Decidable (f.Apart g) := by
  unfold Apart
  infer_instance

theorem Apart.not_matches {f g : Form} (apart : f.Apart g) {w : UInt16} (matched : f.Matches w) :
    ¬ g.Matches w := by
  intro matched'
  obtain ⟨first, second, third, fourth⟩ := matched
  obtain ⟨first', second', third', fourth'⟩ := matched'
  rcases apart with h | h | h | h
  · exact h.not_matches first first'
  · exact h.not_matches second second'
  · exact h.not_matches third third'
  · exact h.not_matches fourth fourth'

def all : List Form :=
  [ ⟨0x0, 0x0, 0xE, 0x0⟩,
    ⟨0x0, 0x0, 0xE, 0xE⟩,
    ⟨0x1, .n, .n, .n⟩,
    ⟨0x2, .n, .n, .n⟩,
    ⟨0x3, .x, .k, .k⟩,
    ⟨0x4, .x, .k, .k⟩,
    ⟨0x5, .x, .y, 0x0⟩,
    ⟨0x6, .x, .k, .k⟩,
    ⟨0x7, .x, .k, .k⟩,
    ⟨0x8, .x, .y, 0x0⟩,
    ⟨0x8, .x, .y, 0x1⟩,
    ⟨0x8, .x, .y, 0x2⟩,
    ⟨0x8, .x, .y, 0x3⟩,
    ⟨0x8, .x, .y, 0x4⟩,
    ⟨0x8, .x, .y, 0x5⟩,
    ⟨0x8, .x, .y, 0x6⟩,
    ⟨0x8, .x, .y, 0x7⟩,
    ⟨0x8, .x, .y, 0xE⟩,
    ⟨0x9, .x, .y, 0x0⟩,
    ⟨0xA, .n, .n, .n⟩,
    ⟨0xB, .n, .n, .n⟩,
    ⟨0xC, .x, .k, .k⟩,
    ⟨0xD, .x, .y, .n⟩,
    ⟨0xE, .x, 0x9, 0xE⟩,
    ⟨0xE, .x, 0xA, 0x1⟩,
    ⟨0xF, .x, 0x0, 0x7⟩,
    ⟨0xF, .x, 0x0, 0xA⟩,
    ⟨0xF, .x, 0x1, 0x5⟩,
    ⟨0xF, .x, 0x1, 0x8⟩,
    ⟨0xF, .x, 0x1, 0xE⟩,
    ⟨0xF, .x, 0x2, 0x9⟩,
    ⟨0xF, .x, 0x3, 0x3⟩,
    ⟨0xF, .x, 0x5, 0x5⟩,
    ⟨0xF, .x, 0x6, 0x5⟩ ]

theorem eq_or_apart : ∀ f ∈ all, ∀ g ∈ all, f = g ∨ f.Apart g := by decide

end Form

namespace Instruction

def form : Instruction → Form
  | .clear => ⟨0x0, 0x0, 0xE, 0x0⟩
  | .leave => ⟨0x0, 0x0, 0xE, 0xE⟩
  | .jump _ => ⟨0x1, .n, .n, .n⟩
  | .call _ => ⟨0x2, .n, .n, .n⟩
  | .skipEq _ _ => ⟨0x3, .x, .k, .k⟩
  | .skipNe _ _ => ⟨0x4, .x, .k, .k⟩
  | .skipEqReg _ _ => ⟨0x5, .x, .y, 0x0⟩
  | .set _ _ => ⟨0x6, .x, .k, .k⟩
  | .add _ _ => ⟨0x7, .x, .k, .k⟩
  | .operate op _ _ => ⟨0x8, .x, .y, .only op.nibble⟩
  | .skipNeReg _ _ => ⟨0x9, .x, .y, 0x0⟩
  | .setIndex _ => ⟨0xA, .n, .n, .n⟩
  | .jumpFrom _ => ⟨0xB, .n, .n, .n⟩
  | .random _ _ => ⟨0xC, .x, .k, .k⟩
  | .draw _ _ _ => ⟨0xD, .x, .y, .n⟩
  | .skipHeld _ => ⟨0xE, .x, 0x9, 0xE⟩
  | .skipFree _ => ⟨0xE, .x, 0xA, 0x1⟩
  | .readDelay _ => ⟨0xF, .x, 0x0, 0x7⟩
  | .awaitKey _ => ⟨0xF, .x, 0x0, 0xA⟩
  | .setDelay _ => ⟨0xF, .x, 0x1, 0x5⟩
  | .setSound _ => ⟨0xF, .x, 0x1, 0x8⟩
  | .addIndex _ => ⟨0xF, .x, 0x1, 0xE⟩
  | .glyph _ => ⟨0xF, .x, 0x2, 0x9⟩
  | .digits _ => ⟨0xF, .x, 0x3, 0x3⟩
  | .save _ => ⟨0xF, .x, 0x5, 0x5⟩
  | .restore _ => ⟨0xF, .x, 0x6, 0x5⟩

theorem form_mem_all (i : Instruction) : i.form ∈ Form.all := by
  cases i with
  | operate op => cases op <;> (simp only [form, Operation.nibble]; decide)
  | _ =>
    simp only [form]
    decide

theorem second_withValue {group : Nat} (h : group < 16) (x : Fin 16) (value : UInt8) :
    (withValue group x value).toNat / 256 % 16 = x :=
  congrArg Fin.val (x_withValue h x value)

theorem third_withValue {group : Nat} (h : group < 16) (x : Fin 16) (value : UInt8) :
    (withValue group x value).toNat / 16 % 16 = value.toNat / 16 := by
  have := value.toNat_lt
  rw [toNat_withValue h]
  omega

theorem fourth_withValue {group : Nat} (h : group < 16) (x : Fin 16) (value : UInt8) :
    (withValue group x value).toNat % 16 = value.toNat % 16 := by
  rw [toNat_withValue h]
  omega

@[simp] theorem target_call (target : Fin 4096) : Word.target (call target).encode = target :=
  target_withTarget (by decide) target

@[simp] theorem x_glyph (x : Fin 16) : Word.x (glyph x).encode = x :=
  x_withValue (by decide) x _

@[simp] theorem x_awaitKey (x : Fin 16) : Word.x (awaitKey x).encode = x :=
  x_withValue (by decide) x _

@[simp] theorem last_draw (x y rows : Fin 16) : (draw x y rows).encode.toNat % 16 = rows :=
  last_withPair (by decide) rows.isLt x y

theorem matches_form (i : Instruction) : i.form.Matches i.encode := by
  cases i with
  | clear | leave => exact ⟨rfl, rfl, rfl, rfl⟩
  | jump | call | setIndex | jumpFrom =>
    exact ⟨group_withTarget (by decide) _, trivial, trivial, trivial⟩
  | skipEq | skipNe | set | add | random =>
    exact ⟨group_withValue (by decide) _ _, trivial, trivial, trivial⟩
  | operate op =>
    exact ⟨group_withPair (by decide) op.nibble_lt _ _, trivial, trivial,
      last_withPair (by decide) op.nibble_lt _ _⟩
  | skipEqReg | skipNeReg =>
    exact ⟨group_withPair (by decide) (by decide) _ _, trivial, trivial,
      last_withPair (by decide) (by decide) _ _⟩
  | draw _ _ rows => exact ⟨group_withPair (by decide) rows.isLt _ _, trivial, trivial, trivial⟩
  | skipHeld | skipFree | readDelay | awaitKey | setDelay | setSound | addIndex | glyph | digits
  | save | restore =>
    exact ⟨group_withValue (by decide) _ _, trivial, third_withValue (by decide) _ _,
      fourth_withValue (by decide) _ _⟩

theorem not_matches_of_decode {w : UInt16} (unread : decode w = none) :
    ∀ f ∈ Form.all, ¬ f.Matches w := by
  have small := w.toNat_lt
  unfold decode at unread
  simp only [Form.all, List.forall_mem_cons, List.not_mem_nil, false_implies, implies_true,
    Form.Matches, Digit.Matches, true_and, and_true]
  -- The first digit rules out the forms of all other groups.
  split at unread
  case h_1 =>
    next group =>
    simp only [group, reduceCtorEq, Nat.zero_ne_one, true_and, false_and, not_false_eq_true,
      not_and, and_self, and_true]
    have clear : w.toNat ≠ 0x00E0 := by
      intro same
      rw [if_pos (UInt16.toNat_inj.1 same)] at unread
      contradiction
    have leave : w.toNat ≠ 0x00EE := by
      intro same
      have other : w ≠ 0x00E0 := fun clear => by simp [clear] at same
      rw [if_neg other, if_pos (UInt16.toNat_inj.1 same)] at unread
      contradiction
    omega
  case h_6 | h_10 =>
    next group =>
    simp only [group, reduceCtorEq, Nat.reduceEqDiff, Nat.succ_ne_self, true_and, false_and,
      not_false_eq_true, and_self, and_true, ne_eq]
    split at unread
    · contradiction
    · next nonzero => exact nonzero
  case h_9 =>
    next group =>
    simp only [group, reduceCtorEq, Nat.reduceEqDiff, Nat.succ_ne_self, true_and, false_and,
      not_false_eq_true, and_self, and_true]
    have absent (op : Operation) : (Word.last w).val ≠ op.nibble := by
      intro same
      rw [same, Operation.ofNibble?_nibble] at unread
      contradiction
    exact ⟨absent .copy, absent .or, absent .and, absent .xor, absent .add, absent .sub,
      absent .shiftRight, absent .subFrom, absent .shiftLeft⟩
  case h_15 =>
    next group =>
    simp only [group, reduceCtorEq, Nat.reduceEqDiff, Nat.succ_ne_self, true_and, false_and,
      not_false_eq_true, not_and, and_self, and_true]
    split at unread
    · contradiction
    · split at unread
      · contradiction
      · omega
  case h_16 =>
    next group =>
    simp only [group, reduceCtorEq, Nat.reduceEqDiff, Nat.succ_ne_self, true_and, false_and,
      not_false_eq_true, not_and]
    unfold decodeF at unread
    split at unread
    case h_10 =>
      simp only [imp_false] at *
      omega
    all_goals contradiction
  case h_17 =>
    simp only [imp_false] at *
    omega
  all_goals contradiction

theorem matches_encode_iff {f : Form} (listed : f ∈ Form.all) {i : Instruction} :
    f.Matches i.encode ↔ i.form = f := by
  constructor
  · intro matched
    rcases Form.eq_or_apart i.form i.form_mem_all f listed with same | apart
    · exact same
    · exact absurd matched (apart.not_matches i.matches_form)
  · rintro rfl
    exact i.matches_form

end Instruction

end Chip8
