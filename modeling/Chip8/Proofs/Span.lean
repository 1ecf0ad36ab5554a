import Chip8.Store.Span

set_option autoImplicit false

namespace Chip8

namespace Layout

def Contained (start len : Nat) : Prop :=
  (programStart ≤ start ∧ start + len ≤ programEnd) ∨ (glyphStart ≤ start ∧ start + len ≤ glyphEnd)

instance (start len : Nat) : Decidable (Contained start len) := by
  unfold Contained
  infer_instance

theorem Contained.le_ramSize {start len : Nat} (h : Contained start len) :
    start + len ≤ ramSize := by
  simp only [Contained, programEnd, ramSize, reservedTop, glyphEnd] at *
  omega

theorem contained_iff {start len : Nat} (pos : 0 < len) :
    (∀ a, start ≤ a → a < start + len → Addressable a) ↔ Contained start len := by
  constructor
  · intro all
    have first := all start (by omega) (by omega)
    have last := all (start + len - 1) (by omega) (by omega)
    -- A span from the glyphs into the program region would cover the first byte between them.
    have between := all glyphEnd
    simp only [Addressable, Contained, programStart, programEnd, ramSize, reservedTop, glyphStart,
      glyphEnd] at *
    omega
  · intro inside a lower upper
    simp only [Addressable, Contained] at *
    omega

end Layout

namespace Store

open Layout

def bytes (s : Store) (start len : Nat) : List UInt8 :=
  (s.ram.toList.drop start).take len

@[simp] theorem length_bytes {s : Store} {start len : Nat} (h : start + len ≤ ramSize) :
    (s.bytes start len).length = len := by
  simp only [ramSize] at h
  simp only [bytes, List.length_take, List.length_drop, Vector.length_toList]
  omega

theorem getElem_bytes {s : Store} {start len k : Nat} (h : start + len ≤ 4096) (hk : k < len)
    (hb : k < (s.bytes start len).length) : (s.bytes start len)[k] = s.ram[start + k] := by
  simp [bytes]

theorem take_drop_bytes (s : Store) {start len k count : Nat} (within : k + count ≤ len) :
    ((s.bytes start len).drop k).take count = s.bytes (start + k) count := by
  have short : count ≤ len - k := by omega
  simp [bytes, List.drop_take, List.take_take, short]

theorem bytes_congr {s t : Store} (same : s.ram = t.ram) (start len : Nat) :
    s.bytes start len = t.bytes start len := by
  simp only [bytes, same]

theorem bytes_overwrite (s : Store) {start : Nat} {data : List UInt8}
    (fits : start + data.length ≤ 4096) :
    bytes { s with ram := s.ram.overwrite start data } start data.length = data := by
  apply List.ext_getElem
  · exact length_bytes fits
  · intro k bound within
    simp [getElem_bytes fits within, Ram.getElem_overwrite, within]

theorem overwrite_bytes (s : Store) {start len : Nat} (fits : start + len ≤ 4096) :
    s.ram.overwrite start (s.bytes start len) = s.ram := by
  apply Vector.ext
  intro a within
  have count : (s.bytes start len).length = len := length_bytes fits
  rw [Ram.getElem_overwrite _ _ _ _ within]
  split
  · next covered =>
    have inside : a - start < len := by omega
    simp [getElem_bytes fits inside, Nat.add_sub_cancel' covered.1]
  · rfl

def spanRefusal (start len : Nat) : Option Fault :=
  if len = 0 ∨ Contained start len then none
  else some (.protectionViolation start (start + len - 1))

theorem spanRefusal_eq_none_iff {start len : Nat} :
    spanRefusal start len = none ↔ len = 0 ∨ Contained start len := by
  by_cases accepted : len = 0 ∨ Contained start len <;> simp [spanRefusal, accepted]

theorem allAddressable_eq {start len : Nat} (pos : 0 < len) :
    allAddressable start len = decide (Contained start len) := by
  rw [Bool.eq_iff_iff, allAddressable_iff, decide_eq_true_eq, contained_iff pos]

theorem checkSpan_eq {start len : Nat} (pos : 0 < len) (small : start + len < UInt64.size) :
    checkSpan start len =
      match spanRefusal start len with
      | none => .ok ()
      | some fault => .error (.error fault) := by
  have room : ¬ UInt64.size ≤ start + len := Nat.not_le.2 small
  rw [checkSpan, if_neg room, allAddressable_eq pos, spanRefusal]
  by_cases inside : Contained start len
  · simp [inside]
  · simp [inside, Nat.pos_iff_ne_zero.1 pos]

theorem slice_eq {s : Store} {start len : Nat} (h : start + len ≤ ramSize) :
    s.slice start len = .ok (s.bytes start len) := by
  have extracted : (s.ram.extract start (start + len)).toList = s.bytes start len := by
    simp [bytes, Vector.toList_extract]
  rw [slice, if_pos h, extracted]

theorem readSpan_eq (s : Store) {start len : Nat} (small : start + len < UInt64.size) :
    s.readSpan start len =
      match spanRefusal start len with
      | none => .ok (s.bytes start len)
      | some fault => .error (.error fault) := by
  rcases Nat.eq_zero_or_pos len with rfl | pos
  · simp [readSpan, spanRefusal, bytes]
  · rw [readSpan, if_neg (Nat.pos_iff_ne_zero.1 pos), checkSpan_eq pos small]
    cases refused : spanRefusal start len with
    | some fault => rfl
    | none =>
      have inside := (spanRefusal_eq_none_iff.1 refused).resolve_left (Nat.pos_iff_ne_zero.1 pos)
      exact slice_eq inside.le_ramSize

theorem writeSpan_eq (s : Store) {start : Nat} {data : List UInt8}
    (small : start + data.length < UInt64.size) :
    s.writeSpan start data =
      match spanRefusal start data.length with
      | none => .ok { s with ram := s.ram.overwrite start data }
      | some fault => .error (.error fault) := by
  by_cases empty : data = []
  · subst empty
    simp [writeSpan, spanRefusal, Ram.overwrite]
  · have pos : 0 < data.length := List.length_pos_iff.2 empty
    rw [writeSpan, if_neg empty, checkSpan_eq pos small]
    cases refused : spanRefusal start data.length with
    | some fault => rfl
    | none =>
      have inside := (spanRefusal_eq_none_iff.1 refused).resolve_left (Nat.pos_iff_ne_zero.1 pos)
      exact if_pos inside.le_ramSize

theorem span_fits (a : UInt16) {len : Nat} (short : len ≤ 16) : a.toNat + len < UInt64.size := by
  have small := a.toNat_lt
  simp only [UInt64.size]
  omega

theorem readSpan_ne_trap (s : Store) (a : UInt16) {len : Nat} (short : len ≤ 16) (t : Trap) :
    s.readSpan a.toNat len ≠ .error (.trap t) := by
  rw [readSpan_eq s (span_fits a short)]
  cases spanRefusal a.toNat len <;> simp

theorem writeSpan_ne_trap (s : Store) (a : UInt16) {data : List UInt8} (short : data.length ≤ 16)
    (t : Trap) : s.writeSpan a.toNat data ≠ .error (.trap t) := by
  rw [writeSpan_eq s (span_fits a short)]
  cases spanRefusal a.toNat data.length <;> simp

theorem load_eq (s : Store) (program : List UInt8) :
    s.load program =
      if programLimit < program.length then
        .error (.error (.programTooLarge program.length programLimit))
      else .ok { s with ram := s.ram.overwrite programStart program } := by
  unfold load
  split
  · rfl
  · next fits =>
    have inside : programStart + program.length ≤ ramSize := by
      simp only [programLimit, programEnd, programStart, ramSize, reservedTop] at *
      omega
    exact if_pos inside

end Store

end Chip8
