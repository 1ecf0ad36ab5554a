import Chip8.Instruction.Decode

set_option autoImplicit false

namespace Chip8

theorem Operation.ofNibble?_nibble (op : Operation) : ofNibble? op.nibble = some op := by
  cases op <;> rfl

theorem Operation.nibble_lt (op : Operation) : op.nibble < 16 := by
  cases op <;> decide

theorem Operation.nibble_of_ofNibble? {n : Nat} {op : Operation} (h : ofNibble? n = some op) :
    op.nibble = n := by
  unfold ofNibble? at h
  split at h <;> first | cases h; rfl | contradiction

namespace Instruction

theorem toNat_withTarget {group : Nat} (h : group < 16) (target : Fin 4096) :
    (withTarget group target).toNat = group * 4096 + target.val := by
  simp only [withTarget, UInt16.toNat_ofNat']
  omega

theorem toNat_withValue {group : Nat} (h : group < 16) (x : Fin 16) (value : UInt8) :
    (withValue group x value).toNat = group * 4096 + x.val * 256 + value.toNat := by
  have := value.toNat_lt
  simp only [withValue, UInt16.toNat_ofNat']
  omega

theorem toNat_withPair {group last : Nat} (h : group < 16) (hl : last < 16) (x y : Fin 16) :
    (withPair group x y last).toNat = group * 4096 + x.val * 256 + y.val * 16 + last := by
  simp only [withPair, UInt16.toNat_ofNat']
  omega

theorem target_withTarget {group : Nat} (h : group < 16) (target : Fin 4096) :
    Word.target (withTarget group target) = target := by
  apply Fin.ext
  simp only [Word.target, toNat_withTarget h]
  omega

theorem x_withValue {group : Nat} (h : group < 16) (x : Fin 16) (value : UInt8) :
    Word.x (withValue group x value) = x := by
  have := value.toNat_lt
  apply Fin.ext
  simp only [Word.x, toNat_withValue h]
  omega

theorem value_withValue {group : Nat} (h : group < 16) (x : Fin 16) (value : UInt8) :
    Word.value (withValue group x value) = value := by
  have := value.toNat_lt
  apply UInt8.toNat_inj.1
  simp only [Word.value, toNat_withValue h, UInt8.toNat_ofNat']
  omega

theorem x_withPair {group last : Nat} (h : group < 16) (hl : last < 16) (x y : Fin 16) :
    Word.x (withPair group x y last) = x := by
  apply Fin.ext
  simp only [Word.x, toNat_withPair h hl]
  omega

theorem y_withPair {group last : Nat} (h : group < 16) (hl : last < 16) (x y : Fin 16) :
    Word.y (withPair group x y last) = y := by
  apply Fin.ext
  simp only [Word.y, toNat_withPair h hl]
  omega

theorem last_withPair {group last : Nat} (h : group < 16) (hl : last < 16) (x y : Fin 16) :
    (Word.last (withPair group x y last)).val = last := by
  simp only [Word.last, toNat_withPair h hl]
  omega

theorem group_withTarget {group : Nat} (h : group < 16) (target : Fin 4096) :
    (withTarget group target).toNat / 4096 = group := by
  rw [toNat_withTarget h]
  omega

theorem group_withValue {group : Nat} (h : group < 16) (x : Fin 16) (value : UInt8) :
    (withValue group x value).toNat / 4096 = group := by
  have := value.toNat_lt
  rw [toNat_withValue h]
  omega

theorem low_withValue {group : Nat} (h : group < 16) (x : Fin 16) (value : UInt8) :
    (withValue group x value).toNat % 256 = value.toNat := by
  have := value.toNat_lt
  rw [toNat_withValue h]
  omega

theorem group_withPair {group last : Nat} (h : group < 16) (hl : last < 16) (x y : Fin 16) :
    (withPair group x y last).toNat / 4096 = group := by
  rw [toNat_withPair h hl]
  omega

theorem decode_encode (i : Instruction) : decode i.encode = some i := by
  cases i with
  | clear | leave => rfl
  | jump | call | setIndex | jumpFrom =>
    simp [encode, decode, group_withTarget, target_withTarget]
  | skipEq | skipNe | set | add | random =>
    simp [encode, decode, group_withValue, x_withValue, value_withValue]
  | skipHeld | skipFree | readDelay | awaitKey | setDelay | setSound | addIndex | glyph | digits
  | save | restore =>
    simp [encode, decode, decodeF, group_withValue, low_withValue, x_withValue]
  | operate op =>
    simp [encode, decode, group_withPair, x_withPair, y_withPair, last_withPair,
      Operation.nibble_lt, Operation.ofNibble?_nibble]
  | skipEqReg | skipNeReg =>
    simp [encode, decode, group_withPair, x_withPair, y_withPair, last_withPair]
  | draw x y rows =>
    have last : Word.last (withPair 0xD x y rows.val) = rows :=
      Fin.ext (last_withPair (by decide) rows.isLt x y)
    simp [encode, decode, group_withPair, x_withPair, y_withPair, last]

theorem withTarget_target (w : UInt16) : withTarget (w.toNat / 4096) (Word.target w) = w := by
  have := w.toNat_lt
  apply UInt16.toNat_inj.1
  rw [toNat_withTarget (by omega)]
  simp only [Word.target]
  omega

theorem withValue_value (w : UInt16) :
    withValue (w.toNat / 4096) (Word.x w) (Word.value w) = w := by
  have := w.toNat_lt
  apply UInt16.toNat_inj.1
  rw [toNat_withValue (by omega)]
  simp only [Word.x, Word.value, UInt8.toNat_ofNat']
  omega

theorem withPair_last (w : UInt16) :
    withPair (w.toNat / 4096) (Word.x w) (Word.y w) (Word.last w).val = w := by
  have := w.toNat_lt
  apply UInt16.toNat_inj.1
  rw [toNat_withPair (by omega) (Word.last w).isLt]
  simp only [Word.x, Word.y, Word.last]
  omega

theorem value_eq_of_low {w : UInt16} {n : Nat} (h : w.toNat % 256 = n) :
    Word.value w = UInt8.ofNat n := by
  apply UInt8.toNat_inj.1
  simp only [Word.value, UInt8.toNat_ofNat', ← h]
  omega

theorem encode_of_decodeF {w : UInt16} {i : Instruction} (group : w.toNat / 4096 = 0xF)
    (h : decodeF (Word.x w) (w.toNat % 256) = some i) : i.encode = w := by
  have whole := withValue_value w
  rw [group] at whole
  unfold decodeF at h
  split at h
  all_goals first
    | (next low => rw [value_eq_of_low low] at whole; cases h; exact whole)
    | contradiction

theorem encode_of_decode {w : UInt16} {i : Instruction} (h : decode w = some i) :
    i.encode = w := by
  have byTarget := withTarget_target w
  have byValue := withValue_value w
  have byPair := withPair_last w
  unfold decode at h
  split at h
  case h_1 =>
    split at h
    · next clear => cases h; exact clear.symm
    · split at h
      · next leave => cases h; exact leave.symm
      · contradiction
  case h_2 | h_3 | h_11 | h_12 =>
    next group => rw [group] at byTarget; cases h; exact byTarget
  case h_4 | h_5 | h_7 | h_8 | h_13 =>
    next group => rw [group] at byValue; cases h; exact byValue
  case h_6 | h_10 =>
    next group =>
      split at h
      · next last => rw [group, last] at byPair; cases h; exact byPair
      · contradiction
  case h_9 =>
    next group =>
      obtain ⟨op, hop, rfl⟩ := Option.map_eq_some_iff.1 h
      rw [group, ← Operation.nibble_of_ofNibble? hop] at byPair
      exact byPair
  case h_14 =>
    next group => rw [group] at byPair; cases h; exact byPair
  case h_15 =>
    next group =>
      rw [group] at byValue
      split at h
      · next low => rw [value_eq_of_low low] at byValue; cases h; exact byValue
      · split at h
        · next low => rw [value_eq_of_low low] at byValue; cases h; exact byValue
        · contradiction
  case h_16 =>
    next group => exact encode_of_decodeF group h
  case h_17 => contradiction

end Instruction

end Chip8
