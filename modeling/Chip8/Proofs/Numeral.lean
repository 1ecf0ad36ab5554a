import Chip8.Text.Hex
import Chip8.Text.Numeral

set_option autoImplicit false

namespace Chip8.Text

-- A text behind which no more characters of a class can follow those before it.
def Ends (p : Char → Bool) (rest : List Char) : Prop :=
  ∀ c ∈ rest.head?, p c = false

@[simp]
theorem ends_nil {p : Char → Bool} : Ends p [] := by
  simp [Ends]

@[simp]
theorem ends_cons {p : Char → Bool} {c : Char} {rest : List Char} :
    Ends p (c :: rest) ↔ p c = false := by
  simp [Ends]

theorem run_append_inj {p : Char → Bool} {run run' rest rest' : List Char}
    (all : ∀ c ∈ run, p c = true) (all' : ∀ c ∈ run', p c = true)
    (ends : Ends p rest) (ends' : Ends p rest') (same : run ++ rest = run' ++ rest') :
    run = run' ∧ rest = rest' := by
  induction run generalizing run' with
  | nil =>
    cases run' with
    | nil => exact ⟨rfl, same⟩
    | cons c run' =>
      rw [List.nil_append] at same
      simp [same, all' c] at ends
  | cons c run ih =>
    cases run' with
    | nil =>
      rw [List.nil_append] at same
      simp [← same, all c] at ends'
    | cons c' run' =>
      simp only [List.cons_append, List.cons.injEq] at same
      simp only [List.mem_cons, forall_eq_or_imp] at all all'
      have next := ih all.2 all'.2 same.2
      simp [same.1, next]

theorem written_append_inj {write : Nat → List Char} {value : List Char → Nat} {p : Char → Bool}
    (back : ∀ n, value (write n) = n) (within : ∀ n, ∀ c ∈ write n, p c = true) {m n : Nat}
    {rest rest' : List Char} (ends : Ends p rest) (ends' : Ends p rest')
    (same : write m ++ rest = write n ++ rest') : m = n ∧ rest = rest' := by
  obtain ⟨digits, rests⟩ := run_append_inj (within m) (within n) ends ends' same
  have numbers := congrArg value digits
  simp only [back] at numbers
  exact ⟨numbers, rests⟩

section Hexadecimal

def isHexDigit (c : Char) : Bool :=
  c.isDigit || ('A' ≤ c && c ≤ 'F')

def hexDigitValue (c : Char) : Nat :=
  if c.isDigit then c.toNat - '0'.toNat else c.toNat - 'A'.toNat + 10

def hexValue (digits : List Char) : Nat :=
  digits.foldl (fun n c => 16 * n + hexDigitValue c) 0

theorem hexDigitValue_digit : ∀ d < 16, hexDigitValue (Nat.digitChar d).toUpper = d := by
  decide

theorem isHexDigit_digit : ∀ d < 16, isHexDigit (Nat.digitChar d).toUpper = true := by
  decide

theorem hexDigits_eq_if (n : Nat) :
    hexDigits n =
      if n < 16 then [n.digitChar.toUpper]
      else hexDigits (n / 16) ++ [(n % 16).digitChar.toUpper] := by
  rw [hexDigits, Nat.toDigits_eq_if (by decide)]
  split <;> simp [hexDigits]

theorem hexValue_hexDigits (n : Nat) : hexValue (hexDigits n) = n := by
  induction n using Nat.strongRecOn with
  | ind n ih =>
    rw [hexDigits_eq_if]
    split
    next small => simp [hexValue, hexDigitValue_digit n small]
    next large =>
      have rest := ih (n / 16) (by omega)
      have digit := hexDigitValue_digit (n % 16) (Nat.mod_lt _ (by decide))
      simp only [hexValue] at rest
      simp only [hexValue, List.foldl_append, List.foldl_cons, List.foldl_nil, rest, digit]
      omega

theorem isHexDigit_of_mem_hexDigits (n : Nat) : ∀ c ∈ hexDigits n, isHexDigit c = true := by
  induction n using Nat.strongRecOn with
  | ind n ih =>
    rw [hexDigits_eq_if]
    split
    next small => simpa using isHexDigit_digit n small
    next large =>
      have rest := ih (n / 16) (by omega)
      have digit := isHexDigit_digit (n % 16) (Nat.mod_lt _ (by decide))
      simp only [List.mem_append, List.mem_singleton]
      rintro c (inRest | rfl)
      · exact rest c inRest
      · exact digit

theorem hexValue_zeros (count : Nat) (digits : List Char) :
    hexValue (List.replicate count '0' ++ digits) = hexValue digits := by
  induction count with
  | zero => simp
  | succ count ih => simpa [List.replicate_succ, hexValue, hexDigitValue] using ih

theorem hexValue_hexPadded (width n : Nat) : hexValue (hexPadded width n) = n := by
  rw [hexPadded, hexValue_zeros, hexValue_hexDigits]

theorem isHexDigit_of_mem_hexPadded (width n : Nat) :
    ∀ c ∈ hexPadded width n, isHexDigit c = true := by
  intro c found
  rw [hexPadded, List.mem_append, List.mem_replicate] at found
  cases found with
  | inl filled => exact filled.2 ▸ rfl
  | inr digit => exact isHexDigit_of_mem_hexDigits n c digit

theorem hexPadded_append_inj {width m n : Nat} {rest rest' : List Char}
    (ends : Ends isHexDigit rest) (ends' : Ends isHexDigit rest')
    (same : hexPadded width m ++ rest = hexPadded width n ++ rest') : m = n ∧ rest = rest' :=
  written_append_inj (hexValue_hexPadded width) (isHexDigit_of_mem_hexPadded width) ends ends' same

theorem hexPadded_inj {width m n : Nat} : hexPadded width m = hexPadded width n ↔ m = n := by
  constructor
  · intro same
    exact (hexPadded_append_inj ends_nil ends_nil (congrArg (· ++ []) same)).1
  · rintro rfl
    rfl

end Hexadecimal

section Decimal

theorem toDigits_append_inj {m n : Nat} {rest rest' : List Char}
    (ends : Ends Char.isDigit rest) (ends' : Ends Char.isDigit rest')
    (same : Nat.toDigits 10 m ++ rest = Nat.toDigits 10 n ++ rest') : m = n ∧ rest = rest' := by
  have within (n : Nat) : ∀ c ∈ Nat.toDigits 10 n, c.isDigit = true := by
    intro c found
    exact Nat.isDigit_of_mem_toDigits (by decide) (by decide) found
  exact written_append_inj (fun _ => Nat.ofDigitChars_ten_toDigits) within ends ends' same

theorem toList_toString (n : Nat) : (toString n).toList = Nat.toDigits 10 n := by
  rw [Nat.toString_eq_repr, Nat.toList_repr]

def Denotes (text : List Char) (n : Nat) : Prop :=
  ∃ digits, digits ≠ [] ∧ (∀ c ∈ digits, c.isDigit = true) ∧
    (text = digits ∨ text = '+' :: digits) ∧ Nat.ofDigitChars 10 digits 0 = n

theorem denotes_toString (n : Nat) : Denotes (toString n).toList n := by
  rw [toList_toString]
  refine ⟨_, Nat.toDigits_ne_nil, ?_, .inl rfl, Nat.ofDigitChars_ten_toDigits⟩
  intro c found
  exact Nat.isDigit_of_mem_toDigits (by decide) (by decide) found

theorem le_ofDigitChars (digits : List Char) (acc : Nat) :
    acc ≤ Nat.ofDigitChars 10 digits acc := by
  induction digits generalizing acc with
  | nil => simp
  | cons c rest ih =>
    rw [Nat.ofDigitChars_cons]
    have more := ih (10 * acc + (c.toNat - '0'.toNat))
    omega

theorem readDigits_eq_ok_iff {limit acc n : Nat} {passed : NumeralError} {digits : List Char}
    (within : acc ≤ limit) :
    readDigits limit passed acc digits = .ok n ↔
      (∀ c ∈ digits, c.isDigit = true) ∧ Nat.ofDigitChars 10 digits acc = n ∧ n ≤ limit := by
  induction digits generalizing acc with
  | nil =>
    simp only [readDigits, Except.ok.injEq, List.not_mem_nil, Nat.ofDigitChars_nil]
    constructor
    · rintro rfl
      simp [within]
    · exact fun h => h.2.1
  | cons c rest ih =>
    simp only [readDigits, digitValue, Nat.ofDigitChars_cons, List.mem_cons, forall_eq_or_imp,
      Nat.mul_comm 10 acc]
    cases digit : c.isDigit with
    | false => simp
    | true =>
      by_cases beyond : limit < acc * 10 + (c.toNat - '0'.toNat)
      · have more := le_ofDigitChars rest (acc * 10 + (c.toNat - '0'.toNat))
        simp only [if_true, beyond, reduceCtorEq, false_iff]
        rintro ⟨-, rfl, fits⟩
        omega
      · simp only [if_true, beyond, if_false, true_and]
        exact ih (by omega)

def unsigned : List Char → List Char
  | '+' :: c :: rest => c :: rest
  | text => text

theorem unsigned_or (text : List Char) : text = unsigned text ∨ text = '+' :: unsigned text := by
  unfold unsigned
  split <;> simp

theorem unsigned_eq_nil_iff {text : List Char} : unsigned text = [] ↔ text = [] := by
  unfold unsigned
  split <;> simp

theorem unsigned_of_digits {digits : List Char} (all : ∀ c ∈ digits, c.isDigit = true) :
    unsigned digits = digits := by
  unfold unsigned
  split
  next => simp at all
  next => rfl

theorem unsigned_plus {digits : List Char} (given : digits ≠ []) :
    unsigned ('+' :: digits) = digits := by
  cases digits with
  | nil => exact absurd rfl given
  | cons c rest => rfl

theorem denotes_iff {text : List Char} {n : Nat} :
    Denotes text n ↔
      text ≠ [] ∧ (∀ c ∈ unsigned text, c.isDigit = true) ∧
        Nat.ofDigitChars 10 (unsigned text) 0 = n := by
  constructor
  · rintro ⟨digits, given, all, rfl | rfl, value⟩
    · rw [unsigned_of_digits all]
      exact ⟨given, all, value⟩
    · rw [unsigned_plus given]
      exact ⟨List.cons_ne_nil _ _, all, value⟩
  · rintro ⟨given, all, value⟩
    exact ⟨unsigned text, mt unsigned_eq_nil_iff.1 given, all, unsigned_or text, value⟩

theorem readNatural_eq (limit : Nat) {text : List Char} (given : text ≠ []) :
    readNatural limit text = readDigits limit .tooLarge 0 (unsigned text) := by
  unfold readNatural
  split
  next => exact absurd rfl given
  next => rfl
  next unsignedText => rw [unsigned.eq_2 _ unsignedText]

theorem readNatural_eq_ok_iff {limit n : Nat} {text : List Char} :
    readNatural limit text = .ok n ↔ Denotes text n ∧ n ≤ limit := by
  by_cases given : text = []
  · subst given
    simp [readNatural, denotes_iff]
  · rw [readNatural_eq limit given, readDigits_eq_ok_iff (Nat.zero_le limit), denotes_iff]
    simp [given, and_assoc]

theorem Denotes.unique {text : List Char} {m n : Nat} (first : Denotes text m)
    (second : Denotes text n) : m = n := by
  rw [denotes_iff] at first second
  exact first.2.2.symm.trans second.2.2

theorem Denotes.starts {text : List Char} {n : Nat} (numeral : Denotes text n) :
    ∃ c rest, text = c :: rest ∧ c ≠ '-' ∧ c ≠ '=' := by
  obtain ⟨digits, given, all, rfl | rfl, -⟩ := numeral
  · cases text with
    | nil => exact absurd rfl given
    | cons c rest =>
      have digit := all c List.mem_cons_self
      refine ⟨c, rest, rfl, ?_, ?_⟩ <;> rintro rfl <;> exact absurd digit (by decide)
  · exact ⟨'+', digits, rfl, by decide, by decide⟩

-- A signed number without a minus sign is read as an unsigned one of half the range.
theorem readSigned_of_denotes {text : List Char} {n : Nat} (numeral : Denotes text n)
    (fits : n < signedSize) : readSigned text = .ok n := by
  obtain ⟨given, all, value⟩ := denotes_iff.1 numeral
  have digits : readDigits (signedSize - 1) .tooLarge 0 (unsigned text) = .ok n :=
    (readDigits_eq_ok_iff (Nat.zero_le _)).2 ⟨all, value, by omega⟩
  unfold readSigned
  split
  next => exact absurd rfl given
  next => exact congrArg (Except.map Int.ofNat) digits
  next => simp [unsigned] at all
  next signless _ =>
    rw [unsigned.eq_2 _ signless] at digits
    exact congrArg (Except.map Int.ofNat) digits

end Decimal

end Chip8.Text
