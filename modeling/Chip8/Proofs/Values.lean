import Chip8.CommandLine.Value
import Chip8.Proofs.Numeral
import Mathlib.Control.Monad.Basic

set_option autoImplicit false

namespace Chip8

-- The factors that are known are those that no other one is taken for.
theorem Host.Scale.mem_factors_iff {n : Nat} : n ∈ factors ↔ (ofFactor n).factor = n := by
  constructor
  · intro known
    simp only [factors, List.mem_cons, List.not_mem_nil, or_false] at known
    rcases known with rfl | rfl | rfl | rfl | rfl | rfl <;> rfl
  · intro same
    rw [← same]
    cases ofFactor n <;> decide

namespace CommandLine

open Text

variable {text : String} {n : Nat}

theorem readRate_of_denotes (numeral : Denotes text.toList n) (positive : 1 ≤ n)
    (fits : n ≤ rateLimit) : readRate text = .ok n := by
  have small : n < signedSize := Nat.lt_of_le_of_lt fits (by decide)
  have bounds : (1 : Int) ≤ n ∧ (n : Int) ≤ rateLimit := by omega
  simp [readRate, readSigned_of_denotes numeral small, bounds]

theorem rate_of_read (read : readRate text = .ok n) : 1 ≤ n ∧ n ≤ rateLimit := by
  unfold readRate at read
  split at read
  next => cases read
  next rate _ =>
    split at read
    next bounds =>
      cases read
      omega
    next => cases read

theorem readSeed_eq_ok_iff : readSeed text = .ok n ↔ Denotes text.toList n ∧ n < UInt64.size := by
  have limit : n < UInt64.size ↔ n ≤ UInt64.size - 1 := by
    have positive : 0 < UInt64.size := by decide
    omega
  rw [limit, ← readNatural_eq_ok_iff]
  unfold readSeed
  cases readNatural (UInt64.size - 1) text.toList with
  | error e => simp only [reduceCtorEq]
  | ok m => simp only [Except.ok.injEq]

theorem readScale_of_number (numeral : Denotes text.toList n) (fits : n < UInt64.size) :
    readScale text = if n ∈ Host.Scale.factors then .ok n else .error .notAScale := by
  have number := readNatural_eq_ok_iff.2 ⟨numeral, Nat.le_sub_one_of_lt fits⟩
  rw [readScale, number]

theorem readScale_of_other (other : ¬∃ n, Denotes text.toList n ∧ n < UInt64.size) :
    readScale text = .error (.notANumber text) := by
  unfold readScale
  split
  next => rfl
  next n number =>
    obtain ⟨numeral, fits⟩ := readNatural_eq_ok_iff.1 number
    have positive : 0 < UInt64.size := by decide
    exact absurd ⟨n, numeral, by omega⟩ other

theorem lt_of_mem_factors (known : n ∈ Host.Scale.factors) : n < UInt64.size := by
  have all : ∀ n ∈ Host.Scale.factors, n < UInt64.size := by decide
  exact all n known

theorem readScale_eq_ok_iff :
    readScale text = .ok n ↔ Denotes text.toList n ∧ n ∈ Host.Scale.factors := by
  constructor
  · intro read
    by_cases other : ∃ n, Denotes text.toList n ∧ n < UInt64.size
    · obtain ⟨m, numeral, fits⟩ := other
      rw [readScale_of_number numeral fits] at read
      split at read
      next known =>
        cases read
        exact ⟨numeral, known⟩
      next => cases read
    · rw [readScale_of_other other] at read
      cases read
  · rintro ⟨numeral, known⟩
    rw [readScale_of_number numeral (lt_of_mem_factors known), if_pos known]

theorem notAScale_message :
    ValueError.notAScale.message = "scale must be one of [1, 2, 4, 8, 16, 32]" := by
  decide +kernel

theorem notANumber_message :
    (ValueError.notANumber text).message = "`" ++ text ++ "` is not a number" :=
  rfl

theorem notANumber_ne_notAScale :
    (ValueError.notANumber text).message ≠ ValueError.notAScale.message := by
  intro same
  have letters := congrArg String.toList same
  rw [notANumber_message, notAScale_message] at letters
  simp at letters

def scaleAnswer (text : String) : Except String Nat :=
  (readScale text).mapError ValueError.message

theorem scaleAnswer_of_number (numeral : Denotes text.toList n) (fits : n < UInt64.size) :
    scaleAnswer text =
      if n ∈ Host.Scale.factors then .ok n else .error ValueError.notAScale.message := by
  rw [scaleAnswer, readScale_of_number numeral fits]
  split <;> rfl

theorem scaleAnswer_of_other (other : ¬∃ n, Denotes text.toList n ∧ n < UInt64.size) :
    scaleAnswer text = .error (ValueError.notANumber text).message := by
  rw [scaleAnswer, readScale_of_other other]
  rfl

theorem scaleAnswer_eq_ok_iff :
    scaleAnswer text = .ok n ↔ Denotes text.toList n ∧ n ∈ Host.Scale.factors := by
  rw [← readScale_eq_ok_iff, scaleAnswer]
  cases readScale text <;> simp [Except.mapError]

theorem scaleAnswer_eq_notANumber_iff :
    scaleAnswer text = .error (.notANumber text : ValueError).message ↔
      ¬∃ n, Denotes text.toList n ∧ n < UInt64.size := by
  constructor
  · rintro refused ⟨n, numeral, fits⟩
    rw [scaleAnswer_of_number numeral fits] at refused
    split at refused
    next => cases refused
    next => exact notANumber_ne_notAScale (Except.error.inj refused).symm
  · exact scaleAnswer_of_other

theorem scaleAnswer_eq_notAScale_iff :
    scaleAnswer text = .error ValueError.notAScale.message ↔
      ∃ n, Denotes text.toList n ∧ n < UInt64.size ∧ n ∉ Host.Scale.factors := by
  constructor
  · intro refused
    by_cases number : ∃ n, Denotes text.toList n ∧ n < UInt64.size
    · obtain ⟨n, numeral, fits⟩ := number
      refine ⟨n, numeral, fits, fun known => ?_⟩
      rw [scaleAnswer_of_number numeral fits, if_pos known] at refused
      cases refused
    · rw [scaleAnswer_of_other number] at refused
      exact absurd (Except.error.inj refused) notANumber_ne_notAScale
  · rintro ⟨n, numeral, fits, unknown⟩
    rw [scaleAnswer_of_number numeral fits, if_neg unknown]

theorem no_number_iff :
    (¬∃ n, Denotes text.toList n ∧ n < UInt64.size) ↔
      (¬∃ n, Denotes text.toList n) ∨ ∃ n, Denotes text.toList n ∧ UInt64.size ≤ n := by
  constructor
  · intro none
    by_cases numeral : ∃ n, Denotes text.toList n
    · obtain ⟨n, numeral⟩ := numeral
      have large : ¬n < UInt64.size := fun fits => none ⟨n, numeral, fits⟩
      exact .inr ⟨n, numeral, Nat.le_of_not_lt large⟩
    · exact .inl numeral
  · rintro (none | ⟨m, large, passed⟩) ⟨n, numeral, fits⟩
    · exact none ⟨n, numeral⟩
    · rw [numeral.unique large] at fits
      omega

/-- A text is read as a scale if and only if it is a numeral for a factor that windows have. What is
no numeral, or one that takes more than 64 bits, is not a number, and any other number is no scale.
The window enlarges by the factor that was read and by no other. -/
theorem scales_are_read_by_their_grammar (text : String) :
    (∀ n, scaleAnswer text = .ok n ↔ Denotes text.toList n ∧ n ∈ [1, 2, 4, 8, 16, 32]) ∧
    (scaleAnswer text = .error ("`" ++ text ++ "` is not a number") ↔
      (¬∃ n, Denotes text.toList n) ∨ ∃ n, Denotes text.toList n ∧ UInt64.size ≤ n) ∧
    (scaleAnswer text = .error "scale must be one of [1, 2, 4, 8, 16, 32]" ↔
      ∃ n, Denotes text.toList n ∧ n < UInt64.size ∧ n ∉ [1, 2, 4, 8, 16, 32]) ∧
    ∀ n, scaleAnswer text = .ok n → (Host.Scale.ofFactor n).factor = n := by
  rw [← notANumber_message, ← notAScale_message, ← no_number_iff]
  refine ⟨fun n => scaleAnswer_eq_ok_iff, scaleAnswer_eq_notANumber_iff,
    scaleAnswer_eq_notAScale_iff, ?_⟩
  intro n read
  exact Host.Scale.mem_factors_iff.1 (scaleAnswer_eq_ok_iff.1 read).2

theorem odd_numerals_are_read_by_the_grammar :
    scaleAnswer "+0008" = .ok 8 ∧ (Host.Scale.ofFactor 8).factor = 8 ∧
      scaleAnswer "-0" = .error "`-0` is not a number" ∧
      scaleAnswer "18446744073709551616" = .error "`18446744073709551616` is not a number" ∧
      scaleAnswer "18446744073709551615" = .error "scale must be one of [1, 2, 4, 8, 16, 32]" := by
  have read : scaleAnswer "+0008" = .ok 8 := by decide +kernel
  obtain ⟨-, -, -, window⟩ := scales_are_read_by_their_grammar "+0008"
  exact ⟨read, window 8 read, by decide +kernel, by decide +kernel, by decide +kernel⟩

end CommandLine

end Chip8
