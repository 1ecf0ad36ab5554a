import Chip8.Launch
import Chip8.Proofs.Access

set_option autoImplicit false

namespace Chip8

open Layout (Contained programStart programEnd programLimit)

def supplied (program : List UInt8) (i : Nat) : Option UInt8 :=
  if program.length ≤ programLimit then program[i]? else none

def lastSupplied (programs : List (List UInt8)) (i : Nat) : Option UInt8 :=
  programs.reverse.findSome? fun program => supplied program i

theorem lastSupplied_cons (program : List UInt8) (rest : List (List UInt8)) (i : Nat) :
    lastSupplied (program :: rest) i = (lastSupplied rest i).or (supplied program i) := by
  simp [lastSupplied, List.findSome?_append, List.findSome?_singleton]

theorem programOfFile_eq_ok_iff {file : Except OsError (List UInt8)} {program : List UInt8} :
    programOfFile file = .ok program ↔ file = .ok program := by
  cases file <;> simp [programOfFile]

namespace Image

variable {image : Image} {program : List UInt8}

def load (image : Image) (program : List UInt8) : Except (Halt Failure) Unit × Image :=
  if programLimit < program.length then
    (.error (.error (.programTooLarge program.length programLimit)), image)
  else (.ok (), image.overlaid programStart program)

theorem load_at_offset (i : Nat) :
    (image.load program).2 (programStart + i) =
      (supplied program i).getD (image (programStart + i)) := by
  by_cases large : programLimit < program.length
  · simp [load, supplied, large, Nat.not_le.2 large]
  · by_cases reached : i < program.length <;>
      simp [load, supplied, large, Nat.not_lt.1 large, overlaid, reached]

theorem load_elsewhere {a : Nat} (elsewhere : a < programStart ∨ programEnd ≤ a) :
    (image.load program).2 a = image a := by
  by_cases large : programLimit < program.length
  · simp [load, large]
  · have outside : ¬ (programStart ≤ a ∧ a < programStart + program.length) := by
      simp only [programLimit] at large
      omega
    simp [load, large, overlaid, outside]

theorem arrival_load_at_offset (image : Image) (programs : List (List UInt8)) (i : Nat) :
    arrival load image programs (programStart + i) =
      (lastSupplied programs i).getD (image (programStart + i)) := by
  induction programs generalizing image with
  | nil => rfl
  | cons program rest ih =>
    have next : arrival load image (program :: rest) = arrival load (image.load program).2 rest :=
      rfl
    rw [next, ih, load_at_offset, lastSupplied_cons]
    cases lastSupplied rest i <;> simp

theorem arrival_load_elsewhere {a : Nat} (elsewhere : a < programStart ∨ programEnd ≤ a)
    (programs : List (List UInt8)) : arrival load image programs a = image a := by
  induction programs generalizing image with
  | nil => rfl
  | cons program rest ih => exact ih.trans (load_elsewhere elsewhere)

end Image

namespace Machine

variable {m : Machine} {program : List UInt8}

theorem load_eq (m : Machine) (program : List UInt8) :
    m.load program =
      if programLimit < program.length then
        (.error (.error (.programTooLarge program.length programLimit)), m)
      else (.ok (), { m with store.ram := m.store.ram.overwrite programStart program }) := by
  rw [load, Store.load_eq]
  by_cases large : programLimit < program.length <;> simp [large]

theorem load_of_large (large : programLimit < program.length) :
    m.load program = (.error (.error (.programTooLarge program.length programLimit)), m) := by
  simp [load_eq, large]

theorem load_of_small (small : program.length ≤ programLimit) :
    m.load program =
      (.ok (), { m with store.ram := m.store.ram.overwrite programStart program }) := by
  simp [load_eq, Nat.not_lt.2 small]

theorem contained_program (small : program.length ≤ programLimit) :
    Contained programStart program.length := by
  simp only [Contained, programLimit, programEnd, programStart, Layout.ramSize,
    Layout.reservedTop] at small ⊢
  omega

theorem shows_load (origin : Machine) : Simulates load Image.load origin.Shows := by
  intro m table shows program
  obtain rfl := shows.image
  by_cases large : programLimit < program.length
  · simpa [load_of_large large, Image.load, large] using shows
  · have small := Nat.not_lt.1 large
    rw [load_of_small small, Image.load, if_neg large]
    refine ⟨rfl, image_overwrite (.inr (contained_program small)), ?_⟩
    rw [shows.rest]

theorem readSpan_load (small : program.length ≤ programLimit) :
    (m.load program).2.store.readSpan programStart program.length = .ok program := by
  have inside := contained_program small
  rw [load_of_small small, Store.readSpan_answer, Store.spanHalt_eq_none_iff.2 (.inr inside)]
  exact congrArg Except.ok (m.store.bytes_overwrite inside.le_ramSize)

theorem image_load (small : program.length ≤ programLimit) {i : Nat} (h : i < program.length) :
    (m.load program).2.image (programStart + i) = program[i] := by
  rw [load_of_small small, image_overwrite (.inr (contained_program small))]
  simp [Image.overlaid, h]

theorem readWord_load (small : program.length ≤ programLimit) {k : Nat}
    (within : 2 * k + 1 < program.length) :
    ∃ w, (m.load program).2.store.readWord (UInt16.ofNat (programStart + 2 * k)) = .ok w ∧
      w.toNat = 256 * program[2 * k].toNat + program[2 * k + 1].toNat := by
  have inside : programStart + program.length ≤ 4096 := (contained_program small).le_ramSize
  have place : (UInt16.ofNat (programStart + 2 * k)).toNat = programStart + 2 * k :=
    UInt16.toNat_ofNat_of_lt' (by simp only [UInt16.size]; omega)
  have first : 2 * k < program.length := by omega
  have high := program[2 * k].toNat_lt
  have low := program[2 * k + 1].toNat_lt
  refine ⟨_, readWord_eq_image (by omega), ?_⟩
  rw [place, Nat.add_assoc, image_load small first, image_load small within, UInt16.toNat_ofNat']
  omega

variable (m program) in
structure Loads : Prop where
  rejected : (m.load program).1 =
    .error (.error (.programTooLarge program.length programLimit)) ↔ programLimit < program.length
  accepted : (m.load program).1 = .ok () ↔ program.length ≤ programLimit
  unchanged : programLimit < program.length → (m.load program).2 = m
  bytes : program.length ≤ programLimit →
    (m.load program).2.store.readSpan programStart program.length = .ok program
  words (k : Nat) (h : 2 * k + 1 < program.length) : program.length ≤ programLimit →
    ∃ w, (m.load program).2.store.readWord (UInt16.ofNat (programStart + 2 * k)) = .ok w ∧
      w.toNat = 256 * program[2 * k].toNat + program[2 * k + 1].toNat

theorem loads (m : Machine) (program : List UInt8) : m.Loads program where
  rejected := by
    by_cases large : programLimit < program.length <;> simp [load_eq, large]
  accepted := by
    by_cases large : programLimit < program.length <;> simp [load_eq, large, Nat.le_of_not_lt]
  unchanged large := by simp [load_of_large large]
  bytes := readSpan_load
  words _ within small := readWord_load small within

/-- After any sequence of programs the byte at an offset is that of the last program that was
accepted and reaches it, and all that lies outside the program region is as it was. A program that
is too large is turned away and changes nothing; any other is read back just as it was loaded, and
just as its file holds it. -/
theorem last_loaded_bytes_stay (m : Machine) (programs : List (List UInt8)) :
    (∀ (n : Machine) (program : List UInt8), n.Loads program) ∧
    (∀ (i : Nat) (h : programStart + i < 4096),
      (arrival load m programs).store.ram[programStart + i] =
        (lastSupplied programs i).getD m.store.ram[programStart + i]) ∧
    (∃ ram, arrival load m programs = { m with store.ram := ram } ∧
      ∀ (a : Nat) (h : a < 4096), a < programStart ∨ programEnd ≤ a → ram[a] = m.store.ram[a]) ∧
    ∀ (file : Except OsError (List UInt8)) (program : List UInt8),
      programOfFile file = .ok program ↔ file = .ok program := by
  have begun : m.Shows m m.image := ⟨rfl, rfl⟩
  have shows := (shows_load m).arrival begun programs
  refine ⟨loads, fun i within => ?_, ⟨_, shows.rest, fun a within elsewhere => ?_⟩,
    fun _ _ => programOfFile_eq_ok_iff⟩
  · rw [← image_eq within, ← image_eq within, shows.image, Image.arrival_load_at_offset]
  · rw [← image_eq within, ← image_eq within, shows.image,
      Image.arrival_load_elsewhere elsewhere]

-- The second program is too large, and the third covers only a part of the first.
def threePrograms : List (List UInt8) :=
  [[0x12, 0x34, 0x56], List.replicate 3233 0xFF, [0xAB]]

theorem short_program_over_longer :
    (arrival load (fresh ⟨fun _ => 0, 0⟩) threePrograms).store.ram[0x200] = 0xAB ∧
      (arrival load (fresh ⟨fun _ => 0, 0⟩) threePrograms).store.ram[0x201] = 0x34 ∧
      (arrival load (fresh ⟨fun _ => 0, 0⟩) threePrograms).store.ram[0x203] = 0 ∧
      (arrival load (fresh ⟨fun _ => 0, 0⟩) threePrograms).store.ram[0x09F] = 0x80 ∧
      ((fresh ⟨fun _ => 0, 0⟩).load [0xAB]).2.store.readSpan 0x200 1 = .ok [0xAB] := by
  obtain ⟨loads, offsets, ⟨ram, same, elsewhere⟩, _⟩ :=
    last_loaded_bytes_stay (fresh ⟨fun _ => 0, 0⟩) threePrograms
  rw [same] at offsets ⊢
  exact ⟨(offsets 0 (by decide)).trans (by decide +kernel),
    (offsets 1 (by decide)).trans (by decide +kernel),
    (offsets 3 (by decide)).trans (by decide +kernel),
    (elsewhere 0x09F (by decide) (by decide)).trans (by decide +kernel),
    (loads _ [0xAB]).bytes (by decide)⟩

end Machine

end Chip8
