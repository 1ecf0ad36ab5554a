import Chip8.Proofs.Observation
import Chip8.Proofs.Span
import Chip8.Proofs.Step
import Mathlib.Control.Monad.Basic

set_option autoImplicit false

namespace Chip8

open Layout (Contained ramSize)

namespace Store

variable {start len : Nat}

def spanHalt (start len : Nat) : Option (Halt Fault) :=
  if 0 < len ∧ UInt64.size ≤ start + len then some (.trap .overflow)
  else (spanRefusal start len).map .error

theorem spanHalt_of_overflow (pos : 0 < len) (large : UInt64.size ≤ start + len) :
    spanHalt start len = some (.trap .overflow) := by
  rw [spanHalt, if_pos ⟨pos, large⟩]

theorem spanHalt_of_fits (fits : len = 0 ∨ start + len < UInt64.size) :
    spanHalt start len = (spanRefusal start len).map .error := by
  rw [spanHalt, if_neg (by omega)]

theorem spanHalt_eq_none_iff : spanHalt start len = none ↔ len = 0 ∨ Contained start len := by
  by_cases overflows : 0 < len ∧ UInt64.size ≤ start + len
  · have outside : ¬ Contained start len := fun inside => by
      have := inside.le_ramSize
      simp only [ramSize, UInt64.size] at *
      omega
    rw [spanHalt_of_overflow overflows.1 overflows.2]
    simp [outside, Nat.pos_iff_ne_zero.1 overflows.1]
  · rw [spanHalt_of_fits (by omega), Option.map_eq_none_iff, spanRefusal_eq_none_iff]

theorem spanHalt_eq_trap_iff {t : Trap} :
    spanHalt start len = some (.trap t) ↔
      0 < len ∧ UInt64.size ≤ start + len ∧ t = .overflow := by
  by_cases overflows : 0 < len ∧ UInt64.size ≤ start + len
  · simp [spanHalt, overflows, eq_comm]
  · rw [spanHalt, if_neg overflows]
    simp only [Option.map_eq_some_iff, reduceCtorEq, and_false, exists_false, false_iff]
    exact fun large => overflows ⟨large.1, large.2.1⟩

theorem spanHalt_eq_error_iff {fault : Fault} :
    spanHalt start len = some (.error fault) ↔
      0 < len ∧ start + len < UInt64.size ∧ ¬ Contained start len ∧
        fault = .protectionViolation start (start + len - 1) := by
  by_cases overflows : 0 < len ∧ UInt64.size ≤ start + len
  · simp only [spanHalt, if_pos overflows, Option.some.injEq, reduceCtorEq, false_iff]
    omega
  · rw [spanHalt, if_neg overflows, spanRefusal]
    by_cases accepted : len = 0 ∨ Contained start len
    · simp only [if_pos accepted, Option.map_none, reduceCtorEq, false_iff]
      rintro ⟨pos, _, outside, _⟩
      exact accepted.elim (Nat.pos_iff_ne_zero.1 pos) outside
    · obtain ⟨pos, outside⟩ := not_or.1 accepted
      rw [if_neg accepted, Option.map_some, Option.some.injEq, Halt.error.injEq, eq_comm]
      have fits : start + len < UInt64.size := by omega
      simp [Nat.pos_iff_ne_zero.2 pos, fits, outside]

theorem readSpan_answer (s : Store) (start len : Nat) :
    s.readSpan start len =
      match spanHalt start len with
      | none => .ok (s.bytes start len)
      | some halt => .error halt := by
  rcases Nat.eq_zero_or_pos len with rfl | pos
  · simp [readSpan, spanHalt_eq_none_iff.2 (.inl rfl), bytes]
  · rcases Nat.lt_or_ge (start + len) UInt64.size with small | large
    · rw [readSpan_eq s small, spanHalt_of_fits (.inr small)]
      cases spanRefusal start len <;> rfl
    · rw [spanHalt_of_overflow pos large, readSpan, if_neg (Nat.pos_iff_ne_zero.1 pos), checkSpan,
        if_pos large]
      rfl

theorem writeSpan_answer (s : Store) (start : Nat) (data : List UInt8) :
    s.writeSpan start data =
      match spanHalt start data.length with
      | none => .ok { s with ram := s.ram.overwrite start data }
      | some halt => .error halt := by
  by_cases empty : data = []
  · subst empty
    simp [writeSpan, spanHalt_eq_none_iff.2 (.inl rfl), Ram.overwrite]
  · rcases Nat.lt_or_ge (start + data.length) UInt64.size with small | large
    · rw [writeSpan_eq s small, spanHalt_of_fits (.inr small)]
      cases spanRefusal start data.length <;> rfl
    · rw [spanHalt_of_overflow (List.length_pos_iff.2 empty) large, writeSpan, if_neg empty,
        checkSpan, if_pos large]
      rfl

end Store

namespace Exec

variable {α : Type} {start len : Nat}

structure Guarded (m : Machine) (start len : Nat) (result : Except (Halt Fault) α × Machine) :
    Prop where
  accepted : (∃ a, result.1 = .ok a) ↔ len = 0 ∨ Contained start len
  trapped (t : Trap) : result.1 = .error (.trap t) ↔
    0 < len ∧ UInt64.size ≤ start + len ∧ t = .overflow
  refused (fault : Fault) : result.1 = .error (.error fault) ↔
    0 < len ∧ start + len < UInt64.size ∧ ¬ Contained start len ∧
      fault = .protectionViolation start (start + len - 1)
  unchanged : (len = 0 ∨ ∃ halt, result.1 = .error halt) → result.2 = m

theorem guarded_of_spanHalt {m : Machine} {result : Except (Halt Fault) α × Machine}
    (stopped : ∀ halt, result.1 = .error halt ↔ Store.spanHalt start len = some halt)
    (unchanged : (len = 0 ∨ ∃ halt, result.1 = .error halt) → result.2 = m) :
    Guarded m start len result := by
  refine ⟨?_, fun t => (stopped _).trans Store.spanHalt_eq_trap_iff,
    fun fault => (stopped _).trans Store.spanHalt_eq_error_iff, unchanged⟩
  simp only [← Store.spanHalt_eq_none_iff, Option.eq_none_iff_forall_ne_some, ne_eq, ← stopped]
  cases result.1 <;> simp

theorem attempt_readSpan (m : Machine) (start len : Nat) :
    (inspect (·.readSpan start len)).attempt m =
      match Store.spanHalt start len with
      | none => (.ok (m.store.bytes start len), m)
      | some halt => (.error halt, m) := by
  rw [attempt, inspect_run, Store.readSpan_answer]
  cases Store.spanHalt start len <;> rfl

theorem attempt_writeSpan (m : Machine) (start : Nat) (data : List UInt8) :
    (update (·.writeSpan start data)).attempt m =
      match Store.spanHalt start data.length with
      | none => (.ok (), { m with store.ram := m.store.ram.overwrite start data })
      | some halt => (.error halt, m) := by
  rw [attempt, update_run, Store.writeSpan_answer]
  cases Store.spanHalt start data.length <;> rfl

theorem guarded_readSpan (m : Machine) (start len : Nat) :
    Guarded m start len ((inspect (·.readSpan start len)).attempt m) := by
  rw [attempt_readSpan]
  apply guarded_of_spanHalt
  · intro halt
    cases Store.spanHalt start len <;> simp
  · intro _
    cases Store.spanHalt start len <;> rfl

theorem guarded_writeSpan (m : Machine) (start : Nat) (data : List UInt8) :
    Guarded m start data.length ((update (·.writeSpan start data)).attempt m) := by
  rw [attempt_writeSpan]
  apply guarded_of_spanHalt
  · intro halt
    cases Store.spanHalt start data.length <;> simp
  · cases Store.spanHalt start data.length with
    | some halt => exact fun _ => rfl
    | none =>
      rintro (empty | ⟨halt, failed⟩)
      · obtain rfl := List.length_eq_zero_iff.1 empty
        rfl
      · cases failed

end Exec

inductive Access where
  | read (start len : Nat)
  | write (start : Nat) (data : List UInt8)
  | fetch (a : UInt16)
deriving DecidableEq, Repr

inductive Reply where
  | bytes (data : List UInt8)
  | written
  | word (w : UInt16)
deriving DecidableEq, Repr

def Access.effect : Access → Exec Reply
  | .read start len => return .bytes (← Exec.inspect (·.readSpan start len))
  | .write start data => do
    Exec.update (·.writeSpan start data)
    return .written
  | .fetch a => return .word (← Exec.inspect (·.readWord a))

abbrev Image : Type := Nat → UInt8

namespace Image

def overlaid (image : Image) (start : Nat) (data : List UInt8) : Image := fun t =>
  if start ≤ t ∧ t < start + data.length then data.getD (t - start) 0 else image t

def access (image : Image) : Access → Except (Halt Fault) Reply × Image
  | .read start len =>
    match Store.spanHalt start len with
    | none => (.ok (.bytes ((List.range' start len).map image)), image)
    | some halt => (.error halt, image)
  | .write start data =>
    match Store.spanHalt start data.length with
    | none => (.ok .written, image.overlaid start data)
    | some halt => (.error halt, image)
  | .fetch a =>
    if a.toNat + 1 < ramSize then
      (.ok (.word (UInt16.ofNat (256 * (image a.toNat).toNat + (image (a.toNat + 1)).toNat))),
        image)
    else (.error (.error (.protectionViolation a.toNat (a.toNat + 1))), image)

end Image

namespace Machine

variable {m origin : Machine} {table : Image}

def access (m : Machine) (a : Access) : Except (Halt Fault) Reply × Machine :=
  a.effect.attempt m

def image (m : Machine) : Image := fun t =>
  m.store.ram.toList.getD t 0

theorem image_eq {t : Nat} (within : t < 4096) : m.image t = m.store.ram[t] := by
  simp [image, within]

theorem bytes_eq_image {start len : Nat} (inside : len = 0 ∨ Contained start len) :
    m.store.bytes start len = (List.range' start len).map m.image := by
  rcases inside with rfl | inside
  · simp [Store.bytes]
  · have within : start + len ≤ 4096 := inside.le_ramSize
    apply List.ext_getElem
    · simp [Store.length_bytes inside.le_ramSize]
    · intro k bound bound'
      have small : k < len := by simpa using bound'
      rw [Store.getElem_bytes within small, List.getElem_map, List.getElem_range', Nat.one_mul,
        image_eq (by omega)]

theorem image_overwrite {start : Nat} {data : List UInt8}
    (inside : data.length = 0 ∨ Contained start data.length) :
    image { m with store.ram := m.store.ram.overwrite start data } =
      m.image.overlaid start data := by
  funext t
  rw [Image.overlaid]
  rcases Nat.lt_or_ge t 4096 with within | beyond
  · rw [image_eq within, Ram.getElem_overwrite _ _ _ _ within, image_eq within]
    split
    · next covered => simp [show t - start < data.length by omega]
    · rfl
  · have outside : ¬ (start ≤ t ∧ t < start + data.length) := by
      rcases inside with empty | inside
      · omega
      · have : start + data.length ≤ 4096 := inside.le_ramSize
        omega
    rw [if_neg outside]
    simp [image, beyond]

structure Shows (origin m : Machine) (table : Image) : Prop where
  image : m.image = table
  rest : m = { origin with store.ram := m.store.ram }

theorem access_read (m : Machine) (start len : Nat) :
    m.access (.read start len) =
      match Store.spanHalt start len with
      | none => (.ok (.bytes (m.store.bytes start len)), m)
      | some halt => (.error halt, m) := by
  rw [access, Access.effect, Exec.attempt_map, Exec.attempt_readSpan]
  cases Store.spanHalt start len <;> rfl

theorem access_write (m : Machine) (start : Nat) (data : List UInt8) :
    m.access (.write start data) =
      match Store.spanHalt start data.length with
      | none => (.ok .written, { m with store.ram := m.store.ram.overwrite start data })
      | some halt => (.error halt, m) := by
  refine (Exec.attempt_map _ (fun _ => Reply.written) m).trans ?_
  rw [Exec.attempt_writeSpan]
  cases Store.spanHalt start data.length <;> rfl

theorem readWord_eq_image {a : UInt16} (within : a.toNat + 1 < 4096) :
    m.store.readWord a =
      .ok (UInt16.ofNat (256 * (m.image a.toNat).toNat + (m.image (a.toNat + 1)).toNat)) := by
  rw [Store.readWord, dif_pos within, image_eq within, image_eq (Nat.lt_of_succ_lt within),
    ← Word.toNat_bigEndian, UInt16.ofNat_toNat]

theorem access_fetch (m : Machine) (a : UInt16) :
    m.access (.fetch a) = ((m.image.access (.fetch a)).1, m) := by
  rw [access, Access.effect, Exec.attempt_map, Exec.attempt, Exec.inspect_run, Image.access]
  by_cases within : a.toNat + 1 < 4096
  · rw [readWord_eq_image within, if_pos (show a.toNat + 1 < ramSize from within)]
    rfl
  · rw [Store.readWord, dif_neg within, if_neg (show ¬ a.toNat + 1 < ramSize from within)]
    rfl

theorem shows_access (origin : Machine) : Simulates access Image.access origin.Shows := by
  intro m table shows a
  obtain rfl := shows.image
  cases a with
  | read start len =>
    rw [access_read, Image.access]
    cases halts : Store.spanHalt start len with
    | some halt => exact ⟨rfl, shows⟩
    | none =>
      rw [bytes_eq_image (Store.spanHalt_eq_none_iff.1 halts)]
      exact ⟨rfl, shows⟩
  | write start data =>
    rw [access_write, Image.access]
    cases halts : Store.spanHalt start data.length with
    | some halt => exact ⟨rfl, shows⟩
    | none =>
      refine ⟨rfl, image_overwrite (Store.spanHalt_eq_none_iff.1 halts), ?_⟩
      rw [shows.rest]
  | fetch a =>
    have kept : (m.image.access (.fetch a)).2 = m.image := by
      rw [Image.access]
      split <;> rfl
    rw [access_fetch, kept]
    exact ⟨rfl, shows⟩

/-- Spans are read and written alike: an empty one anywhere, one whose end leaves the word never,
any other exactly if it lies in one of the two regions; and what is refused changes nothing. Through
all accesses memory is a table of bytes over which accepted writes are laid, and nothing else of the
machine changes. -/
theorem accesses_are_guarded (m : Machine) :
    (∀ start len, Exec.Guarded m start len ((Exec.inspect (·.readSpan start len)).attempt m)) ∧
    (∀ start data,
      Exec.Guarded m start data.length ((Exec.update (·.writeSpan start data)).attempt m)) ∧
    (∀ start data later, data.length = 0 ∨ Contained start data.length →
      answers access m (.write start data :: later) =
        .ok .written :: answers Image.access (m.image.overlaid start data) later) ∧
    ∀ accesses,
      answers access m accesses = answers Image.access m.image accesses ∧
      (arrival access m accesses).image = arrival Image.access m.image accesses ∧
      ∃ ram, arrival access m accesses = { m with store.ram := ram } := by
  have begun : m.Shows m m.image := ⟨rfl, rfl⟩
  have replies := (shows_access m).answers_eq begun
  refine ⟨Exec.guarded_readSpan m, Exec.guarded_writeSpan m, ?_, fun accesses => ?_⟩
  · intro start data later inside
    have laid : m.image.access (.write start data) =
        (.ok .written, m.image.overlaid start data) := by
      rw [Image.access, Store.spanHalt_eq_none_iff.2 inside]
    rw [replies, answers, laid]
  · have shows := (shows_access m).arrival begun accesses
    exact ⟨replies accesses, shows.image, _, shows.rest⟩

theorem end_of_glyphs_is_guarded :
    answers access (fresh ⟨fun _ => 0, 0⟩)
        [.write 0x9E [1, 2], .read 0x9D 3, .fetch 0x9F, .write 0x9F [3, 4], .read 0x9F 1] =
      [.ok .written, .ok (.bytes [0xF0, 1, 2]), .ok (.word 0x0200),
        .error (.error (.protectionViolation 0x9F 0xA0)), .ok (.bytes [2])] := by
  obtain ⟨_, _, write, _⟩ := accesses_are_guarded (fresh ⟨fun _ => 0, 0⟩)
  rw [write 0x9E [1, 2] _ (by decide)]
  decide +kernel

end Machine

end Chip8
