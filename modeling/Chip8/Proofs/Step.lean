import Chip8.Instruction.Lemmas
import Chip8.Proofs.Execution

set_option autoImplicit false

namespace Chip8

theorem Word.toNat_bigEndian (high low : UInt8) :
    (high.toUInt16 <<< 8 ||| low.toUInt16).toNat = 256 * high.toNat + low.toNat := by
  have highSmall := high.toNat_lt
  have lowSmall := low.toNat_lt
  have shifted : (high.toUInt16 <<< 8).toNat = high.toNat <<< 8 := by
    simp only [UInt16.toNat_shiftLeft, UInt8.toNat_toUInt16, Nat.shiftLeft_eq]
    simp
    omega
  rw [UInt16.toNat_or, shifted, UInt8.toNat_toUInt16, ← Nat.shiftLeft_add_eq_or_of_lt lowSmall,
    Nat.shiftLeft_eq]
  omega

namespace Machine

variable (m : Machine)

def Fetches (w : UInt16) : Prop :=
  ∃ _ : m.store.pc.toNat + 1 < 4096,
    w.toNat = 256 * m.store.ram[m.store.pc.toNat].toNat + m.store.ram[m.store.pc.toNat + 1].toNat

variable {m}

theorem toNat_word (target : Fin 4096) : (Exec.word target).toNat = target := by
  simp only [Exec.word, UInt16.toNat_ofNat']
  omega

theorem toNat_advance (bound : m.store.pc.toNat ≤ 0xFFFD) :
    m.advance.store.pc.toNat = m.store.pc.toNat + 2 := by
  simp only [advance, Store.advance, UInt16.toNat_add, UInt16.reduceToNat]
  omega

theorem fetch_eq_ok_iff {w : UInt16} : m.fetch = .ok w ↔ m.Fetches w := by
  unfold fetch Store.readWord Fetches
  by_cases within : m.store.pc.toNat + 1 < 4096
  · rw [dif_pos within, Except.ok.injEq, ← UInt16.toNat_inj, Word.toNat_bigEndian]
    simp only [within, exists_true_left, eq_comm]
  · simp [within]

theorem fetch_of_beyond (beyond : 0xFFF ≤ m.store.pc.toNat) :
    m.fetch = .error (.error (.protectionViolation m.store.pc.toNat (m.store.pc.toNat + 1))) := by
  rw [fetch, Store.readWord, dif_neg (by omega)]

theorem exists_fetches (within : m.store.pc.toNat < 0xFFF) : ∃ w, m.Fetches w := by
  obtain ⟨w, fetch⟩ : ∃ w, m.fetch = .ok w := ⟨_, dif_pos (by omega)⟩
  exact ⟨w, fetch_eq_ok_iff.1 fetch⟩

theorem Fetches.lt {w : UInt16} (fetched : m.Fetches w) : m.store.pc.toNat < 0xFFF := by
  obtain ⟨within, _⟩ := fetched
  omega

theorem Fetches.unique {w w' : UInt16} (fetched : m.Fetches w) (fetched' : m.Fetches w') :
    w = w' := by
  obtain ⟨_, value⟩ := fetched
  obtain ⟨_, value'⟩ := fetched'
  exact UInt16.toNat_inj.1 (value.trans value'.symm)

theorem step_of_beyond (beyond : 0xFFF ≤ m.store.pc.toNat) :
    m.step =
      (.error (.error (.cpu 0 m.store.pc
        (.protectionViolation m.store.pc.toNat (m.store.pc.toNat + 1)))), m) := by
  rw [step, fetch_of_beyond beyond]
  rfl

theorem step_of_unknown {w : UInt16} (fetched : m.Fetches w) (h : Instruction.decode w = none) :
    m.step = (.error (.error (.cpu w m.store.pc .unknownInstruction)), m.advance) := by
  simp only [step, fetch_eq_ok_iff.2 fetched, executeWord, h]

def obey (m : Machine) (i : Instruction) : Except (Halt Failure) Progress × Machine :=
  m.advance.executeWord m.store.pc i.encode

theorem step_eq_obey {i : Instruction} (fetched : m.Fetches i.encode) : m.step = m.obey i := by
  simp only [step, fetch_eq_ok_iff.2 fetched, obey]

theorem obey_eq (m : Machine) (i : Instruction) :
    m.obey i =
      match m.advance.refusal i with
      | some halt => (.error (halt.map (.cpu i.encode m.store.pc)), m.advance)
      | none => (.ok (m.advance.progress i), m.advance.after i) := by
  simp only [obey, executeWord, Instruction.decode_encode, execute_eq, outcome]
  cases m.advance.refusal i <;> rfl

theorem obey_of_accepted {i : Instruction} (accepted : m.advance.refusal i = none) :
    m.obey i = (.ok (m.advance.progress i), m.advance.after i) := by
  simp only [obey_eq, accepted]

theorem span_accepted {start len : Nat} (accepted : len = 0 ∨ Layout.Contained start len) :
    (Store.spanRefusal start len).map Halt.error = none :=
  Option.map_eq_none_iff.2 (Store.spanRefusal_eq_none_iff.2 accepted)

theorem obey_span_iff {i : Instruction} (len : Nat)
    (span : m.advance.refusal i = (Store.spanRefusal m.store.i.toNat len).map .error)
    (ends : m.advance.progress i = .executed) :
    (m.obey i).1 = .ok .executed ↔ len = 0 ∨ Layout.Contained m.store.i.toNat len := by
  rw [← Store.spanRefusal_eq_none_iff]
  cases refused : Store.spanRefusal m.store.i.toNat len <;> simp [obey_eq, span, ends, refused]

theorem step_of_encode {i : Instruction} (fetched : m.Fetches i.encode) :
    m.step =
      match m.advance.refusal i with
      | some halt => (.error (halt.map (.cpu i.encode m.store.pc)), m.advance)
      | none => (.ok (m.advance.progress i), m.advance.after i) :=
  (step_eq_obey fetched).trans (m.obey_eq i)

theorem step_of_awaitKey {x : Fin 16} (fetched : m.Fetches (Instruction.awaitKey x).encode) :
    m.step =
      match m.keypad.first with
      | none => (.ok (.awaitingKey x), m.advance)
      | some key =>
        (.ok .executed, { m.advance with store.v := Exec.put m.store.v x (UInt8.ofNat key) }) := by
  have same : m.advance.keypad = m.keypad := rfl
  rw [step_of_encode fetched]
  cases first : m.keypad.first with
  | none =>
    simp only [refusal, progress, after, registersAfter, same, first, if_true]
    rfl
  | some key =>
    simp only [refusal, progress, after, registersAfter, same, first, reduceCtorEq, if_false]
    rfl

variable (m) in
inductive Stepped : Except (Halt Failure) Progress × Machine → Prop where
  | beyond (h : 0xFFF ≤ m.store.pc.toNat) :
    Stepped (.error (.error (.cpu 0 m.store.pc
      (.protectionViolation m.store.pc.toNat (m.store.pc.toNat + 1)))), m)
  | unknown {w : UInt16} (fetched : m.Fetches w) (h : Instruction.decode w = none) :
    Stepped (.error (.error (.cpu w m.store.pc .unknownInstruction)), m.advance)
  | refused {i : Instruction} {halt : Halt Fault} (fetched : m.Fetches i.encode)
    (h : m.advance.refusal i = some halt) :
    Stepped (.error (halt.map (.cpu i.encode m.store.pc)), m.advance)
  | executed {i : Instruction} (fetched : m.Fetches i.encode) (h : m.advance.refusal i = none) :
    Stepped (.ok (m.advance.progress i), m.advance.after i)

theorem stepped (m : Machine) : m.Stepped m.step := by
  rcases Nat.lt_or_ge m.store.pc.toNat 0xFFF with within | beyond
  · obtain ⟨w, fetched⟩ := exists_fetches within
    cases decoded : Instruction.decode w with
    | none =>
      rw [step_of_unknown fetched decoded]
      exact .unknown fetched decoded
    | some i =>
      obtain rfl := Instruction.encode_of_decode decoded
      rw [step_of_encode fetched]
      cases h : m.advance.refusal i with
      | none => exact .executed fetched h
      | some halt => exact .refused fetched h
  · rw [step_of_beyond beyond]
    exact .beyond beyond

end Machine

end Chip8
