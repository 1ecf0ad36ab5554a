import Chip8.Proofs.Forms
import Chip8.Proofs.Keypad
import Chip8.Proofs.Safety

set_option autoImplicit false

namespace Chip8.Machine

open Exec (word)

/-- A failing step changes nothing but the program counter, and not even that if there was no word
to fetch. -/
theorem step_failure_changes_nothing {m : Machine} {failure : Failure}
    (failed : m.step.1 = .error (.error failure)) :
    ∃ word fault, failure = .cpu word m.store.pc fault ∧
      ((m.fetch = .error (.error fault) ∧ word = 0 ∧ m.step.2 = m) ∨
        (m.Fetches word ∧ m.step.2 = { m with store.pc := m.store.pc + 2 })) := by
  have stepped := m.stepped
  generalize m.step = result at *
  cases stepped with
  | beyond far =>
    cases failed
    exact ⟨0, _, rfl, .inl ⟨fetch_of_beyond far, rfl, rfl⟩⟩
  | unknown fetched =>
    cases failed
    exact ⟨_, _, rfl, .inr ⟨fetched, rfl⟩⟩
  | @refused i halt fetched =>
    cases halt with
    | error fault =>
      cases failed
      exact ⟨_, fault, rfl, .inr ⟨fetched, rfl⟩⟩
    | trap => cases failed
  | executed => cases failed

theorem refused_sprite_changes_nothing :
    (loaded [0xD0, 0x01]).step.1 =
        .error (.error (.cpu 0xD001 0x200 (.protectionViolation 0 0))) ∧
      (loaded [0xD0, 0x01]).step.2 = { loaded [0xD0, 0x01] with store.pc := 0x202 } := by
  obtain ⟨failed, fetch, next⟩ : (loaded [0xD0, 0x01]).step.1 =
        .error (.error (.cpu 0xD001 0x200 (.protectionViolation 0 0))) ∧
      (loaded [0xD0, 0x01]).fetch = .ok 0xD001 ∧ (loaded [0xD0, 0x01]).store.pc + 2 = 0x202 := by
    decide +kernel
  obtain ⟨word, fault, same, ⟨beyond, _⟩ | ⟨_, moved⟩⟩ := step_failure_changes_nothing failed
  · cases fetch.symm.trans beyond
  · rw [next] at moved
    exact ⟨failed, moved⟩

def Touches (w : UInt16) (len : Nat) : Prop :=
  (Form.Matches ⟨0xD, .x, .y, .n⟩ w ∧ 0 < w.toNat % 16 ∧ len = w.toNat % 16) ∨
  (Form.Matches ⟨0xF, .x, 0x3, 0x3⟩ w ∧ len = 3) ∨
  ((Form.Matches ⟨0xF, .x, 0x5, 0x5⟩ w ∨ Form.Matches ⟨0xF, .x, 0x6, 0x5⟩ w) ∧
    len = w.toNat / 256 % 16 + 1)

variable (m : Machine)

def Overflows (w : UInt16) : Prop :=
  Form.Matches ⟨0x2, .n, .n, .n⟩ w ∧ m.store.stack.depth = 16

def LacksGlyph (w : UInt16) : Prop :=
  Form.Matches ⟨0xF, .x, 0x2, 0x9⟩ w ∧ 0xF < (m.store.v.get (Word.x w)).toNat

def Violates (w : UInt16) (len : Nat) : Prop :=
  Touches w len ∧ ¬ Layout.Contained m.store.i.toNat len

def LacksKey (w : UInt16) : Prop :=
  Form.Matches ⟨0xF, .x, 0x0, 0xA⟩ w ∧ ∀ code, m.keypad.isDown code = false

structure Free (w : UInt16) : Prop where
  room : ¬ m.Overflows w
  glyph : ¬ m.LacksGlyph w
  span (len : Nat) : ¬ m.Violates w len
  key : ¬ m.LacksKey w

inductive Ending (w : UInt16) : Answer → Prop where
  | unknown (h : ∀ f ∈ Form.all, ¬ f.Matches w) :
    Ending w (.error (.error (.cpu w m.store.pc .unknownInstruction)))
  | overflow (h : m.Overflows w) :
    Ending w (.error (.error (.cpu w m.store.pc (.stackOverflow (word (Word.target w))))))
  | noGlyph (h : m.LacksGlyph w) :
    Ending w (.error (.error (.cpu w m.store.pc (.invalidDigit (m.store.v.get (Word.x w))))))
  | violation {len : Nat} (h : m.Violates w len) :
    Ending w (.error (.error (.cpu w m.store.pc
      (.protectionViolation m.store.i.toNat (m.store.i.toNat + len - 1)))))
  | awaiting (h : m.LacksKey w) : Ending w (.ok (.awaitingKey (Word.x w)))
  | executed (listed : ∃ f ∈ Form.all, f.Matches w) (h : m.Free w) : Ending w (.ok .executed)

variable {m} {i : Instruction}

theorem refusal_of_overflows (h : m.Overflows i.encode) :
    m.refusal i = some (.error (.stackOverflow (word (Word.target i.encode)))) := by
  obtain ⟨matched, full⟩ := h
  have form := (Instruction.matches_encode_iff (by decide)).1 matched
  cases i with
  | call target =>
    rw [Instruction.target_call, refusal, if_pos (by omega)]
  | _ => cases form

theorem refusal_of_lacksGlyph (h : m.LacksGlyph i.encode) :
    m.refusal i = some (.error (.invalidDigit (m.store.v.get (Word.x i.encode)))) := by
  obtain ⟨matched, large⟩ := h
  have form := (Instruction.matches_encode_iff (by decide)).1 matched
  cases i with
  | glyph x =>
    simp only [Instruction.x_glyph] at large ⊢
    rw [refusal, if_pos (by omega)]
  | _ => cases form

theorem spanRefusal_of_not_contained {start len : Nat} (pos : 0 < len)
    (outside : ¬ Layout.Contained start len) :
    Store.spanRefusal start len = some (.protectionViolation start (start + len - 1)) :=
  if_neg (not_or.2 ⟨by omega, outside⟩)

theorem refusal_of_violates {len : Nat} (h : m.Violates i.encode len) :
    m.refusal i = some (.error
      (.protectionViolation m.store.i.toNat (m.store.i.toNat + len - 1))) := by
  obtain ⟨touched, outside⟩ := h
  rcases touched with ⟨matched, pos, rfl⟩ | ⟨matched, rfl⟩ | ⟨matched, rfl⟩
  · have form := (Instruction.matches_encode_iff (by decide)).1 matched
    cases i with
    | draw x y rows =>
      rw [Instruction.last_draw] at pos outside ⊢
      rw [refusal, spanRefusal_of_not_contained pos outside]
      rfl
    | _ => cases form
  · have form := (Instruction.matches_encode_iff (by decide)).1 matched
    cases i with
    | digits x =>
      rw [refusal, spanRefusal_of_not_contained (by decide) outside]
      rfl
    | _ => cases form
  · have form : i.form = ⟨0xF, .x, 0x5, 0x5⟩ ∨ i.form = ⟨0xF, .x, 0x6, 0x5⟩ :=
      matched.imp (Instruction.matches_encode_iff (by decide)).1
        (Instruction.matches_encode_iff (by decide)).1
    cases i with
    | save x | restore x =>
      rw [Instruction.encode, Instruction.second_withValue (by decide)] at outside ⊢
      rw [refusal, spanRefusal_of_not_contained (by omega) outside]
      rfl
    | _ => rcases form with form | form <;> cases form

theorem awaits_of_lacksKey (h : m.LacksKey i.encode) :
    m.refusal i = none ∧ m.progress i = .awaitingKey (Word.x i.encode) := by
  obtain ⟨matched, noKey⟩ := h
  have form := (Instruction.matches_encode_iff (by decide)).1 matched
  cases i with
  | awaitKey x =>
    rw [Instruction.x_awaitKey]
    exact ⟨rfl, if_pos (Keypad.first_eq_none_iff.2 noKey)⟩
  | _ => cases form

theorem spanRefusal_of_free (len : Nat) (free : m.Free i.encode)
    (touched : 0 < len → Touches i.encode len) :
    Store.spanRefusal m.store.i.toNat len = none := by
  rw [Store.spanRefusal_eq_none_iff]
  rcases Nat.eq_zero_or_pos len with empty | pos
  · exact .inl empty
  · by_cases inside : Layout.Contained m.store.i.toNat len
    · exact .inr inside
    · exact absurd ⟨touched pos, inside⟩ (free.span len)

theorem executes_of_free (room : m.store.stack.depth ≤ 16) (free : m.Free i.encode) :
    m.refusal i = none ∧ m.progress i = .executed := by
  have matched := i.matches_form
  cases i with
  | leave => exact ⟨if_neg (Nat.not_lt.2 room), rfl⟩
  | call target =>
    have notFull : m.store.stack.depth ≠ 16 := fun full => free.room ⟨matched, full⟩
    exact ⟨if_neg (by omega), rfl⟩
  | glyph x =>
    have small : ¬ 0xF < (m.store.v.get x).toNat := by
      intro large
      refine free.glyph ⟨matched, ?_⟩
      simp only [Instruction.x_glyph]
      exact large
    exact ⟨if_neg (by omega), rfl⟩
  | draw x y rows =>
    have rows_eq := Instruction.last_draw x y rows
    have accepted := spanRefusal_of_free rows free
      fun pos => .inl ⟨matched, rows_eq ▸ pos, rows_eq.symm⟩
    rw [refusal, accepted]
    exact ⟨rfl, rfl⟩
  | digits x =>
    have accepted := spanRefusal_of_free 3 free fun _ => .inr (.inl ⟨matched, rfl⟩)
    rw [refusal, accepted]
    exact ⟨rfl, rfl⟩
  | save x =>
    have count : x.val + 1 = (Instruction.save x).encode.toNat / 256 % 16 + 1 := by
      rw [Instruction.encode, Instruction.second_withValue (by decide)]
    have accepted := spanRefusal_of_free (x + 1) free fun _ => .inr (.inr ⟨.inl matched, count⟩)
    rw [refusal, accepted]
    exact ⟨rfl, rfl⟩
  | restore x =>
    have count : x.val + 1 = (Instruction.restore x).encode.toNat / 256 % 16 + 1 := by
      rw [Instruction.encode, Instruction.second_withValue (by decide)]
    have accepted := spanRefusal_of_free (x + 1) free fun _ => .inr (.inr ⟨.inr matched, count⟩)
    rw [refusal, accepted]
    exact ⟨rfl, rfl⟩
  | awaitKey x =>
    have someKey : m.keypad.first ≠ none := fun noKey =>
      free.key ⟨matched, Keypad.first_eq_none_iff.1 noKey⟩
    exact ⟨rfl, if_neg someKey⟩
  | _ => exact ⟨rfl, rfl⟩

variable {w : UInt16}

theorem exists_ending (m : Machine) (w : UInt16) : ∃ answer, m.Ending w answer := by
  by_cases listed : ∃ f ∈ Form.all, f.Matches w
  · by_cases overflow : m.Overflows w
    · exact ⟨_, .overflow overflow⟩
    by_cases noGlyph : m.LacksGlyph w
    · exact ⟨_, .noGlyph noGlyph⟩
    by_cases violation : ∃ len, m.Violates w len
    · obtain ⟨len, violation⟩ := violation
      exact ⟨_, .violation violation⟩
    by_cases noKey : m.LacksKey w
    · exact ⟨_, .awaiting noKey⟩
    exact ⟨_, .executed listed ⟨overflow, noGlyph, not_exists.1 violation, noKey⟩⟩
  · exact ⟨_, .unknown fun f present matched => listed ⟨f, present, matched⟩⟩

theorem Ending.listed {answer : Answer} (ending : m.Ending w answer) :
    answer = .error (.error (.cpu w m.store.pc .unknownInstruction)) ∨
      ∃ f ∈ Form.all, f.Matches w := by
  cases ending with
  | unknown => exact .inl rfl
  | overflow h | noGlyph h | awaiting h => exact .inr ⟨_, by decide, h.1⟩
  | violation h =>
    rcases h.1 with ⟨matched, _⟩ | ⟨matched, _⟩ | ⟨matched | matched, _⟩ <;>
      exact .inr ⟨_, by decide, matched⟩
  | executed listed => exact .inr listed

-- The conditions ask nothing of the program counter, so they hold of the machine that has moved on.
theorem step_of_ending {answer : Answer} (room : m.store.stack.depth ≤ 16) (fetched : m.Fetches w)
    (ending : m.Ending w answer) : m.step.1 = answer := by
  cases decoded : Instruction.decode w with
  | none =>
    rw [step_of_unknown fetched decoded]
    rcases ending.listed with unknown | ⟨f, present, matched⟩
    · exact unknown.symm
    · exact absurd matched (Instruction.not_matches_of_decode decoded f present)
  | some i =>
    obtain rfl := Instruction.encode_of_decode decoded
    rw [step_of_encode fetched]
    cases ending with
    | unknown unlisted => exact absurd i.matches_form (unlisted i.form i.form_mem_all)
    | overflow h =>
      rw [refusal_of_overflows (m := m.advance) h]
      rfl
    | noGlyph h =>
      rw [refusal_of_lacksGlyph (m := m.advance) h]
      rfl
    | violation h =>
      rw [refusal_of_violates (m := m.advance) h]
      rfl
    | awaiting h =>
      obtain ⟨accepted, waiting⟩ := awaits_of_lacksKey (m := m.advance) h
      rw [accepted, waiting]
    | executed listed free =>
      have moved : m.advance.Free i.encode := ⟨free.room, free.glyph, free.span, free.key⟩
      obtain ⟨accepted, finished⟩ := executes_of_free (m := m.advance) room moved
      rw [accepted, finished]

theorem step_eq_iff {answer : Answer} (room : m.store.stack.depth ≤ 16) (fetched : m.Fetches w) :
    m.step.1 = answer ↔ m.Ending w answer := by
  constructor
  · rintro rfl
    obtain ⟨answer, ending⟩ := m.exists_ending w
    rw [step_of_ending room fetched ending]
    exact ending
  · exact step_of_ending room fetched

variable (m) in
def Fails (w : UInt16) (fault : Fault) : Prop :=
  m.step.1 = .error (.error (.cpu w m.store.pc fault))

variable (m) in
structure Verdict (w : UInt16) : Prop where
  unknown : m.Fails w .unknownInstruction ↔ ∀ f ∈ Form.all, ¬ f.Matches w
  overflow (a : UInt16) :
    m.Fails w (.stackOverflow a) ↔ m.Overflows w ∧ a.toNat = w.toNat % 4096
  noGlyph (d : UInt8) :
    m.Fails w (.invalidDigit d) ↔ m.LacksGlyph w ∧ d = m.store.v.get (Word.x w)
  violation (first last : Nat) :
    m.Fails w (.protectionViolation first last) ↔
      ∃ len, m.Violates w len ∧ first = m.store.i.toNat ∧ last = m.store.i.toNat + len - 1
  awaiting (x : Fin 16) : m.step.1 = .ok (.awaitingKey x) ↔ m.LacksKey w ∧ x = Word.x w
  executed :
    m.step.1 = .ok .executed ↔ (∃ f ∈ Form.all, f.Matches w) ∧ m.Free w

theorem verdict (room : m.store.stack.depth ≤ 16) (fetched : m.Fetches w) : m.Verdict w where
  unknown := by
    refine (step_eq_iff room fetched).trans ⟨?_, .unknown⟩
    intro ending
    cases ending with
    | unknown h => exact h
  overflow a := by
    have target : (word (Word.target w)).toNat = w.toNat % 4096 := by
      simp only [word, Word.target, UInt16.toNat_ofNat']
      omega
    refine (step_eq_iff room fetched).trans ⟨?_, ?_⟩
    · intro ending
      cases ending with
      | overflow h => exact ⟨h, target⟩
    · intro condition
      obtain ⟨h, value⟩ := condition
      obtain rfl := UInt16.toNat_inj.1 (value.trans target.symm)
      exact .overflow h
  noGlyph d := by
    refine (step_eq_iff room fetched).trans ⟨?_, ?_⟩
    · intro ending
      cases ending with
      | noGlyph h => exact ⟨h, rfl⟩
    · intro condition
      obtain ⟨h, rfl⟩ := condition
      exact .noGlyph h
  violation first last := by
    refine (step_eq_iff room fetched).trans ⟨?_, ?_⟩
    · intro ending
      cases ending with
      | violation h => exact ⟨_, h, rfl, rfl⟩
    · intro condition
      obtain ⟨len, h, rfl, rfl⟩ := condition
      exact .violation h
  awaiting x := by
    refine (step_eq_iff room fetched).trans ⟨?_, ?_⟩
    · intro ending
      cases ending with
      | awaiting h => exact ⟨h, rfl⟩
    · intro condition
      obtain ⟨h, rfl⟩ := condition
      exact .awaiting h
  executed := by
    refine (step_eq_iff room fetched).trans ⟨?_, ?_⟩
    · intro ending
      cases ending with
      | executed listed free => exact ⟨listed, free⟩
    · intro both
      exact .executed both.1 both.2

theorem not_violates_zero {len : Nat} : ¬ m.Violates 0 len := by
  rintro ⟨⟨matched, _⟩ | ⟨matched, _⟩ | ⟨matched | matched, _⟩, _⟩ <;>
    exact absurd matched.1 (by decide : (0 : Nat) / 4096 ≠ _)

theorem Ending.word_eq {w' pc : UInt16} {fault : Fault}
    (ending : m.Ending w (.error (.error (.cpu w' pc fault)))) : w' = w := by
  cases ending <;> rfl

theorem fails_beyond_iff (room : m.store.stack.depth ≤ 16) :
    m.Fails 0 (.protectionViolation m.store.pc.toNat (m.store.pc.toNat + 1)) ↔
      0xFFF ≤ m.store.pc.toNat := by
  constructor
  · intro failed
    by_cases beyond : 0xFFF ≤ m.store.pc.toNat
    · exact beyond
    obtain ⟨w, fetched⟩ := exists_fetches (Nat.not_le.1 beyond)
    obtain rfl := ((step_eq_iff room fetched).1 failed).word_eq
    obtain ⟨len, violation, _⟩ := ((verdict room fetched).violation _ _).1 failed
    exact absurd violation not_violates_zero
  · intro beyond
    exact congrArg Prod.fst (step_of_beyond beyond)

theorem not_invalidRegister (room : m.store.stack.depth ≤ 16) (word pc : UInt16) (register : Nat) :
    m.step.1 ≠ .error (.error (.cpu word pc (.invalidRegister register))) := by
  intro failed
  rcases Nat.lt_or_ge m.store.pc.toNat 0xFFF with within | beyond
  · obtain ⟨w, fetched⟩ := exists_fetches within
    cases (step_eq_iff room fetched).1 failed
  · rw [step_of_beyond beyond] at failed
    cases failed

/-- How every step ends, on a stack that is not too deep. No stack ever is. -/
theorem step_verdict :
    (∀ m : Machine, m.Reachable → m.store.stack.depth ≤ 16) ∧
    ∀ m : Machine, m.store.stack.depth ≤ 16 →
      (m.Fails 0 (.protectionViolation m.store.pc.toNat (m.store.pc.toNat + 1)) ↔
        0xFFF ≤ m.store.pc.toNat) ∧
      (m.store.pc.toNat < 0xFFF → ∃ w, m.Fetches w ∧ m.Verdict w) ∧
      ∀ word pc register,
        m.step.1 ≠ .error (.error (.cpu word pc (.invalidRegister register))) := by
  refine ⟨fun m reachable => reachable.sound.stack.depth, fun m room => ⟨?_, ?_, ?_⟩⟩
  · exact fails_beyond_iff room
  · intro within
    obtain ⟨w, fetched⟩ := exists_fetches within
    exact ⟨w, fetched, verdict room fetched⟩
  · exact not_invalidRegister room

theorem endless_calls_verdict :
    ((loaded [0x22, 0x00]).performAll (List.replicate 16 .step)).store.stack.depth ≤ 16 ∧
      ∃ w, ((loaded [0x22, 0x00]).performAll (List.replicate 16 .step)).Fetches w ∧
        ((loaded [0x22, 0x00]).performAll (List.replicate 16 .step)).Verdict w := by
  obtain ⟨room, within⟩ :
      ((loaded [0x22, 0x00]).performAll (List.replicate 16 .step)).store.stack.depth ≤ 16 ∧
        ((loaded [0x22, 0x00]).performAll (List.replicate 16 .step)).store.pc.toNat < 0xFFF := by
    decide +kernel
  exact ⟨room, (step_verdict.2 _ room).2.1 within⟩

end Chip8.Machine
