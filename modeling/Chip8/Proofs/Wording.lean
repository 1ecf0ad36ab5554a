import Chip8.Log
import Chip8.Proofs.Numeral

set_option autoImplicit false

namespace Chip8

open Text

theorem toList_address (width n : Nat) :
    (address width n).toList = '0' :: 'x' :: hexPadded width n := by
  simp [address, toList_hex]

theorem exists_openings {opening opening' heading heading' details details' : List Char}
    (begins : opening <+: heading) (begins' : opening' <+: heading')
    (same : heading ++ details = heading' ++ details') :
    ∃ rest rest', opening ++ rest = opening' ++ rest' := by
  obtain ⟨rest, rfl⟩ := begins
  obtain ⟨rest', rfl⟩ := begins'
  rw [List.append_assoc, List.append_assoc] at same
  exact ⟨_, _, same⟩

namespace Fault

def heading : Fault → String
  | .invalidRegister _ => "invalid register V"
  | .invalidDigit _ => "invalid font digit "
  | .stackOverflow _ => "stack overflow calling subroutine at "
  | .protectionViolation .. => "memory protection violation accessing "
  | .unknownInstruction => "unknown instruction"

def opening : Fault → List Char
  | .invalidRegister _ => ['i', 'n', 'v', 'a', 'l', 'i', 'd', ' ', 'r']
  | .invalidDigit _ => ['i', 'n', 'v', 'a', 'l', 'i', 'd', ' ', 'f']
  | .stackOverflow _ => ['s']
  | .protectionViolation .. => ['m']
  | .unknownInstruction => ['u']

def details : Fault → List Char
  | .invalidRegister register => hexPadded 1 register
  | .invalidDigit digit => '0' :: 'x' :: hexPadded 2 digit.toNat
  | .stackOverflow target => '0' :: 'x' :: hexPadded 3 target.toNat
  | .protectionViolation first last =>
    '0' :: 'x' :: (hexPadded 3 first ++ '.' :: '.' :: '=' :: '0' :: 'x' :: hexPadded 3 last)
  | .unknownInstruction => []

theorem opening_prefix (fault : Fault) : fault.opening <+: fault.heading.toList := by
  cases fault <;> simp [opening, heading]

-- Each clause of the message is stated as it stands: unfolding it would evaluate the literals.
theorem toList_message (fault : Fault) :
    fault.message.toList = fault.heading.toList ++ fault.details := by
  cases fault with
  | invalidRegister register =>
    change ("invalid register V" ++ hex 1 register).toList = _
    rw [String.toList_append, toList_hex]
    rfl
  | invalidDigit digit =>
    change ("invalid font digit " ++ address 2 digit.toNat).toList = _
    rw [String.toList_append, toList_address]
    rfl
  | stackOverflow target =>
    change ("stack overflow calling subroutine at " ++ address 3 target.toNat).toList = _
    rw [String.toList_append, toList_address]
    rfl
  | protectionViolation first last =>
    change ("memory protection violation accessing " ++ address 3 first ++ "..=" ++
      address 3 last).toList = _
    simp only [String.toList_append, toList_address, List.append_assoc, List.cons_append]
    rfl
  | unknownInstruction => exact (List.append_nil _).symm

theorem message_inj {a b : Fault} : a.message = b.message ↔ a = b := by
  refine ⟨fun same => ?_, congrArg message⟩
  have letters := congrArg String.toList same
  rw [toList_message, toList_message] at letters
  obtain ⟨rest, rest', openings⟩ := exists_openings a.opening_prefix b.opening_prefix letters
  cases a with
  | invalidRegister m =>
    cases b with
    | invalidRegister n =>
      have digits := List.append_cancel_left letters
      simpa [details, hexPadded_inj] using digits
    | _ => simp [opening] at openings
  | invalidDigit m =>
    cases b with
    | invalidDigit n =>
      have digits := List.append_cancel_left letters
      simpa [details, hexPadded_inj, UInt8.toNat_inj] using digits
    | _ => simp [opening] at openings
  | stackOverflow m =>
    cases b with
    | stackOverflow n =>
      have digits := List.append_cancel_left letters
      simpa [details, hexPadded_inj, UInt16.toNat_inj] using digits
    | _ => simp [opening] at openings
  | protectionViolation first last =>
    cases b with
    | protectionViolation first' last' =>
      have digits := List.append_cancel_left letters
      simp only [details, List.cons.injEq, true_and] at digits
      have dot : isHexDigit '.' = false := by decide
      obtain ⟨firsts, rests⟩ := hexPadded_append_inj (ends_cons.2 dot) (ends_cons.2 dot) digits
      simp only [List.cons.injEq, true_and] at rests
      rw [firsts, hexPadded_inj.1 rests]
    | _ => simp [opening] at openings
  | unknownInstruction =>
    cases b with
    | unknownInstruction => rfl
    | _ => simp [opening] at openings

theorem bracket_not_mem (fault : Fault) : '(' ∉ fault.message.toList := by
  have digits (width n : Nat) : '(' ∉ hexPadded width n := by
    intro found
    exact absurd (isHexDigit_of_mem_hexPadded width n _ found) (by decide)
  rw [toList_message]
  cases fault <;> simp [heading, details, digits]

end Fault

namespace Failure

def heading : Failure → String
  | .cpu .. => "CPU Error: "
  | .programTooLarge .. => "Program is "
  | .io _ => "IO Error: "
  | .poison _ => "Mutex Poison Error: "
  | .window _ => "Minifb Error: "
  | .audio _ => "Audio Error: "

def opening : Failure → List Char
  | .cpu .. => ['C']
  | .programTooLarge .. => ['P']
  | .io _ => ['I']
  | .poison _ => ['M', 'u']
  | .window _ => ['M', 'i']
  | .audio _ => ['A']

def place (word pc : UInt16) : List Char :=
  '(' :: ("opcode ".toList ++ (hexPadded 4 word.toNat ++
    ' ' :: ("at 0x".toList ++ (hexPadded 3 pc.toNat ++ [')']))))

def details : Failure → List Char
  | .cpu word pc fault => fault.message.toList ++ [' '] ++ place word pc
  | .programTooLarge size limit =>
    Nat.toDigits 10 size ++
      ' ' :: ("bytes, only ".toList ++
        (Nat.toDigits 10 limit ++ ' ' :: "bytes fit in memory".toList))
  | .io text | .poison text | .window text | .audio text => text.toList

theorem opening_prefix (failure : Failure) : failure.opening <+: failure.heading.toList := by
  cases failure <;> simp [opening, heading]

theorem toList_message (failure : Failure) :
    failure.message.toList = failure.heading.toList ++ failure.details := by
  cases failure with
  | cpu word pc fault =>
    change ("CPU Error: " ++ fault.message ++ " (opcode " ++ hex 4 word.toNat ++ " at " ++
      address 3 pc.toNat ++ ")").toList = _
    simp [heading, details, place, toList_address, toList_hex]
  | programTooLarge size limit =>
    change ("Program is " ++ toString size ++ " bytes, only " ++ toString limit ++
      " bytes fit in memory").toList = _
    simp [heading, details]
  | io text => exact String.toList_append
  | poison text => exact String.toList_append
  | window text => exact String.toList_append
  | audio text => exact String.toList_append

theorem place_inj {word word' pc pc' : UInt16} (same : place word pc = place word' pc') :
    word = word' ∧ pc = pc' := by
  have blank : isHexDigit ' ' = false := by decide
  have bracket : isHexDigit ')' = false := by decide
  simp only [place, List.cons.injEq, true_and] at same
  obtain ⟨words, rests⟩ := hexPadded_append_inj (ends_cons.2 blank) (ends_cons.2 blank)
    (List.append_cancel_left same)
  simp only [List.cons.injEq, true_and] at rests
  obtain ⟨addresses, -⟩ := hexPadded_append_inj (ends_cons.2 bracket) (ends_cons.2 bracket)
    (List.append_cancel_left rests)
  exact ⟨UInt16.toNat_inj.1 words, UInt16.toNat_inj.1 addresses⟩

-- No fault's text holds a bracket, so the first one parts it from its place.
theorem cpu_details_inj {word word' pc pc' : UInt16} {fault fault' : Fault}
    (same : (cpu word pc fault).details = (cpu word' pc' fault').details) :
    word = word' ∧ pc = pc' ∧ fault = fault' := by
  have outside (fault : Fault) : ∀ c ∈ fault.message.toList ++ [' '], (c != '(') = true := by
    simp only [List.mem_append, List.mem_singleton, bne_iff_ne, ne_eq]
    rintro c (inFault | rfl)
    · rintro rfl
      exact fault.bracket_not_mem inFault
    · decide
  have bracket : ('(' != '(') = false := by decide
  obtain ⟨faults, places⟩ := run_append_inj (outside fault) (outside fault')
    (ends_cons.2 bracket) (ends_cons.2 bracket) same
  have texts := String.toList_inj.1 (List.append_cancel_right faults)
  obtain ⟨words, addresses⟩ := place_inj places
  exact ⟨words, addresses, Fault.message_inj.1 texts⟩

theorem programTooLarge_details_inj {size size' limit limit' : Nat}
    (same : (programTooLarge size limit).details = (programTooLarge size' limit').details) :
    size = size' ∧ limit = limit' := by
  have blank : ' '.isDigit = false := by decide
  obtain ⟨sizes, rests⟩ := toDigits_append_inj (ends_cons.2 blank) (ends_cons.2 blank) same
  simp only [List.cons.injEq, true_and] at rests
  obtain ⟨limits, -⟩ := toDigits_append_inj (ends_cons.2 blank) (ends_cons.2 blank)
    (List.append_cancel_left rests)
  exact ⟨sizes, limits⟩

theorem message_inj {a b : Failure} : a.message = b.message ↔ a = b := by
  refine ⟨fun same => ?_, congrArg message⟩
  have letters := congrArg String.toList same
  rw [toList_message, toList_message] at letters
  obtain ⟨rest, rest', openings⟩ := exists_openings a.opening_prefix b.opening_prefix letters
  cases a with
  | cpu word pc fault =>
    cases b with
    | cpu word' pc' fault' =>
      simp [cpu_details_inj (List.append_cancel_left letters)]
    | _ => simp [opening] at openings
  | programTooLarge size limit =>
    cases b with
    | programTooLarge size' limit' =>
      simp [programTooLarge_details_inj (List.append_cancel_left letters)]
    | _ => simp [opening] at openings
  | io text =>
    cases b with
    | io text' => exact congrArg io (String.toList_inj.1 (List.append_cancel_left letters))
    | _ => simp [opening] at openings
  | poison text =>
    cases b with
    | poison text' => exact congrArg poison (String.toList_inj.1 (List.append_cancel_left letters))
    | _ => simp [opening] at openings
  | window text =>
    cases b with
    | window text' => exact congrArg window (String.toList_inj.1 (List.append_cancel_left letters))
    | _ => simp [opening] at openings
  | audio text =>
    cases b with
    | audio text' => exact congrArg audio (String.toList_inj.1 (List.append_cancel_left letters))
    | _ => simp [opening] at openings

end Failure

namespace LogLine

theorem toList_render (line : LogLine) :
    line.render.toList = line.level.toList ++ ' ' :: line.text.toList := by
  simp [render]

theorem render_eq_failed_iff {line : LogLine} {failure : Failure} :
    line.render = (failed failure).render ↔ line = failed failure := by
  refine ⟨fun same => ?_, congrArg render⟩
  have letters := congrArg String.toList same
  rw [toList_render, toList_render] at letters
  cases line with
  | failed other =>
    have texts := List.append_cancel_left letters
    simp only [List.cons.injEq, true_and] at texts
    rw [Failure.message_inj.1 (String.toList_inj.1 texts)]
  | _ => simp [level] at letters

end LogLine

/-- The text of a fault or a failure tells all of it, so a logged line tells whether the machine
failed, and then with which word, at which address and by which fault. -/
theorem texts_are_unambiguous :
    (∀ a b : Fault, a.message = b.message ↔ a = b) ∧
    (∀ a b : Failure, a.message = b.message ↔ a = b) ∧
    ∀ (word pc : UInt16) (fault : Fault) (line : LogLine),
      line.render = (LogLine.failed (.cpu word pc fault)).render ↔
        line = .failed (.cpu word pc fault) :=
  ⟨fun _ _ => Fault.message_inj, fun _ _ => Failure.message_inj,
    fun _ _ _ _ => LogLine.render_eq_failed_iff⟩

end Chip8
