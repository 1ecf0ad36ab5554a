import Chip8.Machine.Step
import Chip8.Proofs.CallStack
import Chip8.Proofs.Effects

set_option autoImplicit false

namespace Chip8.Machine

open Exec (flagOf overlay put word decimalDigits)

variable (m : Machine)

def refusal : Instruction → Option (Halt Fault)
  | .leave => if 16 < m.store.stack.depth then some (.trap .outOfRange) else none
  | .call target =>
    if 16 ≤ m.store.stack.depth then some (.error (.stackOverflow (word target))) else none
  | .draw _ _ rows => (Store.spanRefusal m.store.i.toNat rows).map .error
  | .glyph x =>
    if 16 ≤ (m.store.v.get x).toNat then some (.error (.invalidDigit (m.store.v.get x))) else none
  | .digits _ => (Store.spanRefusal m.store.i.toNat 3).map .error
  | .save x | .restore x => (Store.spanRefusal m.store.i.toNat (x + 1)).map .error
  | _ => none

def operated (v : Vector UInt8 16) (x y : Fin 16) : Operation → Vector UInt8 16
  | .copy => put v x (v.get y)
  | .or => put v x (v.get x ||| v.get y)
  | .and => put v x (v.get x &&& v.get y)
  | .xor => put v x (v.get x ^^^ v.get y)
  | .add =>
    put (put v vF (flagOf (255 < (v.get x).toNat + (v.get y).toNat))) x (v.get x + v.get y)
  | .sub => put (put v vF (flagOf (v.get y < v.get x))) x (v.get x - v.get y)
  | .shiftRight => put (put v x (v.get y >>> 1)) vF (v.get y &&& 0x01)
  | .subFrom => put (put v vF (flagOf (v.get x < v.get y))) x (v.get y - v.get x)
  | .shiftLeft => put (put v x (v.get y <<< 1)) vF (v.get y &&& 0x80)

def drawing (x y rows : Fin 16) : Frame × Bool :=
  m.frame.drawn (m.store.bytes m.store.i.toNat rows) (m.store.v.get x).toNat (m.store.v.get y).toNat

def registersAfter : Instruction → Vector UInt8 16
  | .set x value => put m.store.v x value
  | .add x value => put m.store.v x (m.store.v.get x + value)
  | .operate op x y => operated m.store.v x y op
  | .random x mask => put m.store.v x (m.random.byte &&& mask)
  | .draw x y rows => put m.store.v vF (flagOf (m.drawing x y rows).2)
  | .readDelay x => put m.store.v x m.store.delay
  | .awaitKey x =>
    match m.keypad.first with
    | some key => put m.store.v x (UInt8.ofNat key)
    | none => m.store.v
  | .restore x => overlay m.store.v 0 (m.store.bytes m.store.i.toNat (x + 1))
  | _ => m.store.v

def indexAfter : Instruction → UInt16
  | .setIndex target => word target
  | .addIndex x => m.store.i + (m.store.v.get x).toUInt16
  | .glyph x => UInt16.ofNat (Layout.glyphStart + (m.store.v.get x).toNat * Font.glyphRows)
  | _ => m.store.i

def skips : Instruction → Bool
  | .skipEq x value => m.store.v.get x == value
  | .skipNe x value => m.store.v.get x != value
  | .skipEqReg x y => m.store.v.get x == m.store.v.get y
  | .skipNeReg x y => m.store.v.get x != m.store.v.get y
  | .skipHeld x => m.keypad.isDown (m.store.v.get x)
  | .skipFree x => !m.keypad.isDown (m.store.v.get x)
  | _ => false

def innermost : Option (UInt16 × CallStack) :=
  match m.store.stack.pop with
  | .ok top => top
  | .error _ => none

def counterAfter (i : Instruction) : UInt16 :=
  match i with
  | .leave => (m.innermost.map Prod.fst).getD m.store.pc
  | .jump target | .call target => word target
  | .jumpFrom target => word target + (m.store.v.get v0).toUInt16
  | _ => if m.skips i then m.store.pc + 2 else m.store.pc

def stackAfter : Instruction → CallStack
  | .leave => (m.innermost.map Prod.snd).getD m.store.stack
  | .call _ => (m.store.stack.push? m.store.pc).getD m.store.stack
  | _ => m.store.stack

def ramAfter : Instruction → Ram
  | .digits x => m.store.ram.overwrite m.store.i.toNat (decimalDigits (m.store.v.get x))
  | .save x => m.store.ram.overwrite m.store.i.toNat (m.store.v.toList.take (x + 1))
  | _ => m.store.ram

def delayAfter : Instruction → UInt8
  | .setDelay x => m.store.v.get x
  | _ => m.store.delay

def soundAfter : Instruction → UInt8
  | .setSound x => m.store.v.get x
  | _ => m.store.sound

def frameAfter : Instruction → Frame
  | .clear => .blank
  | .draw x y rows => (m.drawing x y rows).1
  | _ => m.frame

def randomAfter : Instruction → Random.Source
  | .random _ _ => m.random.skip
  | _ => m.random

def after (i : Instruction) : Machine where
  store :=
    { ram := m.ramAfter i
      v := m.registersAfter i
      i := m.indexAfter i
      pc := m.counterAfter i
      stack := m.stackAfter i
      delay := m.delayAfter i
      sound := m.soundAfter i }
  frame := m.frameAfter i
  keypad := m.keypad
  random := m.randomAfter i

def progress : Instruction → Progress
  | .awaitKey x => if m.keypad.first = none then .awaitingKey x else .executed
  | _ => .executed

def outcome (i : Instruction) : EStateM.Result (Halt Fault) Machine Progress :=
  match m.refusal i with
  | some halt => .error halt m
  | none => .ok (m.progress i) (m.after i)

open Exec

theorem execute_operate (op : Operation) (x y : Fin 16) :
    execute (.operate op x y) m = m.outcome (.operate op x y) := by
  cases op <;>
    simp only [execute, done, operate, bind_run, pure_run, register_run, setRegister_run,
      setFlag_run] <;> rfl

theorem execute_jumpFrom (target : Fin 4096) :
    execute (.jumpFrom target) m = m.outcome (.jumpFrom target) := by
  have first : register 0 m = .ok (m.store.v.get v0) m := register_run m v0
  simp only [execute, done, bind_run, pure_run, change_run, jump, first, offset_run]
  rfl

theorem execute_leave : execute .leave m = m.outcome .leave := by
  rcases Nat.lt_or_ge 16 m.store.stack.depth with beyond | room
  · have popped := CallStack.pop_of_beyond beyond
    have refused : m.refusal .leave = some (.trap .outOfRange) := if_pos beyond
    simp only [execute, done, bind_run, update_run, Store.leave, popped, outcome, refused]
  · have accepted : m.refusal .leave = none := if_neg (Nat.not_lt.2 room)
    rcases Nat.eq_zero_or_pos m.store.stack.depth with empty | pos
    · have popped := CallStack.pop_of_empty empty
      simp only [execute, done, bind_run, pure_run, update_run, Store.leave, popped, outcome,
        accepted, after, counterAfter, stackAfter, innermost]
      rfl
    · have popped := CallStack.pop_of_within pos room
      simp only [execute, done, bind_run, pure_run, update_run, Store.leave, popped, outcome,
        accepted, after, counterAfter, stackAfter, innermost]
      rfl

theorem execute_call (target : Fin 4096) : execute (.call target) m = m.outcome (.call target) := by
  rcases Nat.lt_or_ge m.store.stack.depth 16 with room | full
  · have pushed := CallStack.push?_of_room room m.store.pc
    have accepted : m.refusal (.call target) = none := if_neg (Nat.not_le.2 room)
    simp only [execute, done, bind_run, pure_run, update_run, Store.call, pushed, outcome,
      accepted, after, stackAfter]
    rfl
  · have pushed := CallStack.push?_of_full full m.store.pc
    have refused : m.refusal (.call target) = some (.error (.stackOverflow (word target))) :=
      if_pos full
    simp only [execute, done, bind_run, update_run, Store.call, pushed, outcome, refused]

theorem execute_glyph (x : Fin 16) : execute (.glyph x) m = m.outcome (.glyph x) := by
  simp only [execute, done, bind_run, pure_run, register_run, update_run, Store.selectGlyph,
    outcome, refusal]
  by_cases beyond : 16 ≤ (m.store.v.get x).toNat
  · simp only [beyond, if_true]
  · have fits : Layout.glyphStart + (m.store.v.get x).toNat * Font.glyphRows < UInt16.size := by
      simp only [Layout.glyphStart, Font.glyphRows, UInt16.size]
      omega
    simp only [beyond, fits, if_true, if_false]
    rfl

theorem execute_draw (x y rows : Fin 16) :
    execute (.draw x y rows) m = m.outcome (.draw x y rows) := by
  have sprite := readSpan_run m rows (by omega)
  simp only [execute, done, draw, bind_run, pure_run, register_run, index_run, sprite, outcome,
    refusal]
  cases Store.spanRefusal m.store.i.toNat rows with
  | some fault => rfl
  | none =>
    simp only [blit_run, setFlag_run]
    rfl

theorem execute_digits (x : Fin 16) : execute (.digits x) m = m.outcome (.digits x) := by
  have count : (decimalDigits (m.store.v.get x)).length = 3 := rfl
  have written := writeSpan_run m (decimalDigits (m.store.v.get x)) (by omega)
  rw [count] at written
  simp only [execute, done, saveDigits, bind_run, pure_run, register_run, index_run, written,
    outcome, refusal]
  cases Store.spanRefusal m.store.i.toNat 3 <;> rfl

theorem execute_save (x : Fin 16) : execute (.save x) m = m.outcome (.save x) := by
  have count : (m.store.v.toList.take (x + 1)).length = x + 1 := by
    rw [List.length_take, Vector.length_toList]
    omega
  have written := writeSpan_run m (m.store.v.toList.take (x + 1)) (by omega)
  rw [count] at written
  simp only [execute, done, save, bind_run, pure_run, registersTo_run, index_run, written, outcome,
    refusal]
  cases Store.spanRefusal m.store.i.toNat (x + 1) <;> rfl

theorem execute_restore (x : Fin 16) : execute (.restore x) m = m.outcome (.restore x) := by
  have values := readSpan_run m (x + 1) (by omega)
  simp only [execute, done, restore, bind_run, pure_run, index_run, values, outcome, refusal]
  cases refused : Store.spanRefusal m.store.i.toNat (x + 1) with
  | some fault => rfl
  | none =>
    have inside := (Store.spanRefusal_eq_none_iff.1 refused).resolve_left (by omega)
    have count := Store.length_bytes (s := m.store) inside.le_ramSize
    have written := setRegisters_run m 0 (m.store.bytes m.store.i.toNat (x + 1)) (by omega)
    simp only [written]
    rfl

theorem execute_awaitKey (x : Fin 16) : execute (.awaitKey x) m = m.outcome (.awaitKey x) := by
  simp only [execute, awaitKey, bind_run, get_run, outcome, refusal, progress, after,
    registersAfter]
  cases held : m.keypad.first with
  | none =>
    simp only [bind_run, pure_run, register_run]
    rfl
  | some key =>
    simp only [bind_run, pure_run, setRegister_run]
    rfl

theorem execute_eq (i : Instruction) : execute i m = m.outcome i := by
  cases i with
  | operate op x y => exact m.execute_operate op x y
  | jumpFrom target => exact m.execute_jumpFrom target
  | leave => exact m.execute_leave
  | call target => exact m.execute_call target
  | glyph x => exact m.execute_glyph x
  | draw x y rows => exact m.execute_draw x y rows
  | digits x => exact m.execute_digits x
  | save x => exact m.execute_save x
  | restore x => exact m.execute_restore x
  | awaitKey x => exact m.execute_awaitKey x
  | skipEq | skipNe | skipEqReg | skipNeReg | skipHeld | skipFree =>
    simp only [execute, done, skipIfPair, skipIfKey, bind_run, pure_run, get_run, register_run,
      skipIf_run, beq_true, beq_false]
    rfl
  | clear | jump | setIndex | set | add | random | readDelay | setDelay | setSound | addIndex =>
    simp only [execute, done, bind_run, pure_run, get_run, modify_run, change_run, register_run,
      setRegister_run, index_run, randomByte_run, jump, setIndex, setRandom]
    rfl

end Chip8.Machine
