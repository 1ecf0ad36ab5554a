import Chip8.Proofs.Keypad
import Chip8.Proofs.Safety
import Chip8.Proofs.Pixels
import Mathlib.Logic.Function.Basic

set_option autoImplicit false

namespace Chip8

namespace Table

open Function (update)

def naturals (v : Vector UInt8 16) (k : Fin 16) : Nat :=
  (v.get k).toNat

def operated (v : Fin 16 → Nat) (x y : Fin 16) : Operation → Fin 16 → Nat
  | .copy => update v x (v y)
  | .or => update v x (v x ||| v y)
  | .and => update v x (v x &&& v y)
  | .xor => update v x (v x ^^^ v y)
  | .add => update (update v vF ((v x + v y) / 256)) x ((v x + v y) % 256)
  | .sub => update (update v vF (if v y < v x then 1 else 0)) x ((v x + 256 - v y) % 256)
  | .shiftRight => update (update v x (v y / 2)) vF (v y % 2)
  | .subFrom => update (update v vF (if v x < v y then 1 else 0)) x ((v y + 256 - v x) % 256)
  | .shiftLeft => update (update v x (2 * v y % 256)) vF (v y &&& 0x80)

variable (m : Machine)

def v : Fin 16 → Nat := naturals m.store.v

def index : Nat := m.store.i.toNat

def counter : Nat := m.store.pc.toNat

def byte (a : Nat) : Nat :=
  if h : a < 4096 then m.store.ram[a].toNat else 0

def held (code : Nat) : Bool :=
  decide (code ≤ 0xF) && m.keypad.mask.getLsbD code

def lowestHeld : Nat :=
  ((List.range 16).find? (held m)).getD 0

def Collides (x y rows : Fin 16) : Prop :=
  ∃ r, r < rows.val ∧ v m y % 32 + r < 32 ∧
    ∃ k, k < 8 ∧ (byte m (index m + r)).testBit (7 - k) = true ∧
      m.frame.pixel ((v m x + k) % 64) (v m y % 32 + r) = true

instance (x y rows : Fin 16) : Decidable (Collides m x y rows) := by
  unfold Collides
  infer_instance

def registersAfter : Instruction → Fin 16 → Nat
  | .set x value => update (v m) x value.toNat
  | .add x value => update (v m) x ((v m x + value.toNat) % 256)
  | .operate op x y => operated (v m) x y op
  | .random x mask => update (v m) x (m.random.byte.toNat &&& mask.toNat)
  | .draw x y rows => update (v m) vF (if Collides m x y rows then 1 else 0)
  | .readDelay x => update (v m) x m.store.delay.toNat
  | .awaitKey x => update (v m) x (lowestHeld m)
  | .restore x => fun k => if k ≤ x then byte m (index m + k) else v m k
  | _ => v m

def indexAfter : Instruction → Nat
  | .setIndex target => target
  | .addIndex x => (index m + v m x) % 65536
  | .glyph x => 0x050 + 5 * v m x
  | _ => index m

def skips : Instruction → Bool
  | .skipEq x value => v m x == value.toNat
  | .skipNe x value => v m x != value.toNat
  | .skipEqReg x y => v m x == v m y
  | .skipNeReg x y => v m x != v m y
  | .skipHeld x => held m (v m x)
  | .skipFree x => !held m (v m x)
  | _ => false

def counterAfter (i : Instruction) : Nat :=
  match i with
  | .leave => (m.store.stack.live.getLast?.map UInt16.toNat).getD (counter m + 2)
  | .jump target | .call target => target
  | .jumpFrom target => target + v m v0
  | _ => if skips m i then counter m + 4 else counter m + 2

open Exec (flagOf put)
open Machine (loaded)

theorem naturals_put (w : Vector UInt8 16) (x : Fin 16) (a : UInt8) :
    naturals (put w x a) = update (naturals w) x a.toNat := by
  funext k
  by_cases same : k = x
  · subst same
    rw [naturals, Exec.get_put_self, Function.update_self]
  · rw [naturals, Exec.get_put_of_ne w same, Function.update_of_ne same]
    rfl

theorem toNat_flagOf (c : Bool) : (flagOf c).toNat = if c then 1 else 0 := by
  cases c <;> rfl

theorem toNat_carry (a b : UInt8) :
    (flagOf (decide (255 < a.toNat + b.toNat))).toNat = (a.toNat + b.toNat) / 256 := by
  have ha := a.toNat_lt
  have hb := b.toNat_lt
  rw [toNat_flagOf]
  by_cases carry : 255 < a.toNat + b.toNat
  · rw [if_pos (decide_eq_true carry)]
    omega
  · rw [if_neg (by simpa using carry)]
    omega

theorem toNat_borrow (a b : UInt8) :
    (flagOf (decide (b < a))).toNat = if b.toNat < a.toNat then 1 else 0 := by
  simp only [toNat_flagOf, decide_eq_true_eq, UInt8.lt_iff_toNat_lt]

theorem toNat_sub (a b : UInt8) : (a - b).toNat = (a.toNat + 256 - b.toNat) % 256 := by
  have hb := b.toNat_lt
  rw [UInt8.toNat_sub]
  omega

theorem toNat_half (a : UInt8) : (a >>> 1).toNat = a.toNat / 2 := by
  rw [UInt8.toNat_shiftRight]
  rfl

theorem toNat_double (a : UInt8) : (a <<< 1).toNat = 2 * a.toNat % 256 := by
  rw [UInt8.toNat_shiftLeft, Nat.shiftLeft_eq, Nat.mul_comm]
  rfl

theorem toNat_low (a : UInt8) : (a &&& 0x01).toNat = a.toNat % 2 := by
  rw [UInt8.toNat_and]
  exact Nat.and_one_is_mod a.toNat

theorem naturals_operated (w : Vector UInt8 16) (x y : Fin 16) (op : Operation) :
    naturals (Machine.operated w x y op) = operated (naturals w) x y op := by
  cases op with
  | copy => exact naturals_put w x (w.get y)
  | or => rw [Machine.operated, naturals_put, UInt8.toNat_or]; rfl
  | and => rw [Machine.operated, naturals_put, UInt8.toNat_and]; rfl
  | xor => rw [Machine.operated, naturals_put, UInt8.toNat_xor]; rfl
  | add =>
    rw [Machine.operated, naturals_put, naturals_put, toNat_carry, UInt8.toNat_add]
    rfl
  | sub =>
    rw [Machine.operated, naturals_put, naturals_put, toNat_borrow, toNat_sub]
    rfl
  | shiftRight =>
    rw [Machine.operated, naturals_put, naturals_put, toNat_low, toNat_half]
    rfl
  | subFrom =>
    rw [Machine.operated, naturals_put, naturals_put, toNat_borrow, toNat_sub]
    rfl
  | shiftLeft =>
    rw [Machine.operated, naturals_put, naturals_put, toNat_double, UInt8.toNat_and]
    rfl

theorem held_eq (code : UInt8) : held m code.toNat = m.keypad.isDown code := by
  by_cases key : code.toNat < 16
  · have found : Keypad.key? code = some ⟨code.toNat, key⟩ := dif_pos key
    have small : code.toNat ≤ 0xF := by omega
    rw [Keypad.isDown_of_key? found, held, decide_eq_true small, Bool.true_and]
  · have large : ¬ code.toNat ≤ 0xF := by omega
    have none : Keypad.key? code = none := Keypad.key?_eq_none_iff.2 (by omega)
    rw [Keypad.isDown, none, held, decide_eq_false large, Bool.false_and]

theorem lowestHeld_eq : (List.range 16).find? (held m) = m.keypad.first.map Fin.val := by
  have codes : List.range 16 = (List.finRange 16).map Fin.val := rfl
  have same : held m ∘ Fin.val = fun k : Fin 16 => m.keypad.mask.getLsbD k := by
    funext k
    have small : k.val ≤ 0xF := by omega
    rw [Function.comp_apply, held, decide_eq_true small, Bool.true_and]
  rw [codes, List.find?_map, same, Keypad.first]

theorem byte_eq {start len k : Nat} (inside : start + len ≤ 4096) (within : k < len)
    (bound : k < (m.store.bytes start len).length) :
    ((m.store.bytes start len)[k]).toNat = byte m (start + k) := by
  rw [Store.getElem_bytes inside within, byte, dif_pos (by omega)]

theorem collides_iff {x y rows : Fin 16} (inside : rows.val = 0 ∨ index m + rows ≤ 4096) :
    (m.drawing x y rows).2 = true ↔ Collides m x y rows := by
  have count : (m.store.bytes m.store.i.toNat rows).length = rows := by
    rcases inside with empty | inside
    · rw [empty]
      rfl
    · exact Store.length_bytes inside
  have wrapped (r k : Nat) : m.frame.pixel (v m x % 64 + k) (v m y % 32 + r) =
      m.frame.pixel ((v m x + k) % 64) (v m y % 32 + r) := by
    rw [Frame.pixel_mod, m.frame.pixel_mod ((v m x + k) % 64), Nat.mod_mod, Nat.mod_add_mod]
  have bit (r k : Nat) (within : r < (m.store.bytes m.store.i.toNat rows).length) :
      Frame.column (m.store.bytes m.store.i.toNat rows)[r] k =
        (byte m (index m + r)).testBit (7 - k) := by
    have ends : m.store.i.toNat + rows ≤ 4096 := inside.resolve_left (by omega)
    rw [Frame.column, byte_eq m ends (count ▸ within), index]
  rw [Machine.drawing, Frame.drawn_collides]
  constructor
  · intro collision
    obtain ⟨r, within, above, k, narrow, drawn, lit⟩ := collision
    exact ⟨r, count ▸ within, above, k, narrow, (bit r k within).symm.trans drawn,
      (wrapped r k).symm.trans lit⟩
  · intro collision
    obtain ⟨r, within, above, k, narrow, drawn, lit⟩ := collision
    have within' : r < (m.store.bytes m.store.i.toNat rows).length := count.symm ▸ within
    exact ⟨r, within', above, k, narrow, (bit r k within').trans drawn, (wrapped r k).trans lit⟩

theorem naturals_overlay {x : Fin 16} (inside : index m + (x + 1) ≤ 4096) :
    naturals (Exec.overlay m.store.v 0 (m.store.bytes m.store.i.toNat (x + 1))) =
      fun k => if k ≤ x then byte m (index m + k) else v m k := by
  have count : (m.store.bytes m.store.i.toNat (x + 1)).length = x + 1 := Store.length_bytes inside
  funext k
  rw [naturals, Exec.get_overlay, if_pos (Nat.zero_le _), Nat.sub_zero]
  by_cases within : k ≤ x
  · have ends : m.store.i.toNat + (x + 1) ≤ 4096 := inside
    have bound : k.val < x.val + 1 := Nat.lt_succ_of_le within
    have inList : k.val < (m.store.bytes m.store.i.toNat (x + 1)).length := count.symm ▸ bound
    rw [if_pos within, List.getD_eq_getElem?_getD, List.getElem?_eq_getElem inList,
      Option.getD_some, byte_eq m ends bound, index]
  · have beyond : x.val + 1 ≤ k.val := Nat.lt_of_not_le within
    rw [if_neg within, List.getD_eq_getElem?_getD, List.getElem?_eq_none (count.symm ▸ beyond)]
    rfl

theorem beq_toNat (a b : UInt8) : (a == b) = (a.toNat == b.toNat) := by
  rw [Bool.eq_iff_iff, beq_iff_eq, beq_iff_eq, UInt8.toNat_inj]

theorem bne_toNat (a b : UInt8) : (a != b) = (a.toNat != b.toNat) :=
  congrArg not (beq_toNat a b)

theorem skips_eq (i : Instruction) : m.skips i = skips m i := by
  cases i with
  | skipEq x value => exact beq_toNat (m.store.v.get x) value
  | skipNe x value => exact bne_toNat (m.store.v.get x) value
  | skipEqReg x y => exact beq_toNat (m.store.v.get x) (m.store.v.get y)
  | skipNeReg x y => exact bne_toNat (m.store.v.get x) (m.store.v.get y)
  | skipHeld x => exact (held_eq m (m.store.v.get x)).symm
  | skipFree x => exact congrArg not (held_eq m (m.store.v.get x)).symm
  | _ => rfl

variable {m} {i : Instruction}

theorem inside_of_accepted {len : Nat}
    (accepted : (Store.spanRefusal m.store.i.toNat len).map Halt.error = none) :
    len = 0 ∨ index m + len ≤ 4096 := by
  rw [Option.map_eq_none_iff, Store.spanRefusal_eq_none_iff] at accepted
  exact accepted.imp id Layout.Contained.le_ramSize

theorem registersAfter_eq (accepted : m.refusal i = none) (finished : m.progress i = .executed) :
    naturals (m.registersAfter i) = registersAfter m i := by
  cases i with
  | set x value => exact naturals_put _ x value
  | add x value =>
    rw [Machine.registersAfter, naturals_put, UInt8.toNat_add]
    rfl
  | operate op x y => exact naturals_operated _ x y op
  | random x mask =>
    rw [Machine.registersAfter, naturals_put, UInt8.toNat_and]
    rfl
  | draw x y rows =>
    have collides := collides_iff m (x := x) (y := y) (inside_of_accepted accepted)
    rw [Machine.registersAfter, naturals_put, toNat_flagOf]
    simp only [collides]
    rfl
  | readDelay x => exact naturals_put _ x _
  | awaitKey x =>
    cases first : m.keypad.first with
    | none => simp [Machine.progress, first] at finished
    | some key =>
      have lowest : lowestHeld m = key := by
        rw [lowestHeld, lowestHeld_eq, first]
        rfl
      have bound : key.val < UInt8.size := by change key.val < 256; omega
      have small : (UInt8.ofNat key).toNat = key := UInt8.toNat_ofNat_of_lt' bound
      simp only [Machine.registersAfter, first]
      rw [naturals_put, small, registersAfter, lowest]
      rfl
  | restore x =>
    have inside := (inside_of_accepted accepted).resolve_left (by omega)
    exact naturals_overlay m inside
  | _ => rfl

theorem indexAfter_eq (accepted : m.refusal i = none) :
    (m.indexAfter i).toNat = indexAfter m i := by
  cases i with
  | setIndex target => exact Machine.toNat_word target
  | addIndex x =>
    rw [Machine.indexAfter, UInt16.toNat_add, UInt8.toNat_toUInt16]
    rfl
  | glyph x =>
    have small : ¬ 16 ≤ (m.store.v.get x).toNat := by
      intro large
      rw [Machine.refusal, if_pos large] at accepted
      contradiction
    have fits : Layout.glyphStart + (m.store.v.get x).toNat * Font.glyphRows < UInt16.size := by
      simp only [Layout.glyphStart, Font.glyphRows, UInt16.size]
      omega
    rw [Machine.indexAfter, UInt16.toNat_ofNat_of_lt' fits, Nat.mul_comm]
    rfl
  | _ => rfl

theorem innermost_fst (room : m.store.stack.depth ≤ 16) :
    m.innermost.map Prod.fst = m.store.stack.live.getLast? := by
  rcases Nat.eq_zero_or_pos m.store.stack.depth with empty | pos
  · rw [Machine.innermost, CallStack.pop_of_empty empty, CallStack.live_eq_nil_iff.2 empty]
    rfl
  · rw [Machine.innermost, CallStack.pop_of_within pos room, CallStack.getLast?_live pos room]
    rfl

-- The table of the instructions speaks of the machine that has moved on to the next word.
theorem counterAfter_eq {w : UInt16} (fetched : m.Fetches w)
    (accepted : m.advance.refusal i = none) :
    (m.advance.counterAfter i).toNat = counterAfter m i := by
  have within := fetched.lt
  have next : m.advance.store.pc.toNat = counter m + 2 := Machine.toNat_advance (by omega)
  have skipped : (if m.skips i then m.advance.store.pc + 2 else m.advance.store.pc).toNat =
      if skips m i then counter m + 4 else counter m + 2 := by
    rw [skips_eq]
    cases skips m i with
    | false => exact next
    | true =>
      have afterNext : (m.advance.store.pc + 2).toNat = m.advance.store.pc.toNat + 2 :=
        Machine.toNat_advance (by rw [next, counter]; omega)
      exact afterNext.trans (by rw [next]; rfl)
  cases i with
  | leave =>
    have room : ¬ 16 < m.advance.store.stack.depth := by
      intro beyond
      rw [Machine.refusal, if_pos beyond] at accepted
      contradiction
    have found : m.advance.innermost.map Prod.fst = m.store.stack.live.getLast? :=
      innermost_fst (m := m.advance) (Nat.not_lt.1 room)
    rw [Machine.counterAfter, counterAfter, found]
    cases m.store.stack.live.getLast? with
    | none => exact next
    | some a => rfl
  | jump target | call target => exact Machine.toNat_word target
  | jumpFrom target =>
    have small := (m.store.v.get v0).toNat_lt
    have sum : (Exec.word target + (m.store.v.get v0).toUInt16).toNat =
        target.val + (m.store.v.get v0).toNat := by
      rw [UInt16.toNat_add, Machine.toNat_word, UInt8.toNat_toUInt16]
      omega
    exact sum
  | _ => exact skipped

/-- A step that executes an instruction leaves the registers, I and the program counter as the
table says. -/
theorem step_follows_table (executed : m.step.1 = .ok .executed) :
    ∃ i : Instruction, m.Fetches i.encode ∧
      (∀ k : Fin 16, (m.step.2.store.v.get k).toNat = registersAfter m i k) ∧
      m.step.2.store.i.toNat = indexAfter m i ∧
      m.step.2.store.pc.toNat = counterAfter m i := by
  have stepped := m.stepped
  generalize m.step = result at *
  cases stepped with
  | beyond | unknown | refused => cases executed
  | @executed i fetched accepted =>
    have finished : m.advance.progress i = .executed := Except.ok.inj executed
    have registers := registersAfter_eq (m := m.advance) accepted finished
    exact ⟨i, fetched, congrFun registers, indexAfter_eq (m := m.advance) accepted,
      counterAfter_eq fetched accepted⟩

theorem doubled_flag_follows_table :
    ((loaded [0x8F, 0xF4]).perform (.resume 15 0x90)).2.step.1 = .ok .executed ∧
      ∃ i, ((loaded [0x8F, 0xF4]).perform (.resume 15 0x90)).2.Fetches i.encode ∧
        registersAfter ((loaded [0x8F, 0xF4]).perform (.resume 15 0x90)).2 i vF = 0x20 := by
  obtain ⟨executed, doubled⟩ :
      ((loaded [0x8F, 0xF4]).perform (.resume 15 0x90)).2.step.1 = .ok .executed ∧
        (((loaded [0x8F, 0xF4]).perform (.resume 15 0x90)).2.step.2.store.v.get vF).toNat =
          0x20 := by
    decide +kernel
  obtain ⟨i, fetched, registers, _⟩ := step_follows_table executed
  exact ⟨executed, i, fetched, (registers vF).symm.trans doubled⟩

end Table

end Chip8
