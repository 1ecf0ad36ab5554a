import Chip8.Machine.Execute
import Chip8.Proofs.Span
import Chip8.Proofs.Sprite

set_option autoImplicit false

namespace Chip8

def v0 : Fin 16 := ⟨0, Nat.zero_lt_succ 15⟩

def vF : Fin 16 := Fin.last 15

namespace Exec

variable (v : Vector UInt8 16)

def put (x : Fin 16) (value : UInt8) : Vector UInt8 16 :=
  v.setIfInBounds x value

theorem get_put_self (x : Fin 16) (value : UInt8) : (put v x value).get x = value :=
  Vector.getElem_setIfInBounds_self x.isLt

theorem get_put_of_ne {x k : Fin 16} (other : k ≠ x) (value : UInt8) :
    (put v x value).get k = v.get k :=
  Vector.getElem_setIfInBounds_ne k.isLt fun same => other (Fin.ext same.symm)

theorem set_eq_put {x : Nat} (bound : x < 16) (value : UInt8) :
    v.set x value bound = put v ⟨x, bound⟩ value := by
  apply Vector.ext
  intro k within
  rw [put, Vector.getElem_set, Vector.getElem_setIfInBounds]

def overlay (start : Nat) (values : List UInt8) : Vector UInt8 16 :=
  Vector.ofFn fun k => if start ≤ k.val then values.getD (k.val - start) (v.get k) else v.get k

theorem get_overlay (start : Nat) (values : List UInt8) (k : Fin 16) :
    (overlay v start values).get k =
      if start ≤ k.val then values.getD (k.val - start) (v.get k) else v.get k :=
  Vector.getElem_ofFn k.isLt

theorem ext_get {v w : Vector UInt8 16} (same : ∀ k, v.get k = w.get k) : v = w :=
  Vector.ext fun k bound => same ⟨k, bound⟩

theorem overlay_nil (start : Nat) : overlay v start [] = v := by
  apply ext_get
  intro k
  rw [get_overlay]
  split <;> rfl

theorem overlay_cons (x : Fin 16) (value : UInt8) (rest : List UInt8) :
    overlay (put v x value) (x + 1) rest = overlay v x (value :: rest) := by
  apply ext_get
  intro k
  rw [get_overlay, get_overlay]
  rcases Nat.lt_trichotomy k x with before | here | after
  · have other : k ≠ x := Fin.ne_of_lt before
    rw [if_neg (by omega), if_neg (by omega), get_put_of_ne v other]
  · obtain rfl := Fin.ext here
    rw [if_neg (by omega), if_pos (Nat.le_refl k), get_put_self, Nat.sub_self]
    rfl
  · have other : k ≠ x := Fin.ne_of_gt after
    have next : k.val - x.val = (k.val - (x.val + 1)) + 1 := by omega
    rw [if_pos (by omega), if_pos (by omega), get_put_of_ne v other, next]
    rfl

variable {α β : Type} (m : Machine)

theorem pure_run (a : α) : (pure a : Exec α) m = .ok a m := rfl

theorem bind_run (e : Exec α) (f : α → Exec β) :
    (e >>= f) m =
      match e m with
      | .ok a next => f a next
      | .error halt next => .error halt next := by
  cases h : e m <;> simp [bind, EStateM.bind, h]

theorem get_run : (get : Exec Machine) m = .ok m m := rfl

theorem modify_run (f : Machine → Machine) : (modify f : Exec Unit) m = .ok () (f m) := rfl

theorem change_run (f : Store → Store) : change f m = .ok () { m with store := f m.store } := rfl

theorem inspect_run (read : Store → Except (Halt Fault) α) :
    inspect read m =
      match read m.store with
      | .ok a => .ok a m
      | .error halt => .error halt m := rfl

theorem update_run (write : Store → Except (Halt Fault) Store) :
    update write m =
      match write m.store with
      | .ok store => .ok () { m with store }
      | .error halt => .error halt m := rfl

theorem register_run (x : Fin 16) : register x m = .ok (m.store.v.get x) m := by
  rw [register, inspect_run, Store.readRegister, dif_pos x.isLt]
  rfl

theorem setRegister_run (x : Fin 16) (value : UInt8) :
    setRegister x value m = .ok () { m with store.v := put m.store.v x value } := by
  rw [setRegister, update_run, Store.writeRegister, dif_pos x.isLt, set_eq_put]

theorem setFlag_run (value : UInt8) :
    setFlag value m = .ok () { m with store.v := put m.store.v vF value } := by
  rw [vF, Fin.last, ← set_eq_put]
  rfl

theorem blit_run (sprite : List UInt8) (x y : Nat) :
    blit sprite x y m =
      .ok (m.frame.drawn sprite x y).2 { m with frame := (m.frame.drawn sprite x y).1 } := by
  rw [blit, Frame.draw_eq]

theorem index_run : index m = .ok m.store.i m := rfl

theorem randomByte_run :
    randomByte m = .ok m.random.byte { m with random := m.random.skip } := rfl

theorem skipIf_run (condition : Bool) :
    skipIf condition m =
      .ok () { m with store.pc := if condition then m.store.pc + 2 else m.store.pc } := by
  cases condition <;> rfl

theorem offset_run (target : Fin 4096) (amount : UInt8) :
    offset (word target) amount m = .ok (word target + amount.toUInt16) m := by
  have small := amount.toNat_lt
  have fits : (word target).toNat + amount.toNat < UInt16.size := by
    simp only [word, UInt16.toNat_ofNat', UInt16.size]
    omega
  rw [offset, if_pos fits, pure_run]

theorem registersTo_run (x : Fin 16) :
    registersTo x m = .ok (m.store.v.toList.take (x + 1)) m := by
  obtain ⟨x, small⟩ := x
  induction x with
  | zero =>
    simp only [registersTo, bind_run, pure_run]
    rw [register_run m ⟨0, small⟩]
    simp [List.take_add_one, Vector.get]
  | succ x ih =>
    simp only at ih
    simp only [registersTo, bind_run, pure_run, ih (by omega)]
    rw [register_run m ⟨x + 1, small⟩]
    simp [List.take_add_one (i := x + 1), Vector.get, small]

theorem setRegisters_run (start : Nat) (values : List UInt8) (fits : start + values.length ≤ 16) :
    setRegisters start values m = .ok () { m with store.v := overlay m.store.v start values } := by
  induction values generalizing start m with
  | nil => rw [overlay_nil]; rfl
  | cons value rest ih =>
    simp only [List.length_cons] at fits
    have small : start < 16 := by omega
    simp only [setRegisters, bind_run]
    rw [setRegister_run m ⟨start, small⟩ value]
    simp only
    rw [ih _ (start + 1) (by omega), overlay_cons _ ⟨start, small⟩]

theorem readSpan_run (len : Nat) (short : len ≤ 16) :
    inspect (·.readSpan m.store.i.toNat len) m =
      match Store.spanRefusal m.store.i.toNat len with
      | none => .ok (m.store.bytes m.store.i.toNat len) m
      | some fault => .error (.error fault) m := by
  rw [inspect_run, Store.readSpan_eq m.store (Store.span_fits m.store.i short)]
  cases Store.spanRefusal m.store.i.toNat len <;> rfl

theorem writeSpan_run (data : List UInt8) (short : data.length ≤ 16) :
    update (·.writeSpan m.store.i.toNat data) m =
      match Store.spanRefusal m.store.i.toNat data.length with
      | none => .ok () { m with store.ram := m.store.ram.overwrite m.store.i.toNat data }
      | some fault => .error (.error fault) m := by
  rw [update_run, Store.writeSpan_eq m.store (Store.span_fits m.store.i short)]
  cases Store.spanRefusal m.store.i.toNat data.length <;> rfl

end Exec

end Chip8
