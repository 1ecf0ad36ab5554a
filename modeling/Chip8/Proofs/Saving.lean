import Chip8.Proofs.Safety

set_option autoImplicit false

namespace Chip8

open Layout (Contained ramSize)

namespace Exec

variable {v : Vector UInt8 16} {values : List UInt8} {k : Fin 16}

theorem get_overlay_of_lt (within : k.val < values.length) :
    (overlay v 0 values).get k = values[k.val] := by
  simp [get_overlay, within]

theorem get_overlay_of_ge (beyond : values.length ≤ k.val) :
    (overlay v 0 values).get k = v.get k := by
  simp [get_overlay, beyond]

theorem take_overlay (v : Vector UInt8 16) (fits : values.length ≤ 16) :
    (overlay v 0 values).toList.take values.length = values := by
  apply List.ext_getElem
  · simp [fits]
  · intro k bound within
    have small : k < 16 := by omega
    have read : (overlay v 0 values)[k] = values[k] :=
      get_overlay_of_lt (k := ⟨k, small⟩) within
    simpa using read

end Exec

namespace Machine

variable {m n : Machine} {x : Fin 16} {len : Nat} {data : List UInt8}

theorem obey_save (inside : Contained m.store.i.toNat (x + 1)) :
    m.obey (.save x) =
      (.ok .executed,
        { m.advance with
          store.ram := m.store.ram.overwrite m.store.i.toNat (m.store.v.toList.take (x + 1)) }) :=
  obey_of_accepted (span_accepted (.inr inside))

theorem obey_restore (inside : Contained m.store.i.toNat (x + 1)) :
    m.obey (.restore x) =
      (.ok .executed,
        { m.advance with
          store.v := Exec.overlay m.store.v 0 (m.store.bytes m.store.i.toNat (x + 1)) }) :=
  obey_of_accepted (span_accepted (.inr inside))

theorem obey_digits (inside : Contained m.store.i.toNat 3) :
    m.obey (.digits x) =
      (.ok .executed,
        { m.advance with
          store.ram :=
            m.store.ram.overwrite m.store.i.toNat (Exec.decimalDigits (m.store.v.get x)) }) :=
  obey_of_accepted (span_accepted (.inr inside))

theorem obey_save_iff :
    (m.obey (.save x)).1 = .ok .executed ↔ Contained m.store.i.toNat (x + 1) := by
  rw [obey_span_iff (x + 1) rfl rfl]
  simp

theorem obey_restore_iff :
    (m.obey (.restore x)).1 = .ok .executed ↔ Contained m.store.i.toNat (x + 1) := by
  rw [obey_span_iff (x + 1) rfl rfl]
  simp

theorem obey_digits_iff :
    (m.obey (.digits x)).1 = .ok .executed ↔ Contained m.store.i.toNat 3 := by
  rw [obey_span_iff 3 rfl rfl]
  simp

theorem restore_of_written (count : data.length = x + 1)
    (inside : Contained m.store.i.toNat (x + 1)) (same : n.store.i = m.store.i)
    (written : n.store.ram = m.store.ram.overwrite m.store.i.toNat data) :
    n.obey (.restore x) =
      (.ok .executed, { n.advance with store.v := Exec.overlay n.store.v 0 data }) := by
  have fits : m.store.i.toNat + data.length ≤ 4096 := count ▸ inside.le_ramSize
  have read : n.store.bytes n.store.i.toNat (x + 1) = data := by
    have whole := m.store.bytes_overwrite fits
    rw [← written, count] at whole
    rw [same]
    exact whole
  rw [obey_restore (same ▸ inside), read]

theorem length_saved (v : Vector UInt8 16) (x : Fin 16) :
    (v.toList.take (x + 1)).length = x + 1 := by
  simp only [List.length_take, Vector.length_toList]
  omega

theorem restore_of_save (saved : (m.obey (.save x)).1 = .ok .executed)
    (ram : n.store.ram = (m.obey (.save x)).2.store.ram)
    (index : n.store.i = (m.obey (.save x)).2.store.i) :
    n.obey (.restore x) =
      (.ok .executed,
        { n.advance with
          store.v := Exec.overlay n.store.v 0 (m.store.v.toList.take (x + 1)) }) := by
  have inside := obey_save_iff.1 saved
  rw [obey_save inside] at ram index
  exact restore_of_written (length_saved m.store.v x) inside index ram

theorem save_of_held (inside : Contained m.store.i.toNat (x + 1))
    (held : m.store.v.toList.take (x + 1) = m.store.bytes m.store.i.toNat (x + 1)) :
    m.obey (.save x) = (.ok .executed, m.advance) := by
  rw [obey_save inside, held, m.store.overwrite_bytes inside.le_ramSize]
  rfl

theorem save_of_restore (restored : (m.obey (.restore x)).1 = .ok .executed) :
    (m.obey (.restore x)).2.obey (.save x) =
        (.ok .executed, (m.obey (.restore x)).2.advance) ∧
      (m.obey (.restore x)).2.store.ram = m.store.ram := by
  have inside := obey_restore_iff.1 restored
  have obeyed := obey_restore inside
  have ram : (m.obey (.restore x)).2.store.ram = m.store.ram := congrArg (·.2.store.ram) obeyed
  have index : (m.obey (.restore x)).2.store.i = m.store.i := congrArg (·.2.store.i) obeyed
  have registers : (m.obey (.restore x)).2.store.v =
      Exec.overlay m.store.v 0 (m.store.bytes m.store.i.toNat (x + 1)) :=
    congrArg (·.2.store.v) obeyed
  have count : (m.store.bytes m.store.i.toNat (x + 1)).length = x + 1 :=
    Store.length_bytes inside.le_ramSize
  have short : (m.store.bytes m.store.i.toNat (x + 1)).length ≤ 16 := by omega
  have taken := Exec.take_overlay m.store.v short
  rw [count] at taken
  refine ⟨save_of_held (index ▸ inside) ?_, ram⟩
  rw [registers, index, Store.bytes_congr ram, taken]

theorem restore_of_digits (written : (m.obey (.digits x)).1 = .ok .executed)
    (ram : n.store.ram = (m.obey (.digits x)).2.store.ram) (index : n.store.i = m.store.i) :
    n.obey (.restore 2) =
      (.ok .executed,
        { n.advance with
          store.v := Exec.overlay n.store.v 0 (Exec.decimalDigits (m.store.v.get x)) }) := by
  have inside := obey_digits_iff.1 written
  rw [obey_digits inside] at ram
  exact restore_of_written rfl inside index ram

theorem ram_of_digits (written : (m.obey (.digits x)).1 = .ok .executed) {a : Nat} (h : a < 4096)
    (outside : ¬ (m.store.i.toNat ≤ a ∧ a < m.store.i.toNat + 3)) :
    (m.obey (.digits x)).2.store.ram[a] = m.store.ram[a] := by
  rw [obey_digits (obey_digits_iff.1 written)]
  exact (Ram.getElem_overwrite _ _ _ _ h).trans (dif_neg outside)

structure Digits (v : Vector UInt8 16) (number : UInt8) : Prop where
  hundreds : (v.get 0).toNat ≤ 9
  tens : (v.get 1).toNat ≤ 9
  ones : (v.get 2).toNat ≤ 9
  value : 100 * (v.get 0).toNat + 10 * (v.get 1).toNat + (v.get 2).toNat = number.toNat

theorem digits_overlay (v : Vector UInt8 16) (number : UInt8) :
    Digits (Exec.overlay v 0 (Exec.decimalDigits number)) number := by
  have hundreds : (Exec.overlay v 0 (Exec.decimalDigits number)).get 0 = number / 100 :=
    Exec.get_overlay_of_lt (by simp [Exec.decimalDigits])
  have tens : (Exec.overlay v 0 (Exec.decimalDigits number)).get 1 = number / 10 % 10 :=
    Exec.get_overlay_of_lt (by simp [Exec.decimalDigits])
  have ones : (Exec.overlay v 0 (Exec.decimalDigits number)).get 2 = number % 10 :=
    Exec.get_overlay_of_lt (by simp [Exec.decimalDigits])
  have small := number.toNat_lt
  constructor <;> simp [hundreds, tens, ones] <;> omega

/-- Saving and restoring succeed alike. What was saved comes back whatever has become of the
registers, and no other register changes; what was restored can be saved again without a change to
memory; and a number that was written out in digits is read back digit by digit. -/
theorem saved_registers_are_restored (x : Fin 16) :
    (∀ (m : Machine) (i : Instruction), m.Fetches i.encode → m.step = m.obey i) ∧
    (∀ m n : Machine, n.store.i = m.store.i →
      ((m.obey (.save x)).1 = .ok .executed ↔ (n.obey (.restore x)).1 = .ok .executed)) ∧
    (∀ m n : Machine, (m.obey (.save x)).1 = .ok .executed →
      n.store.ram = (m.obey (.save x)).2.store.ram → n.store.i = (m.obey (.save x)).2.store.i →
      ∃ v, n.obey (.restore x) = (.ok .executed, { n.advance with store.v := v }) ∧
        (∀ k, k ≤ x → v.get k = m.store.v.get k) ∧ ∀ k, x < k → v.get k = n.store.v.get k) ∧
    (∀ m : Machine, (m.obey (.restore x)).1 = .ok .executed →
      ((m.obey (.restore x)).2.obey (.save x)).1 = .ok .executed ∧
        ((m.obey (.restore x)).2.obey (.save x)).2.store.ram = m.store.ram) ∧
    ∀ m n : Machine, (m.obey (.digits x)).1 = .ok .executed →
      n.store.ram = (m.obey (.digits x)).2.store.ram → n.store.i = m.store.i →
      (∀ (a : Nat) (h : a < 4096), ¬ (m.store.i.toNat ≤ a ∧ a < m.store.i.toNat + 3) →
        n.store.ram[a] = m.store.ram[a]) ∧
      ∃ v, n.obey (.restore 2) = (.ok .executed, { n.advance with store.v := v }) ∧
        Digits v (m.store.v.get x) := by
  refine ⟨fun m i => step_eq_obey, ?_, ?_, ?_, ?_⟩
  · intro m n same
    rw [obey_save_iff, obey_restore_iff, same]
  · intro m n saved ram index
    refine ⟨_, restore_of_save saved ram index, ?_, ?_⟩
    · intro k within
      have listed : k.val < (m.store.v.toList.take (x + 1)).length := by
        rw [length_saved]
        omega
      rw [Exec.get_overlay_of_lt listed]
      simp
      rfl
    · intro k beyond
      exact Exec.get_overlay_of_ge (by rw [length_saved]; omega)
  · intro m restored
    obtain ⟨saved, ram⟩ := save_of_restore restored
    rw [saved]
    exact ⟨rfl, ram⟩
  · intro m n written ram index
    refine ⟨fun a h outside => ?_, _, restore_of_digits written ram index, digits_overlay _ _⟩
    simpa only [ram] using ram_of_digits written h outside

def pointed : Machine :=
  (loaded [0xA3, 0x00]).performAll [.resume 0 0xAB, .resume 1 0xCD, .resume 2 0xEF, .step]

def cleared (m : Machine) : Machine :=
  { m with store.v := Vector.replicate 16 0 }

theorem ram_cleared (m : Machine) : m.cleared.store.ram = m.store.ram := rfl

theorem index_cleared (m : Machine) : m.cleared.store.i = m.store.i := rfl

theorem cleared_registers_are_restored :
    ((pointed.obey (.save 1)).2.cleared.obey (.restore 1)).2.store.v.get 0 = 0xAB ∧
      ((pointed.obey (.save 1)).2.cleared.obey (.restore 1)).2.store.v.get 1 = 0xCD ∧
      ((pointed.obey (.save 1)).2.cleared.obey (.restore 1)).2.store.v.get 2 = 0 ∧
      ((pointed.obey (.restore 1)).2.obey (.save 1)).2.store.ram = pointed.store.ram ∧
      Digits ((pointed.obey (.digits 1)).2.cleared.obey (.restore 2)).2.store.v 0xCD := by
  obtain ⟨saves, restores, writes, value, index⟩ :
      (pointed.obey (.save 1)).1 = .ok .executed ∧ (pointed.obey (.restore 1)).1 = .ok .executed ∧
        (pointed.obey (.digits 1)).1 = .ok .executed ∧ pointed.store.v.get 1 = 0xCD ∧
        (pointed.obey (.digits 1)).2.cleared.store.i = pointed.store.i := by
    decide +kernel
  obtain ⟨_, _, restored, saved, written⟩ := saved_registers_are_restored 1
  obtain ⟨v, obeyed, lower, upper⟩ :=
    restored pointed (pointed.obey (.save 1)).2.cleared saves (ram_cleared _) (index_cleared _)
  obtain ⟨_, w, read, digits⟩ :=
    written pointed (pointed.obey (.digits 1)).2.cleared writes (ram_cleared _) index
  rw [obeyed, read, ← value]
  exact ⟨(lower 0 (by decide)).trans (by decide +kernel), lower 1 (by decide),
    (upper 2 (by decide)).trans (by decide +kernel), (saved _ restores).2, digits⟩

end Machine

end Chip8
