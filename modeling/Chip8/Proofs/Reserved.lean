import Chip8.Proofs.Footprint

set_option autoImplicit false

namespace Chip8

open Layout (Addressable)

theorem Store.initial_reserved {a : Nat} (h : a < 4096) (reserved : ¬ Addressable a) :
    Store.initial.ram[a] = 0 := by
  have outside : ¬ (Layout.glyphStart ≤ a ∧ a < Layout.glyphStart + Font.glyphs.length) := by
    rw [Font.glyphs_fill_region]
    exact fun glyph => reserved (.inr glyph)
  have written := Ram.getElem_overwrite (Vector.replicate 4096 0) Layout.glyphStart Font.glyphs a h
  rw [dif_neg outside, Vector.getElem_replicate] at written
  exact written

namespace Machine

variable {m : Machine} {a : Nat}

theorem Overwrites.addressable (overwrites : m.Overwrites a) : Addressable a := by
  obtain ⟨_, len, _, _, _, inside, lower, upper⟩ := overwrites
  exact (Layout.contained_iff (by omega)).2 inside a lower upper

theorem Replaces.addressable {command : Command} (replaces : m.Replaces a command) :
    Addressable a := by
  cases command with
  | load program =>
    obtain ⟨small, lower, upper⟩ := replaces
    simp only [Layout.programLimit] at small
    exact .inl ⟨lower, by omega⟩
  | step => exact Overwrites.addressable replaces
  | _ => exact replaces.elim

theorem Reachable.reserved (reachable : m.Reachable) (h : a < 4096) (reserved : ¬ Addressable a) :
    m.store.ram[a] = 0 := by
  obtain ⟨source, history, rfl⟩ := reachable
  by_contra nonzero
  have changed : ((fresh source).performAll history).store.ram[a] ≠
      (fresh source).store.ram[a] := fun same =>
    nonzero (same.trans (Store.initial_reserved h reserved))
  obtain ⟨before, command, after, _, replaces⟩ := exists_replaces h changed
  exact reserved replaces.addressable

theorem Reachable.fetches_zero (reachable : m.Reachable) (within : m.store.pc.toNat ≤ 0xFFE)
    (high : ¬ Addressable m.store.pc.toNat) (low : ¬ Addressable (m.store.pc.toNat + 1)) :
    m.Fetches 0 := by
  refine fetches_at rfl (by omega) ?_
  rw [reachable.reserved (by omega) high, reachable.reserved (by omega) low]
  rfl

/-- Reserved memory is zero in every machine that can be reached, so that no instruction is ever
executed from there. -/
theorem reserved_memory_is_zero (reachable : m.Reachable) :
    (∀ (a : Nat) (h : a < 4096), ¬ Addressable a → m.store.ram[a] = 0) ∧
    (m.store.pc.toNat ≤ 0xFFE → ¬ Addressable m.store.pc.toNat →
      ¬ Addressable (m.store.pc.toNat + 1) →
      m.step.1 = .error (.error (.cpu 0x0000 m.store.pc .unknownInstruction))) ∧
    ∀ progress, m.step.1 = .ok progress →
      Addressable m.store.pc.toNat ∨ Addressable (m.store.pc.toNat + 1) := by
  have refused (within : m.store.pc.toNat ≤ 0xFFE) (high : ¬ Addressable m.store.pc.toNat)
      (low : ¬ Addressable (m.store.pc.toNat + 1)) :
      m.step.1 = .error (.error (.cpu 0x0000 m.store.pc .unknownInstruction)) := by
    rw [step_of_unknown (reachable.fetches_zero within high low) rfl]
  refine ⟨fun a h reserved => reachable.reserved h reserved, refused, ?_⟩
  intro progress executed
  by_contra reserved
  obtain ⟨high, low⟩ := not_or.1 reserved
  rcases Nat.lt_or_ge m.store.pc.toNat 0xFFF with within | beyond
  · rw [refused (by omega) high low] at executed
    cases executed
  · rw [step_of_beyond beyond] at executed
    cases executed

theorem jump_to_reserved_memory :
    ((loaded [0xAE, 0x9F, 0xF1, 0x55, 0x1E, 0xA0]).performAll
        [.resume 1 0xFF, .step, .step, .step]).store.pc = 0xEA0 ∧
      ((loaded [0xAE, 0x9F, 0xF1, 0x55, 0x1E, 0xA0]).performAll
        [.resume 1 0xFF, .step, .step, .step]).step.1 =
        .error (.error (.cpu 0x0000 0xEA0 .unknownInstruction)) := by
  have jumped : ((loaded [0xAE, 0x9F, 0xF1, 0x55, 0x1E, 0xA0]).performAll
      [.resume 1 0xFF, .step, .step, .step]).store.pc = 0xEA0 := by
    decide +kernel
  have refused := (reserved_memory_is_zero (reachable_loaded _ _)).2.1
    (by rw [jumped]; decide) (by rw [jumped]; decide) (by rw [jumped]; decide)
  rw [jumped] at refused
  exact ⟨jumped, refused⟩

end Machine

end Chip8
