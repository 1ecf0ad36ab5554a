import Chip8.CallStack

set_option autoImplicit false

namespace Chip8.CallStack

theorem push?_of_room {s : CallStack} (room : s.depth < 16) (a : UInt16) :
    s.push? a = some ⟨s.slots.set s.depth a, s.depth + 1⟩ := by
  rw [push?, dif_pos room]

theorem push?_of_full {s : CallStack} (full : 16 ≤ s.depth) (a : UInt16) : s.push? a = none := by
  rw [push?, dif_neg (by omega)]

theorem pop_of_beyond {s : CallStack} (beyond : 16 < s.depth) : s.pop = .error .outOfRange := by
  unfold pop
  split
  · omega
  · next d hd => rw [dif_neg (by omega)]

theorem pop_of_empty {s : CallStack} (empty : s.depth = 0) : s.pop = .ok none := by
  unfold pop
  split
  · rfl
  · omega

theorem pop_of_within {s : CallStack} (pos : 0 < s.depth) (room : s.depth ≤ 16) :
    s.pop = .ok (some (s.slots[s.depth - 1], ⟨s.slots, s.depth - 1⟩)) := by
  unfold pop
  split
  · omega
  · next d hd =>
    rw [dif_pos (by omega)]
    simp [hd]

theorem depth_push {s t : CallStack} {a : UInt16} (pushed : s.push? a = some t) :
    t.depth = s.depth + 1 := by
  rcases Nat.lt_or_ge s.depth 16 with room | full
  · rw [push?_of_room room] at pushed
    cases pushed
    rfl
  · rw [push?_of_full full] at pushed
    contradiction

theorem depth_pop {s t : CallStack} {a : UInt16} (popped : s.pop = .ok (some (a, t))) :
    s.depth = t.depth + 1 := by
  unfold pop at popped
  split at popped
  · cases popped
  · next d depth =>
    split at popped
    · cases popped
      exact depth
    · cases popped

theorem live_eq_nil_iff {s : CallStack} : s.live = [] ↔ s.depth = 0 := by
  simp [live]

theorem getLast?_live {s : CallStack} (pos : 0 < s.depth) (room : s.depth ≤ 16) :
    s.live.getLast? = some s.slots[s.depth - 1] := by
  have popped := live_pop (pop_of_within pos room)
  rw [popped, List.getLast?_append]
  rfl

structure Alike (s t : CallStack) : Prop where
  depth : t.depth = s.depth
  live : t.live = s.live

theorem alike_iff {s t : CallStack} :
    s.Alike t ↔
      t.depth = s.depth ∧ ∀ k : Fin 16, k.val < s.depth → t.slots.get k = s.slots.get k := by
  constructor
  · intro alike
    refine ⟨alike.depth, fun k below => ?_⟩
    have same := congrArg (·[k.val]?) alike.live
    simpa [live, alike.depth, below, Vector.get] using same
  · rintro ⟨depth, same⟩
    refine ⟨depth, List.ext_getElem? fun k => ?_⟩
    rw [live, live, depth, List.getElem?_take, List.getElem?_take]
    split
    · next below =>
      rcases Nat.lt_or_ge k 16 with within | beyond
      · simpa [within, Vector.get] using same ⟨k, within⟩ below
      · simp [beyond]
    · rfl

theorem Alike.push? {s t : CallStack} (alike : s.Alike t) (a : UInt16) :
    (s.push? a = none ∧ t.push? a = none) ∨
    ∃ s' t', s.push? a = some s' ∧ t.push? a = some t' ∧ s'.Alike t' := by
  rcases Nat.lt_or_ge s.depth 16 with room | full
  · have pushed := push?_of_room room a
    have pushed' := push?_of_room (alike.depth ▸ room : t.depth < 16) a
    refine .inr ⟨_, _, pushed, pushed', congrArg (· + 1) alike.depth, ?_⟩
    rw [live_push pushed', live_push pushed, alike.live]
  · exact .inl ⟨push?_of_full full a, push?_of_full (alike.depth ▸ full) a⟩

theorem Alike.pop {s t : CallStack} (alike : s.Alike t) :
    t.pop = s.pop ∨
    ∃ a s' t', s.pop = .ok (some (a, s')) ∧ t.pop = .ok (some (a, t')) ∧ s'.Alike t' := by
  rcases Nat.lt_or_ge 16 s.depth with beyond | room
  · rw [pop_of_beyond beyond, pop_of_beyond (alike.depth ▸ beyond)]
    exact .inl rfl
  · rcases Nat.eq_zero_or_pos s.depth with empty | pos
    · rw [pop_of_empty empty, pop_of_empty (alike.depth.trans empty)]
      exact .inl rfl
    · have popped := pop_of_within pos room
      have popped' := pop_of_within (s := t) (alike.depth ▸ pos) (alike.depth ▸ room)
      have live := alike.live
      rw [live_pop popped, live_pop popped'] at live
      obtain ⟨below, last⟩ := List.append_inj' live rfl
      rw [List.singleton_inj.1 last] at popped'
      exact .inr ⟨_, _, _, popped, popped', congrArg (· - 1) alike.depth, below⟩

end Chip8.CallStack
