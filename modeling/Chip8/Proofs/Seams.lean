import Chip8.Tone
import Mathlib.Algebra.Ring.Nat

set_option autoImplicit false

namespace Chip8.Tone

variable {α : Type}

def stretch (tone : Nat → α) (position length : Nat) : List α :=
  (List.range length).map fun i => tone ((position + (i / 2 + 1)) % sampleRate)

theorem length_stretch (tone : Nat → α) (position length : Nat) :
    (stretch tone position length).length = length := by
  simp [stretch]

theorem stretch_frames_add (tone : Nat → α) (position frames length : Nat) :
    stretch tone position (2 * frames + length) =
      stretch tone position (2 * frames) ++
        stretch tone ((position + frames) % sampleRate) length := by
  have later (i : Nat) : (position + ((2 * frames + i) / 2 + 1)) % sampleRate =
      ((position + frames) % sampleRate + (i / 2 + 1)) % sampleRate := by
    have frame : (2 * frames + i) / 2 = frames + i / 2 := by omega
    rw [Nat.mod_add_mod, frame]
    congr 1
    omega
  simp [stretch, List.range_add, later]

theorem stretch_next_frame (tone : Nat → α) (position length : Nat) :
    stretch tone position (length + 2) =
      tone (nextPosition position) :: tone (nextPosition position) ::
        stretch tone (nextPosition position) length := by
  rw [Nat.add_comm length]
  exact stretch_frames_add tone position 1 length

theorem fill_eq_stretch (wave : Nat → α) (scale : α → α) (position length : Nat) :
    (fill wave scale position length).1 = stretch (fun p => scale (wave p)) position length := by
  fun_induction fill wave scale position length with
  | case1 position => rfl
  | case2 position => rfl
  | case3 position length next sample samples last filled ih =>
    rw [filled] at ih
    rw [stretch_next_frame, ← ih]

theorem position_fill (wave : Nat → α) (scale : α → α) {position : Nat} (length : Nat)
    (within : position < sampleRate) :
    (fill wave scale position length).2 = (position + (length + 1) / 2) % sampleRate := by
  fun_induction fill wave scale position length with
  | case1 position => exact (Nat.mod_eq_of_lt within).symm
  | case2 position => rfl
  | case3 position length next sample samples last filled ih =>
    have frames : (length + 2 + 1) / 2 = 1 + (length + 1) / 2 := by omega
    have inside : next < sampleRate := Nat.mod_lt _ (by decide)
    rw [filled] at ih
    rw [ih inside, frames, ← Nat.add_assoc]
    exact Nat.mod_add_mod _ _ _

namespace Request

variable (wave : Nat → α) (mul : α → α → α) (silence : α) (request : Request α)

def tone (position : Nat) : α :=
  mul (wave position) (request.volume.getD silence)

def answer (position : Nat) : List α × Nat :=
  fill wave (fun sample => mul sample (request.volume.getD silence)) position request.length

theorem answer_samples (position : Nat) :
    (request.answer wave mul silence position).1 =
      stretch (request.tone wave mul silence) position request.length :=
  fill_eq_stretch _ _ _ _

theorem answer_position {position : Nat} (within : position < sampleRate) :
    (request.answer wave mul silence position).2 =
      (position + (request.length + 1) / 2) % sampleRate :=
  position_fill _ _ _ within

end Request

section Play

variable (wave : Nat → α) (mul : α → α → α) (silence : α)

theorem play_cons (position : Nat) (request : Request α) (rest : List (Request α)) :
    play wave mul silence position (request :: rest) =
      ((request.answer wave mul silence position).1 ::
          (play wave mul silence (request.answer wave mul silence position).2 rest).1,
        (play wave mul silence (request.answer wave mul silence position).2 rest).2) :=
  rfl

theorem play_append (position : Nat) (before after : List (Request α)) :
    play wave mul silence position (before ++ after) =
      ((play wave mul silence position before).1 ++
          (play wave mul silence (play wave mul silence position before).2 after).1,
        (play wave mul silence (play wave mul silence position before).2 after).2) := by
  induction before generalizing position with
  | nil => rfl
  | cons request rest ih => simp [play_cons, ih]

theorem lengths_play (position : Nat) (requests : List (Request α)) :
    (play wave mul silence position requests).1.map List.length =
      requests.map Request.length := by
  induction requests generalizing position with
  | nil => rfl
  | cons request rest ih => simp [play_cons, ih, Request.answer_samples, length_stretch]

theorem position_play {position : Nat} (within : position < sampleRate)
    (requests : List (Request α)) :
    (play wave mul silence position requests).2 =
      (position + (requests.map fun request => (request.length + 1) / 2).sum) % sampleRate := by
  induction requests generalizing position with
  | nil => exact (Nat.mod_eq_of_lt within).symm
  | cons request rest ih =>
    have inside := Nat.mod_lt (position + (request.length + 1) / 2) (by decide : sampleRate > 0)
    rw [play_cons, Request.answer_position wave mul silence request within, ih inside,
      Nat.mod_add_mod, List.map_cons, List.sum_cons, Nat.add_assoc]

theorem buffer_play (position : Nat) (before : List (Request α)) (request : Request α)
    (after : List (Request α)) :
    (play wave mul silence position (before ++ request :: after)).1[before.length]? =
      some (stretch (request.tone wave mul silence)
        (play wave mul silence position before).2 request.length) := by
  have count : (play wave mul silence position before).1.length = before.length := by
    simpa using congrArg List.length (lengths_play wave mul silence position before)
  rw [play_append, play_cons, ← count, List.getElem?_append_right (Nat.le_refl _), Nat.sub_self,
    Request.answer_samples]
  rfl

def Steady (volume : Option α) (requests : List (Request α)) : Prop :=
  ∀ request ∈ requests, request.length % 2 = 0 ∧ request.volume = volume

theorem stream_play {position : Nat} (within : position < sampleRate) {volume : Option α}
    {requests : List (Request α)} (steady : Steady volume requests) :
    (play wave mul silence position requests).1.flatten =
      stretch (fun p => mul (wave p) (volume.getD silence)) position
        (requests.map Request.length).sum := by
  induction requests generalizing position with
  | nil => rfl
  | cons request rest ih =>
    simp only [Steady, List.mem_cons, forall_eq_or_imp] at steady
    obtain ⟨⟨even, same⟩, steadyRest⟩ := steady
    obtain ⟨frames, whole⟩ : ∃ frames, request.length = 2 * frames :=
      ⟨request.length / 2, by omega⟩
    have half : (2 * frames + 1) / 2 = frames := by omega
    have inside := Nat.mod_lt (position + frames) (by decide : sampleRate > 0)
    have next := Request.answer_position wave mul silence request within
    rw [whole, half] at next
    rw [play_cons, List.flatten_cons, Request.answer_samples, next, ih inside steadyRest,
      List.map_cons, List.sum_cons, whole, stretch_frames_add, ← same]
    rfl

/-- However sound is asked for, the position after it counts the frames of all buffers, a frame that
was cut short among them, and each buffer goes on where the one before it ended, at the volume that
its own request found. So a steady tone does not tell how it was cut into buffers. -/
theorem tone_has_no_seams :
    (∀ requests : List (Request α),
      (play wave mul silence 0 requests).2 =
        (requests.map fun request => (request.length + 1) / 2).sum % 44100 ∧
      (play wave mul silence 0 requests).1.map List.length = requests.map Request.length) ∧
    (∀ (before : List (Request α)) (request : Request α) (after : List (Request α)),
      (play wave mul silence 0 (before ++ request :: after)).1[before.length]? =
        some ((List.range request.length).map fun i =>
          mul (wave (((play wave mul silence 0 before).2 + (i / 2 + 1)) % 44100))
            (request.volume.getD silence))) ∧
    ∀ (volume : Option α) (requests requests' : List (Request α)),
      Steady volume requests → Steady volume requests' →
      (requests.map Request.length).sum = (requests'.map Request.length).sum →
      (play wave mul silence 0 requests).1.flatten =
        (play wave mul silence 0 requests').1.flatten := by
  have start : 0 < sampleRate := by decide
  refine ⟨fun requests => ⟨?_, lengths_play wave mul silence 0 requests⟩,
    buffer_play wave mul silence 0, ?_⟩
  · rw [position_play wave mul silence start, Nat.zero_add]
    rfl
  · intro volume requests requests' steady steady' total
    rw [stream_play wave mul silence start steady, stream_play wave mul silence start steady',
      total]

end Play

def inThree : List (Request Nat) := [⟨2, some 3⟩, ⟨0, some 3⟩, ⟨6, some 3⟩]

theorem four_frames_have_no_seams :
    Steady (some 3) inThree ∧ Steady (some 3) [⟨8, some 3⟩] ∧
      (play (fun p => p) (· * ·) 0 0 inThree).1.flatten = [3, 3, 6, 6, 9, 9, 12, 12] ∧
      (play (fun p => p) (· * ·) 0 0 [⟨8, some 3⟩]).1.flatten = [3, 3, 6, 6, 9, 9, 12, 12] := by
  have three : Steady (some 3) inThree := by simp [Steady, inThree]
  have one : Steady (some 3) [(⟨8, some 3⟩ : Request Nat)] := by simp [Steady]
  obtain ⟨-, -, seamless⟩ := tone_has_no_seams (fun p => p) (· * ·) 0
  have same := seamless (some 3) inThree [⟨8, some 3⟩] three one rfl
  exact ⟨three, one, by decide, same ▸ by decide⟩

end Chip8.Tone
