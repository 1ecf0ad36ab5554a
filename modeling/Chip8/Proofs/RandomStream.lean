import Chip8.Proofs.Footprint

set_option autoImplicit false

namespace Chip8.Machine

variable (m : Machine)

def Draws (command : Command) : Prop :=
  command = .step ∧ m.Runs ⟨0xC, .x, .k, .k⟩

instance (command : Command) : Decidable (m.Draws command) :=
  inferInstanceAs (Decidable (_ ∧ _))

def drawn (m : Machine) : List Command → Nat
  | [] => 0
  | command :: rest => (if m.Draws command then 1 else 0) + drawn (m.perform command).2 rest

variable {m} {command : Command}

theorem step_of_random {x : Fin 16} {mask : UInt8}
    (fetched : m.Fetches (Instruction.random x mask).encode) :
    m.step = (.ok .executed, m.advance.after (.random x mask)) :=
  step_of_encode fetched

theorem random_of_draws (draws : m.Draws command) :
    (m.perform command).2.random = m.random.skip := by
  obtain ⟨rfl, runs⟩ := draws
  obtain ⟨i, form, fetched⟩ := runs.exists_instruction (by decide)
  cases i with
  | random x mask => exact congrArg (·.2.random) (step_of_random fetched)
  | _ => cases form

theorem random_of_not_draws (idle : ¬ m.Draws command) :
    (m.perform command).2.random = m.random := by
  by_contra changed
  have step : command = .step :=
    eq_step_of_changed (fun m => m.random) (fun _ _ _ _ _ => rfl) changed
  subst step
  exact idle ⟨rfl, (m.footprint.random changed).1⟩

theorem random_performAll (m : Machine) (history : List Command) :
    (m.performAll history).random =
      ⟨m.random.word, m.random.position + m.drawn history⟩ := by
  induction history generalizing m with
  | nil => rfl
  | cons command rest ih =>
    refine (ih _).trans ?_
    by_cases draws : m.Draws command
    · rw [random_of_draws draws, drawn, if_pos draws, ← Nat.add_assoc]
      rfl
    · rw [random_of_not_draws draws, drawn, if_neg draws, Nat.zero_add]

variable (m) in
structure Takes (x : Fin 16) (mask : UInt8) (w : UInt32) : Prop where
  executed : m.step.1 = .ok .executed
  value : m.step.2.store.v.get x = w.toUInt8 &&& mask
  others (k : Fin 16) : k ≠ x → m.step.2.store.v.get k = m.store.v.get k
  unmasked : m.step.2.store.v.get x &&& ~~~mask = 0
  zero : mask = 0 → m.step.2.store.v.get x = 0
  position : m.step.2.random.position = m.random.position + 1

theorem takes_of_random {x : Fin 16} {mask : UInt8}
    (fetched : m.Fetches (Instruction.random x mask).encode) :
    m.Takes x mask (m.random.word m.random.position) := by
  have value : (m.advance.after (.random x mask)).store.v.get x = m.random.byte &&& mask :=
    Exec.get_put_self _ x _
  rw [Random.Source.byte] at value
  have step := congrArg Prod.snd (step_of_random fetched)
  refine ⟨congrArg Prod.fst (step_of_random fetched), ?_, ?_, ?_, ?_, ?_⟩ <;> rw [step]
  · exact value
  · exact fun k other => Exec.get_put_of_ne _ other _
  · rw [value, UInt8.and_assoc, UInt8.and_not_self, UInt8.and_zero]
  · rintro rfl
    rw [value, UInt8.and_zero]
  · rfl

/-- Whatever is done to a fresh machine, the random bytes that its instructions take are the words
of the source in their order, with none left out and none taken by anything else. -/
theorem random_words_in_order {word : Nat → UInt32} {history : List Command}
    (reached : (fresh ⟨word, 0⟩).performAll history = m) :
    m.random = ⟨word, (fresh ⟨word, 0⟩).drawn history⟩ ∧
    (∀ x mask, m.Fetches (Instruction.random x mask).encode →
      m.Takes x mask (word ((fresh ⟨word, 0⟩).drawn history))) ∧
    ∀ command, ¬ m.Draws command → (m.perform command).2.random = m.random := by
  have position : m.random = ⟨word, (fresh ⟨word, 0⟩).drawn history⟩ := by
    rw [← reached, random_performAll]
    exact congrArg (Random.Source.mk word) (Nat.zero_add _)
  refine ⟨position, ?_, fun command idle => random_of_not_draws idle⟩
  intro x mask fetched
  have takes := takes_of_random fetched
  rw [position] at takes
  exact takes

def twoDraws : List UInt8 := [0xC0, 0xFF, 0x00, 0x00, 0xC1, 0x0F]

-- What is done before the second byte: failures, keys and another load take no word.
def detour : List Command :=
  [.load twoDraws, .step, .load twoDraws, .step, .resume 16 0, .keys (.press 3), .tick .delay]

theorem second_random_word :
    (((fresh ⟨fun j => 0x1F3 * UInt32.ofNat (j + 1), 0⟩).performAll detour).Fetches
        (Instruction.random 1 0x0F).encode) ∧
      ((fresh ⟨fun j => 0x1F3 * UInt32.ofNat (j + 1), 0⟩).performAll
        detour).step.2.store.v.get 1 = 0x06 := by
  obtain ⟨fetch, drawn⟩ :
      ((fresh ⟨fun j => 0x1F3 * UInt32.ofNat (j + 1), 0⟩).performAll detour).fetch =
          .ok (Instruction.random 1 0x0F).encode ∧
        (fresh ⟨fun j => 0x1F3 * UInt32.ofNat (j + 1), 0⟩).drawn detour = 1 := by
    decide +kernel
  have fetched := fetch_eq_ok_iff.1 fetch
  have takes := (random_words_in_order rfl).2.1 1 0x0F fetched
  rw [drawn] at takes
  exact ⟨fetched, takes.value⟩

end Chip8.Machine
