import Chip8.Proofs.Effects

set_option autoImplicit false

namespace Chip8

section System

variable {σ τ κ α : Type}

def answers (step : σ → κ → α × σ) : σ → List κ → List α
  | _, [] => []
  | s, command :: rest => (step s command).1 :: answers step (step s command).2 rest

def arrival (step : σ → κ → α × σ) (s : σ) (commands : List κ) : σ :=
  commands.foldl (fun s command => (step s command).2) s

def Simulates (step : σ → κ → α × σ) (step' : τ → κ → α × τ) (belong : σ → τ → Prop) : Prop :=
  ∀ s t, belong s t → ∀ command,
    (step s command).1 = (step' t command).1 ∧ belong (step s command).2 (step' t command).2

variable {step : σ → κ → α × σ} {step' : τ → κ → α × τ} {belong : σ → τ → Prop} {s : σ} {t : τ}

theorem Simulates.answers_eq (simulates : Simulates step step' belong) (related : belong s t)
    (commands : List κ) : answers step s commands = answers step' t commands := by
  induction commands generalizing s t with
  | nil => rfl
  | cons command rest ih =>
    obtain ⟨same, next⟩ := simulates s t related command
    rw [answers, answers, same, ih next]

theorem Simulates.arrival (simulates : Simulates step step' belong) (related : belong s t)
    (commands : List κ) : belong (arrival step s commands) (arrival step' t commands) := by
  induction commands generalizing s t with
  | nil => exact related
  | cons command rest ih => exact ih (simulates s t related command).2

end System

def Exec.attempt {α : Type} (effect : Exec α) (m : Machine) : Except (Halt Fault) α × Machine :=
  match effect m with
  | .ok a next => (.ok a, next)
  | .error halt next => (.error halt, next)

theorem Exec.attempt_map {α β : Type} (effect : Exec α) (f : α → β) (m : Machine) :
    (do return f (← effect) : Exec β).attempt m =
      ((effect.attempt m).1.map f, (effect.attempt m).2) := by
  rw [attempt, attempt, bind_run]
  cases effect m <;> rfl

end Chip8
