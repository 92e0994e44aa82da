import Descent.Fault
import Descent.Note

/-!
# Runs

A run has a result or stops with a fault, and in either case leaves the notes made on the way.
Runs compose in order: notes are appended, and nothing happens after a fault. The laws of a
monad hold, so that steps of a run may be regrouped freely.
-/

namespace Descent

/-- A computation that leaves notes and may stop with a fault. -/
structure Run (α : Type) where
  notes : List Note
  result : Except Fault α

namespace Run

/-- The run that does nothing but give a result. -/
def done {α : Type} (a : α) : Run α := ⟨[], .ok a⟩

/-- The run that stops with a fault. -/
def raise {α : Type} (fault : Fault) : Run α := ⟨[], .error fault⟩

/-- The run that leaves one note. -/
def note (n : Note) : Run Unit := ⟨[n], .ok ()⟩

/-- One run after another. -/
def andThen {α β : Type} (first : Run α) (next : α → Run β) : Run β :=
  match first.result with
  | .error fault => ⟨first.notes, .error fault⟩
  | .ok a =>
    let second := next a
    ⟨first.notes ++ second.notes, second.result⟩

instance : Monad Run where
  pure := done
  bind := andThen

/-- A check that may fault, as a step of a run. -/
def ofExcept {α : Type} (checked : Except Fault α) : Run α := ⟨[], checked⟩

/-- A run whose fault is part of the result, so that what comes after it still happens. -/
def caught {α : Type} (run : Run α) : Run (Except Fault α) := ⟨run.notes, .ok run.result⟩

/-- A result alone leaves no notes. -/
theorem pure_eq {α : Type} (a : α) : (pure a : Run α) = ⟨[], .ok a⟩ := rfl

/-- Two runs in order, taken apart by the result of the first. -/
theorem bind_eq {α β : Type} (first : Run α) (next : α → Run β) :
    (first >>= next) = first.andThen next := rfl

/-- The result of two runs in order depends on their results alone. -/
theorem result_bind {α β : Type} (first : Run α) (next : α → Run β) :
    (first >>= next).result = first.result >>= fun a => (next a).result := by
  rcases first with ⟨notes, result⟩
  cases result <;> rfl

/-- Changing nothing about the result changes nothing. -/
theorem id_map {α : Type} (run : Run α) : id <$> run = run := by
  rcases run with ⟨notes, result⟩
  cases result <;> simp [Functor.map, andThen, done]

/-- A result alone before a run changes nothing. -/
theorem pure_bind {α β : Type} (a : α) (next : α → Run β) : (pure a >>= next) = next a := by
  simp [bind_eq, andThen, pure_eq]

/-- How runs are grouped does not matter. -/
theorem bind_assoc {α β γ : Type} (run : Run α) (first : α → Run β) (second : β → Run γ) :
    (run >>= first >>= second) = (run >>= fun a => first a >>= second) := by
  rcases run with ⟨notes, result⟩
  cases result with
  | error fault => simp [bind_eq, andThen]
  | ok a =>
    simp only [bind_eq, andThen]
    cases (first a).result <;> simp

instance : LawfulMonad Run := LawfulMonad.mk' Run id_map pure_bind bind_assoc

end Run
end Descent
