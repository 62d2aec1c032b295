import Invigilator.Exam.Fault
import Invigilator.Journal.Note

/-!
# Attempts

A call on a store: it may fail, it may change the store whether it fails or not, and it leaves
notes. A failed step ends the attempt, and what the steps before it did stays done.
-/

namespace Invigilator

/-- A call on a store of type `σ`. -/
def Attempt (σ α : Type) : Type := σ → (Except BackendFault α × σ) × List Note

namespace Attempt

variable {σ α β : Type}

def run (a : Attempt σ α) (s : σ) : (Except BackendFault α × σ) × List Note := a s

/-- Does nothing. -/
def done (x : α) : Attempt σ α := fun s => ((.ok x, s), [])

/-- Fails. -/
def fail (fault : BackendFault) : Attempt σ α := fun s => ((.error fault, s), [])

/-- Leaves notes. -/
def note (notes : List Note) : Attempt σ Unit := fun s => ((.ok (), s), notes)

/-- One step after the other, unless the first fails. -/
def andThen (a : Attempt σ α) (f : α → Attempt σ β) : Attempt σ β := fun s =>
  match a s with
  | ((.error fault, s), notes) => ((.error fault, s), notes)
  | ((.ok x, s), notes) =>
    let (result, more) := f x s
    (result, notes ++ more)

instance : Monad (Attempt σ) where
  pure := done
  bind := andThen

/-- The attempt, counted as an operation of a backing store. -/
def tracked (backend operation : String) (a : Attempt σ α) : Attempt σ α := fun s =>
  match a s with
  | ((.error fault, s), notes) =>
    ((.error fault, s), notes ++ [.count (.storeOperations backend operation "error")])
  | ((.ok x, s), notes) =>
    ((.ok x, s), notes ++ [.count (.storeOperations backend operation "success")])

@[simp] theorem run_pure (x : α) (s : σ) : (pure x : Attempt σ α).run s = ((.ok x, s), []) := rfl

@[simp] theorem run_fail (fault : BackendFault) (s : σ) :
    (fail fault : Attempt σ α).run s = ((.error fault, s), []) := rfl

@[simp] theorem run_note (notes : List Note) (s : σ) :
    (note notes : Attempt σ Unit).run s = ((.ok (), s), notes) := rfl

theorem run_bind (a : Attempt σ α) (f : α → Attempt σ β) (s : σ) :
    (a >>= f).run s =
      match a.run s with
      | ((.error fault, s), notes) => ((.error fault, s), notes)
      | ((.ok x, s), notes) => (((f x).run s).1, notes ++ ((f x).run s).2) := rfl

end Attempt

end Invigilator
