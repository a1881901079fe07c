import Mathlib
import Ucm108e.KernelGuarantees

/-!
What the semaphores give out. The notes of a run say which threads got a semaphore, at once or from
a release while they waited for it, and who has given it back; its value accounts for the difference.
-/
namespace Ucm108e.Scheduling
open Ucm108e.Bytes Ucm108e.Queues Ucm108e.TimerList Ucm108e.Machine
set_option linter.unusedSimpArgs false

def Note.gets (sem : Nat) : Note → Bool
  | .got _ o => o = .sem sem
  | _ => false

def Note.gives (sem : Nat) : Note → Bool
  | .gave _ o => o = .sem sem
  | _ => false

/-- What the semaphore has, with what was got from it, is what it had, with what it was given. -/
def Balanced (before after : Nat → Nat) (notes : List Note) : Prop :=
  ∀ s, after s+notes.countP (Note.gets s) = before s+notes.countP (Note.gives s)

section
variable {idle t : Id} {k : Kernel} {s : System} {e : Event}

theorem Balanced.append {value value' value'' : Nat → Nat} {notes more : List Note} (first : Balanced value value' notes)
    (second : Balanced value' value'' more) : Balanced value value'' (notes ++ more) := by
  intro sem
  have := first sem
  have := second sem
  rw [List.countP_append,List.countP_append]
  omega

end

end Ucm108e.Scheduling
