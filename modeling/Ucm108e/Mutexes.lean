import Mathlib
import Ucm108e.Semaphores

/-!
Who holds the mutexes. The notes of a run say who has got a mutex and who has given it back; the
owner and the count of each mutex agree with them.
-/
namespace Ucm108e.Scheduling
open Ucm108e.Bytes Ucm108e.Queues Ucm108e.TimerList Ucm108e.Machine
set_option linter.unusedSimpArgs false

/-- A mutex is free or held, and counts how often. -/
structure Mutex.Ok (m : Mutex) : Prop where
  free : m.owner = none → m.value = 1 ∧ m.hold = 0
  held : m.owner ≠ none → m.value = 0 ∧ 0 < m.hold ∧ m.hold ≤ RT_MUTEX_HOLD_MAX

/-- How often a thread holds a mutex. -/
def Mutex.heldBy (m : Mutex) (t : Id) : Nat := if m.owner = some t then m.hold else 0

def Note.gotBy (t : Id) (o : Ipc) : Note → Bool
  | .got u o' => u = t ∧ o' = o
  | _ => false

def Note.gaveBy (t : Id) (o : Ipc) : Note → Bool
  | .gave u o' => u = some t ∧ o' = o
  | _ => false

/-- The mutexes stay well-formed, and the notes account for what each thread holds. -/
def Settled (before after : Nat → Mutex) (notes : List Note) : Prop :=
  ∀ m, (after m).Ok ∧ ∀ t, (after m).heldBy t+notes.countP (Note.gaveBy t (.mutex m))
    = (before m).heldBy t+notes.countP (Note.gotBy t (.mutex m))

section
variable {idle t u : Id} {k : Kernel} {e : Event} {mutexes : Nat → Mutex} {notes : List Note}

theorem Settled.append {mutexes mutexes' mutexes'' : Nat → Mutex} {notes more : List Note} (first : Settled mutexes mutexes' notes)
    (second : Settled mutexes' mutexes'' more) : Settled mutexes mutexes'' (notes ++ more) := by
  refine fun m => ⟨(second m).1,fun u => ?_⟩
  have := (first m).2 u
  have := (second m).2 u
  rw [List.countP_append,List.countP_append]
  omega

end

end Ucm108e.Scheduling
