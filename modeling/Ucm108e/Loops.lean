import Mathlib.Logic.Basic

/-!
Loops `while (test) body` that need not end. A loop is given a number of turns;
`after` is the state it has come to by then, `run` the state it ends in, if that
many turns suffice. The rules below turn facts about one turn into facts about
every state of the loop, about its end, and about loops without one.
-/
namespace Ucm108e.Loops

variable {σ : Type} {test : σ → Bool} {body : σ → σ}

/-- The state after so many turns, or at the end of the loop if that comes before. -/
def after (test : σ → Bool) (body : σ → σ) : Nat → σ → σ
  | 0, s => s
  | turns+1, s => if test s then after test body turns (body s) else s

def run (test : σ → Bool) (body : σ → σ) (turns : Nat) (s : σ) : Option σ :=
  if test (after test body turns s) then none else some (after test body turns s)

theorem after_ended {s : σ} (ended : test s = false) (turns : Nat) : after test body turns s = s := by
  cases turns with
  | zero => rfl
  | succ turns => rw [after,ended]; rfl

theorem run_ended {s : σ} (ended : test s = false) (turns : Nat) : run test body turns s = some s := by
  rw [run,after_ended ended,ended]
  rfl

theorem run_zero {s : σ} (more : test s = true) : run test body 0 s = none := by
  rw [run,after,more]
  rfl

theorem run_succ {s : σ} (more : test s = true) (turns : Nat) :
    run test body (turns+1) s = run test body turns (body s) := by
  rw [run,run,after,more]
  rfl

theorem run_eq_some {s s' : σ} {turns : Nat} :
    run test body turns s = some s' ↔ after test body turns s = s' ∧ test s' = false := by
  unfold run
  split
  next more =>
    refine iff_of_false (by rintro ⟨⟩) ?_
    rintro ⟨rfl,ended⟩
    rw [more] at ended
    cases ended
  next ended =>
    rw [Option.some_inj]
    refine ⟨?_,And.left⟩
    rintro rfl
    exact ⟨rfl,by simpa using ended⟩

/-- A function that makes the turns of a loop and stops where the loop ends is its run. -/
theorem run_unique {τ : Type} {f : Nat → σ → Option τ} {out : σ → τ}
    (done : ∀ turns s, test s = false → f turns s = some (out s)) (zero : ∀ s, test s = true → f 0 s = none)
    (succ : ∀ turns s, test s = true → f (turns+1) s = f turns (body s)) (turns : Nat) (s : σ) :
    f turns s = (run test body turns s).map out := by
  induction turns generalizing s with
  | zero =>
    cases more : test s with
    | false => rw [done 0 s more,run_ended more]; rfl
    | true => rw [zero s more,run_zero more]; rfl
  | succ turns ih =>
    cases more : test s with
    | false => rw [done _ s more,run_ended more]; rfl
    | true => rw [succ turns s more,run_succ more,ih]

/-- What holds at the start and is carried from turn to turn holds after as many
    turns as the loop has made; these are all that it was given, unless it has ended. -/
theorem after_counted {I : Nat → σ → Prop} (pass : ∀ k s, I k s → test s = true → I (k+1) (body s)) (turns : Nat) :
    ∀ {i : Nat} {s : σ}, I i s → ∃ k ≤ turns, I (i+k) (after test body turns s)
      ∧ (test (after test body turns s) = true → k = turns) := by
  induction turns with
  | zero => exact fun start => ⟨0,Nat.le_refl 0,start,fun _ => rfl⟩
  | succ turns ih =>
    intro i s start
    cases more : test s with
    | false =>
      rw [after_ended more]
      refine ⟨0,Nat.zero_le _,start,fun again => ?_⟩
      rw [more] at again
      cases again
    | true =>
      obtain ⟨k,few,holds,all⟩ := ih (pass i s start more)
      rw [after,if_pos more]
      refine ⟨k+1,Nat.succ_le_succ few,?_,fun again => by rw [all again]⟩
      rwa [Nat.add_right_comm] at holds

/-- What each turn preserves holds at every time. -/
theorem after_invariant {I : σ → Prop} (keeps : ∀ s, I s → test s = true → I (body s)) {s : σ} (start : I s)
    (turns : Nat) : I (after test body turns s) := by
  obtain ⟨-,-,holds,-⟩ := after_counted (I := fun _ => I) (fun _ => keeps) turns (i := 0) start
  exact holds

/-- A loop whose test holds in all states of an invariant does not end. -/
theorem run_endless {I : σ → Prop} (more : ∀ s, I s → test s = true) (keeps : ∀ s, I s → I (body s)) {s : σ}
    (start : I s) (turns : Nat) : run test body turns s = none :=
  if_pos (more _ (after_invariant (fun s inv _ => keeps s inv) start turns))

end Ucm108e.Loops
