import Mathlib

/-!
Machines that take one input at a time and may emit one output for it. A run is
a list of inputs; `Along` says what every step of a run meets at the state it
starts from, `Throughout` what every state of a run satisfies. The rules below
turn facts about one step into facts about whole runs.
-/
namespace Ucm108e.Machine

variable {σ ι ω : Type}

/-- The state that a run ends in. -/
def final (step : σ → ι → σ × Option ω) : σ → List ι → σ
  | s, [] => s
  | s, x :: rest => final step (step s x).1 rest

/-- What a run emits, in order. -/
def outputs (step : σ → ι → σ × Option ω) : σ → List ι → List ω
  | _, [] => []
  | s, x :: rest => (step s x).2.toList ++ outputs step (step s x).1 rest

/-- Every step of a run meets `P` at the state it starts from. -/
def Along (step : σ → ι → σ × Option ω) (P : σ → ι → Prop) : σ → List ι → Prop
  | _, [] => True
  | s, x :: rest => P s x ∧ Along step P (step s x).1 rest

/-- Every state of a run, the first and the last included, satisfies `Q`. -/
def Throughout (step : σ → ι → σ × Option ω) (Q : σ → Prop) : σ → List ι → Prop
  | s, [] => Q s
  | s, x :: rest => Q s ∧ Throughout step Q (step s x).1 rest

instance decidableAlong (step : σ → ι → σ × Option ω) (P : σ → ι → Prop) [∀ s x, Decidable (P s x)] :
    ∀ s xs, Decidable (Along step P s xs)
  | _, [] => inferInstanceAs (Decidable True)
  | s, x :: rest =>
    have := decidableAlong step P (step s x).1 rest
    inferInstanceAs (Decidable (P s x ∧ Along step P (step s x).1 rest))

instance decidableThroughout (step : σ → ι → σ × Option ω) (Q : σ → Prop) [∀ s, Decidable (Q s)] :
    ∀ s xs, Decidable (Throughout step Q s xs)
  | s, [] => inferInstanceAs (Decidable (Q s))
  | s, x :: rest =>
    have := decidableThroughout step Q (step s x).1 rest
    inferInstanceAs (Decidable (Q s ∧ Throughout step Q (step s x).1 rest))

section
variable (step : σ → ι → σ × Option ω)

theorem final_append (s : σ) (xs ys : List ι) :
    final step s (xs ++ ys) = final step (final step s xs) ys := by
  induction xs generalizing s with
  | nil => rfl
  | cons x rest ih => exact ih (step s x).1

theorem outputs_append (s : σ) (xs ys : List ι) :
    outputs step s (xs ++ ys) = outputs step s xs ++ outputs step (final step s xs) ys := by
  induction xs generalizing s with
  | nil => rfl
  | cons x rest ih => simp only [List.cons_append,outputs,final,ih,List.append_assoc]

theorem along_append (P : σ → ι → Prop) (s : σ) (xs ys : List ι) :
    Along step P s (xs ++ ys) ↔ Along step P s xs ∧ Along step P (final step s xs) ys := by
  induction xs generalizing s with
  | nil => simp [Along,final]
  | cons x rest ih => simp only [List.cons_append,Along,final,ih,and_assoc]

theorem along_and_iff (P P' : σ → ι → Prop) (s : σ) (xs : List ι) :
    Along step (fun s x => P s x ∧ P' s x) s xs ↔ Along step P s xs ∧ Along step P' s xs := by
  induction xs generalizing s with
  | nil => simp [Along]
  | cons x rest ih => simp only [Along,ih]; tauto

theorem along_and {P P' : σ → ι → Prop} {s : σ} {xs : List ι} (first : Along step P s xs) (second : Along step P' s xs) :
    Along step (fun s x => P s x ∧ P' s x) s xs :=
  (along_and_iff step P P' s xs).mpr ⟨first,second⟩

theorem throughout_final {Q : σ → Prop} {s : σ} {xs : List ι} (all : Throughout step Q s xs) : Q (final step s xs) := by
  induction xs generalizing s with
  | nil => exact all
  | cons x rest ih => exact ih all.2

theorem along_true (s : σ) (xs : List ι) : Along step (fun _ _ => True) s xs := by
  induction xs generalizing s with
  | nil => trivial
  | cons x rest ih => exact ⟨trivial,ih _⟩

/-- A condition on the inputs alone. -/
theorem along_inputs (R : ι → Prop) (s : σ) (xs : List ι) : Along step (fun _ x => R x) s xs ↔ ∀ x ∈ xs, R x := by
  induction xs generalizing s with
  | nil => simp [Along]
  | cons x rest ih => simp only [Along,ih,List.forall_mem_cons]

theorem along_states {Q : σ → Prop} {s : σ} {xs : List ι} (all : Throughout step Q s xs) :
    Along step (fun s _ => Q s) s xs := by
  induction xs generalizing s with
  | nil => trivial
  | cons x rest ih => exact ⟨all.1,ih all.2⟩

theorem throughout_first {Q : σ → Prop} {s : σ} {xs : List ι} (all : Throughout step Q s xs) : Q s := by
  cases xs with
  | nil => exact all
  | cons x rest => exact all.1
end

section
variable {step : σ → ι → σ × Option ω} {A P : σ → ι → Prop} {I Q : σ → Prop}

theorem final_invariant (keeps : ∀ s x, I s → A s x → I (step s x).1) {s : σ} {xs : List ι} (start : I s)
    (allowed : Along step A s xs) : I (final step s xs) := by
  induction xs generalizing s with
  | nil => exact start
  | cons x rest ih => exact ih (keeps s x start allowed.1) allowed.2

/-- A relation between the state and what has been emitted so far. -/
theorem history_invariant {J : σ → List ω → Prop} (keeps : ∀ s t x, J s t → J (step s x).1 (t ++ (step s x).2.toList))
    {s : σ} {t : List ω} (start : J s t) (xs : List ι) : J (final step s xs) (t ++ outputs step s xs) := by
  induction xs generalizing s t with
  | nil =>
    rw [outputs,List.append_nil]
    exact start
  | cons x rest ih =>
    rw [outputs,← List.append_assoc]
    exact ih (keeps s t x start)

/-- What holds of every step that meets `A` from a state of `Q` holds along a
    run of such steps through `Q`. -/
theorem along_of_throughout (holds : ∀ s x, Q s → A s x → P s x) {s : σ} {xs : List ι} (all : Throughout step Q s xs)
    (allowed : Along step A s xs) : Along step P s xs := by
  induction xs generalizing s with
  | nil => trivial
  | cons x rest ih => exact ⟨holds s x all.1 allowed.1,ih all.2 allowed.2⟩

/-- What holds of every step that meets `A` from the states of an invariant
    holds along a run of such steps. -/
theorem along_invariant (keeps : ∀ s x, I s → A s x → I (step s x).1) (holds : ∀ s x, I s → A s x → P s x) {s : σ}
    {xs : List ι} (start : I s) (allowed : Along step A s xs) : Along step P s xs := by
  induction xs generalizing s with
  | nil => trivial
  | cons x rest ih => exact ⟨holds s x start allowed.1,ih (keeps s x start allowed.1) allowed.2⟩

/-- What holds of the states of an invariant holds throughout a run. -/
theorem throughout_invariant (keeps : ∀ s x, I s → A s x → I (step s x).1) (holds : ∀ s, I s → Q s) {s : σ} {xs : List ι}
    (start : I s) (allowed : Along step A s xs) : Throughout step Q s xs := by
  induction xs generalizing s with
  | nil => exact holds s start
  | cons x rest ih => exact ⟨holds s start,ih (keeps s x start allowed.1) allowed.2⟩

/-- A condition holds along a run when each step meets it once those before do. -/
theorem along_of_prefixes {s : σ} {xs : List ι}
    (each : ∀ before x after, xs = before ++ x :: after → Along step P s before → P (final step s before) x) :
    Along step P s xs := by
  induction xs generalizing s with
  | nil => trivial
  | cons x rest ih =>
    have first : P s x := each [] x rest rfl trivial
    refine ⟨first,ih fun before y after same along => ?_⟩
    exact each (x :: before) y after (by rw [same,List.cons_append]) ⟨first,along⟩

/-- Conditions that agree on the steps from the states of an invariant agree
    along runs, also when only the steps that meet them keep the invariant. -/
theorem along_iff_of_kept {P' : σ → ι → Prop} (keeps : ∀ s x, I s → A s x → P s x → I (step s x).1)
    (agree : ∀ s x, I s → A s x → (P s x ↔ P' s x)) {s : σ} {xs : List ι} (start : I s) (allowed : Along step A s xs) :
    Along step P s xs ↔ Along step P' s xs := by
  induction xs generalizing s with
  | nil => rfl
  | cons x rest ih =>
    have now := agree s x start allowed.1
    constructor
    · rintro ⟨met,later⟩
      exact ⟨now.mp met,(ih (keeps s x start allowed.1 met) allowed.2).mp later⟩
    · rintro ⟨met,later⟩
      have met' := now.mpr met
      exact ⟨met',(ih (keeps s x start allowed.1 met') allowed.2).mpr later⟩

/-- The same when every step is allowed. -/
theorem along_iff_of_invariant {P' : σ → ι → Prop} (keeps : ∀ s x, I s → P s x → I (step s x).1)
    (agree : ∀ s x, I s → (P s x ↔ P' s x)) {s : σ} (start : I s) (xs : List ι) :
    Along step P s xs ↔ Along step P' s xs :=
  along_iff_of_kept (fun s x inv _ meets => keeps s x inv meets) (fun s x inv _ => agree s x inv) start
    (along_true step s xs)

theorem along_congr {P' : σ → ι → Prop} (keeps : ∀ s x, I s → A s x → I (step s x).1)
    (agree : ∀ s x, I s → A s x → (P s x ↔ P' s x)) {s : σ} {xs : List ι} (start : I s) (allowed : Along step A s xs) :
    Along step P s xs ↔ Along step P' s xs :=
  along_iff_of_kept (fun s x inv meets _ => keeps s x inv meets) agree start allowed

theorem outputs_invariant {O : ω → Prop} (keeps : ∀ s x, I s → A s x → I (step s x).1)
    (emits : ∀ s x o, I s → A s x → (step s x).2 = some o → O o) {s : σ} {xs : List ι} (start : I s)
    (allowed : Along step A s xs) : ∀ o ∈ outputs step s xs, O o := by
  induction xs generalizing s with
  | nil => intro o member; cases member
  | cons x rest ih =>
    intro o member
    rcases List.mem_append.mp member with now | later
    · exact emits s x o start allowed.1 (Option.mem_toList.mp now)
    · exact ih (keeps s x start allowed.1) allowed.2 o later

/-- When `P` says of each step exactly whether it keeps `Q`, a run stays in `Q`
    exactly when all its steps meet `P`. -/
theorem throughout_iff_along (keeps : ∀ s x, I s → A s x → I (step s x).1)
    (exact_step : ∀ s x, I s → Q s → A s x → (Q (step s x).1 ↔ P s x)) {s : σ} {xs : List ι} (start : I s)
    (good : Q s) (allowed : Along step A s xs) : Throughout step Q s xs ↔ Along step P s xs := by
  induction xs generalizing s with
  | nil => exact ⟨fun _ => trivial,fun _ => good⟩
  | cons x rest ih =>
    have now := exact_step s x start good allowed.1
    constructor
    · rintro ⟨_,later⟩
      have next := throughout_first step later
      exact ⟨now.mp next,(ih (keeps s x start allowed.1) next allowed.2).mp later⟩
    · rintro ⟨met,later⟩
      have next := now.mpr met
      exact ⟨good,(ih (keeps s x start allowed.1) next allowed.2).mpr later⟩
end

/-! ### Outputs against those wanted -/

section
variable {ω' : Type} {step : σ → ι → σ × Option ω} {want : σ → ι → Option ω'} {R : ω → ω' → Prop} {A : σ → ι → Prop}

/-- The steps of a machine with other outputs. -/
def relabel (step : σ → ι → σ × Option ω) (want : σ → ι → Option ω') (s : σ) (x : ι) : σ × Option ω' :=
  ((step s x).1,want s x)

variable (answers : ∀ s x w, A s x → want s x = some w → ∃ o, (step s x).2 = some o ∧ R o w)
include answers

theorem wanted_le {s : σ} {xs : List ι} (allowed : Along step A s xs) :
    (outputs (relabel step want) s xs).length ≤ (outputs step s xs).length := by
  induction xs generalizing s with
  | nil => exact Nat.le_refl _
  | cons x rest ih =>
    have later := ih allowed.2
    simp only [outputs,relabel,List.length_append] at later ⊢
    cases wanted : want s x with
    | none => simp; omega
    | some w =>
      obtain ⟨o,given,_⟩ := answers s x w allowed.1 wanted
      simp [given]
      omega

/-- When every output that is wanted is given, the outputs are those wanted
    exactly when no step gives one that is not. -/
theorem outputs_wanted_iff {s : σ} {xs : List ι} (allowed : Along step A s xs) :
    List.Forall₂ R (outputs step s xs) (outputs (relabel step want) s xs) ↔
      Along step (fun s x => want s x = none → (step s x).2 = none) s xs := by
  induction xs generalizing s with
  | nil => exact ⟨fun _ => trivial,fun _ => .nil⟩
  | cons x rest ih =>
    have later := ih allowed.2
    have fewer := wanted_le answers allowed.2
    simp only [outputs,Along,relabel] at later fewer ⊢
    cases wanted : want s x with
    | some w =>
      obtain ⟨o,given,related⟩ := answers s x w allowed.1 wanted
      simp [given,related,later]
    | none =>
      cases given : (step s x).2 with
      | none => simp; exact later
      | some o =>
        constructor
        · intro matched
          have same := matched.length_eq
          simp at same
          omega
        · rintro ⟨silent,_⟩
          cases silent rfl
end

end Ucm108e.Machine
