import Mathlib

/-!
Queues. An entry that is put behind those whose keys are not larger keeps a queue sorted, and
entries with the same key in the order in which they came. Queues of several levels stand
beside a mask that has the bit of every level that is not empty; the lowest such bit leads to
the first entry of the lowest level.
-/
namespace Ucm108e.Queues
set_option linter.unusedSimpArgs false

variable {α : Type}

/-! ### Sorted queues -/

/-- An entry is put behind those with keys that are not larger. -/
def insertAfter (key : α → Nat) (x : α) : List α → List α
  | [] => [x]
  | y :: rest => if key x < key y then x :: y :: rest else y :: insertAfter key x rest

section
variable {key : α → Nat} {x : α} {l : List α}

theorem insertAfter_perm (key : α → Nat) (x : α) (l : List α) : (insertAfter key x l).Perm (x :: l) := by
  induction l with
  | nil => exact .refl _
  | cons y rest ih =>
    rw [insertAfter]
    split
    · exact .refl _
    · exact (ih.cons y).trans (.swap x y rest)

@[simp] theorem mem_insertAfter {y : α} : y ∈ insertAfter key x l ↔ y = x ∨ y ∈ l := by
  rw [(insertAfter_perm key x l).mem_iff,List.mem_cons]

theorem pairwise_insertAfter (sorted : l.Pairwise fun y z => key y ≤ key z) :
    (insertAfter key x l).Pairwise fun y z => key y ≤ key z := by
  induction l with
  | nil => exact List.pairwise_singleton ..
  | cons y rest ih =>
    obtain ⟨first,rest'⟩ := List.pairwise_cons.mp sorted
    rw [insertAfter]
    split
    next before =>
      refine List.pairwise_cons.mpr ⟨fun z member => ?_,sorted⟩
      rcases List.mem_cons.mp member with rfl | later
      · omega
      · have := first z later
        omega
    next behind =>
      refine List.pairwise_cons.mpr ⟨fun z member => ?_,ih rest'⟩
      rcases mem_insertAfter.mp member with rfl | later
      · omega
      · exact first z later
end

/-! ### Levels -/

section
variable {n : Nat} {mask : BitVec n} {levels : Fin n → List α} {p : Fin n}

/-- The mask has the bits of the levels that are not empty. -/
def Marks (mask : BitVec n) (levels : Fin n → List α) : Prop := ∀ p : Fin n, mask.getLsbD p = true ↔ levels p ≠ []

theorem Marks.eq_zero_iff (marks : Marks mask levels) : mask = 0 ↔ ∀ p, levels p = [] := by
  constructor
  · intro zero p
    by_contra filled
    have bit := (marks p).mpr filled
    rw [zero] at bit
    simp at bit
  · intro empty
    refine BitVec.eq_of_getLsbD_eq fun i inside => ?_
    have bit := mt (marks ⟨i,inside⟩).mp (not_not.mpr (empty ⟨i,inside⟩))
    simpa using bit

theorem twoPow_other {q : Fin n} (other : q ≠ p) : (BitVec.twoPow n p).getLsbD q = false := by
  rw [BitVec.getLsbD_twoPow]
  simp [Fin.val_ne_of_ne other.symm]

/-- An entry is put at the end of a level. -/
theorem Marks.push (marks : Marks mask levels) (p : Fin n) (x : α) :
    Marks (mask ||| BitVec.twoPow n p) (Function.update levels p (levels p ++ [x])) := by
  intro q
  by_cases own : q = p
  · subst own
    simp [BitVec.getLsbD_twoPow]
  · rw [BitVec.getLsbD_or,twoPow_other own,Bool.or_false,Function.update_of_ne own]
    exact marks q

/-- Entries are taken out of one level, whose bit is cleared if none is left. -/
theorem Marks.drop (marks : Marks mask levels) (left : Fin n → List α) (others : ∀ q, q ≠ p → left q = levels q)
    (fewer : left p ≠ [] → levels p ≠ []) :
    Marks (if left p = [] then mask &&& ~~~ BitVec.twoPow n p else mask) left := by
  intro q
  by_cases own : q = p
  · subst own
    split
    next empty => simp [BitVec.getLsbD_twoPow,empty]
    next filled => simp [filled,(marks q).mpr (fewer filled)]
  · rw [others q own,← marks q]
    split
    · rw [BitVec.getLsbD_and,BitVec.getLsbD_not,twoPow_other own]
      simp
    · exact Iff.rfl

/-- The lowest bit of a mask. -/
structure Lowest (mask : BitVec n) (p : Nat) : Prop where
  set : mask.getLsbD p = true
  least : ∀ q < p, mask.getLsbD q = false

theorem Lowest.level (marks : Marks mask levels) (lowest : Lowest mask p) :
    levels p ≠ [] ∧ ∀ q, levels q ≠ [] → p ≤ q := by
  refine ⟨(marks p).mp lowest.set,fun q filled => ?_⟩
  by_contra below
  have clear := lowest.least q (by omega)
  rw [(marks q).mpr filled] at clear
  cases clear
end

end Ucm108e.Queues
