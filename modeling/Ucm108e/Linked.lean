import Mathlib

/-!
Singly linked lists in a memory of cells, reached from a header cell that holds
no entry itself. A walk follows the links and is given a number of steps, as the
links may run in a circle; where they lead through a list, it finds what a search
of the list finds.
-/
namespace Ucm108e.Linked

variable {α β : Type}

structure Cell (α β : Type) where
  data : β
  next : Option α

/-- The links lead from `p` through the cells of a list and end there. -/
def Chain (cell : α → Cell α β) : α → List α → Prop
  | p, [] => (cell p).next = none
  | p, q :: rest => (cell p).next = some q ∧ Chain cell q rest

/-- The cells that the links lead to. -/
inductive Reachable (cell : α → Cell α β) (p : α) : α → Prop
  | start : Reachable cell p p
  | link {q r : α} : Reachable cell p q → (cell q).next = some r → Reachable cell p r

/-- The first cell behind `p` whose entry passes a test; `none` when the steps
    do not reach the end. -/
def findFrom (cell : α → Cell α β) (test : β → Bool) : Nat → α → Option (Option α)
  | 0, _ => none
  | steps+1, p =>
    match (cell p).next with
    | none => some none
    | some q => if test (cell q).data then some (some q) else findFrom cell test steps q

/-- The last cell from `p` on. -/
def lastFrom (cell : α → Cell α β) : Nat → α → Option α
  | 0, _ => none
  | steps+1, p =>
    match (cell p).next with
    | none => some p
    | some q => lastFrom cell steps q

/-! ### Walks along a chain -/

theorem chain_congr {cell cell' : α → Cell α β} {p : α} {as : List α}
    (same : ∀ a ∈ p :: as, (cell' a).next = (cell a).next) (chain : Chain cell p as) : Chain cell' p as := by
  induction as generalizing p with
  | nil => exact (same p (List.mem_cons_self ..)).trans chain
  | cons q rest ih =>
    obtain ⟨link,tail⟩ := chain
    refine ⟨(same p (List.mem_cons_self ..)).trans link,ih ?_ tail⟩
    intro a member
    exact same a (List.mem_cons_of_mem _ member)

theorem findFrom_chain {cell : α → Cell α β} (test : β → Bool) {p : α} {as : List α} (chain : Chain cell p as)
    {steps : Nat} (enough : as.length < steps) :
    findFrom cell test steps p = some (as.find? fun a => test (cell a).data) := by
  induction as generalizing p steps with
  | nil =>
    obtain ⟨steps,rfl⟩ := Nat.exists_eq_add_of_lt enough
    simp only [findFrom,show (cell p).next = none from chain,List.find?_nil]
  | cons q rest ih =>
    obtain ⟨link,tail⟩ := chain
    obtain ⟨steps,rfl⟩ : ∃ n, steps = n+1 := ⟨steps-1,by omega⟩
    simp only [List.length_cons] at enough
    simp only [findFrom,link]
    by_cases hit : test (cell q).data = true
    · simp only [hit,if_true,List.find?_cons]
    · rw [if_neg hit,ih tail (by omega)]
      simp only [List.find?_cons,hit]

theorem lastFrom_chain {cell : α → Cell α β} {p : α} {as : List α} (chain : Chain cell p as) {steps : Nat}
    (enough : as.length < steps) : lastFrom cell steps p = some ((p :: as).getLast (List.cons_ne_nil _ _)) := by
  induction as generalizing p steps with
  | nil =>
    obtain ⟨steps,rfl⟩ : ∃ n, steps = n+1 := ⟨steps-1,by simp at enough; omega⟩
    simp only [lastFrom,show (cell p).next = none from chain,List.getLast_singleton]
  | cons q rest ih =>
    obtain ⟨link,tail⟩ := chain
    obtain ⟨steps,rfl⟩ : ∃ n, steps = n+1 := ⟨steps-1,by omega⟩
    simp only [List.length_cons] at enough
    simp only [lastFrom,link]
    rw [ih tail (by omega),List.getLast_cons (List.cons_ne_nil _ _)]

/-- The cells that can be reached are those of the chain. -/
theorem reachable_iff {cell : α → Cell α β} {p : α} {as : List α} (chain : Chain cell p as) (a : α) :
    Reachable cell p a ↔ a ∈ p :: as := by
  constructor
  · intro reach
    -- every link from a cell of the chain stays in the chain
    have closed : ∀ {p : α} {as : List α}, Chain cell p as → ∀ q ∈ p :: as, ∀ r, (cell q).next = some r → r ∈ p :: as := by
      intro p as chain
      induction as generalizing p with
      | nil =>
        intro q member r link
        rw [List.mem_singleton.mp member,show (cell p).next = none from chain] at link
        cases link
      | cons s rest ih =>
        obtain ⟨first,tail⟩ := chain
        intro q member r link
        rcases List.mem_cons.mp member with rfl | later
        · rw [first] at link
          cases link
          exact List.mem_cons_of_mem _ (List.mem_cons_self ..)
        · exact List.mem_cons_of_mem _ (ih tail q later r link)
    induction reach with
    | start => exact List.mem_cons_self ..
    | link _ next ih => exact closed chain _ ih _ next
  · have along : ∀ (as : List α) (q : α), Reachable cell p q → Chain cell q as → ∀ a ∈ q :: as, Reachable cell p a := by
      intro as
      induction as with
      | nil =>
        intro q reach _ a member
        rwa [List.mem_singleton.mp member]
      | cons r rest ih =>
        intro q reach chain a member
        rcases List.mem_cons.mp member with rfl | later
        · exact reach
        · exact ih r (.link reach chain.1) chain.2 a later
    exact along as p .start chain a

/-! ### Changes -/

variable [DecidableEq α]

/-- The entry of a cell replaced. -/
def setData (cell : α → Cell α β) (a : α) (x : β) : α → Cell α β := Function.update cell a { cell a with data := x }

/-- The link of a cell replaced. -/
def setNext (cell : α → Cell α β) (a : α) (next : Option α) : α → Cell α β :=
  Function.update cell a { cell a with next := next }

theorem setData_next (cell : α → Cell α β) (a b : α) (x : β) : (setData cell a x b).next = (cell b).next := by
  by_cases same : b = a
  · subst same
    simp [setData]
  · simp [setData,same]

theorem setData_data (cell : α → Cell α β) (a b : α) (x : β) :
    (setData cell a x b).data = if b = a then x else (cell b).data := by
  by_cases same : b = a
  · subst same
    simp [setData]
  · simp [setData,same]

theorem setNext_data (cell : α → Cell α β) (a b : α) (next : Option α) : (setNext cell a next b).data = (cell b).data := by
  by_cases same : b = a
  · subst same
    simp [setNext]
  · simp [setNext,same]

theorem setNext_other (cell : α → Cell α β) {a b : α} (other : b ≠ a) (next : Option α) :
    setNext cell a next b = cell b := by
  simp [setNext,other]

/-- Linking a cell behind the last one puts it at the end of the list. -/
theorem chain_append {cell : α → Cell α β} {p new : α} {as : List α} (chain : Chain cell p as)
    (distinct : (p :: as).Nodup) (fresh : new ∉ p :: as) (ends : (cell new).next = none) :
    Chain (setNext cell ((p :: as).getLast (List.cons_ne_nil _ _)) (some new)) p (as ++ [new]) := by
  induction as generalizing p with
  | nil =>
    have other : new ≠ p := fun same => fresh (by simp [same])
    refine ⟨by simp [setNext],?_⟩
    change (setNext cell _ _ new).next = none
    rw [List.getLast_singleton,setNext_other cell other,ends]
  | cons q rest ih =>
    obtain ⟨link,tail⟩ := chain
    obtain ⟨notIn,later⟩ := List.nodup_cons.mp distinct
    have deeper := ih tail later fun member => fresh (List.mem_cons_of_mem _ member)
    have before : p ≠ (q :: rest).getLast (List.cons_ne_nil _ _) := by
      intro same
      exact notIn (same ▸ List.getLast_mem _)
    rw [List.getLast_cons (List.cons_ne_nil _ _)]
    exact ⟨by rw [setNext_other cell before,link],deeper⟩

end Ucm108e.Linked
