import Mathlib

/-!
Clocked serial lines. A history is every level that the wires had, the present one
first. One side samples the data at an edge of the clock; the other side presents
its next bit before that edge and holds it there until the edge has passed.
-/
namespace Ucm108e.Serial
set_option linter.unusedSimpArgs false

/-! ### Shift registers -/

/-- The bits of a byte, the most significant one first. -/
def bits (b : UInt8) : List Bool := (List.range 8).map b.toBitVec.getMsbD

/-- The bits that leave a register at its upper end. -/
def shiftOut : Nat → UInt8 → List Bool
  | 0, _ => []
  | n+1, b => (b &&& 0x80 != 0) :: shiftOut n (b <<< 1)

/-- A bit enters a register at its lower end. -/
def shiftIn (b : UInt8) (bit : Bool) : UInt8 := if bit then (b <<< 1)+1 else b <<< 1

theorem top_bit (b : UInt8) : (b &&& 0x80 != 0) = b.toBitVec.getMsbD 0 := by
  obtain ⟨v⟩ := b
  revert v
  decide +kernel

theorem shiftOut_eq (n : Nat) : ∀ b, shiftOut n b = (List.range n).map b.toBitVec.getMsbD := by
  induction n with
  | zero =>
    intro b
    rfl
  | succ n ih =>
    intro b
    rw [shiftOut,ih,top_bit,List.range_succ_eq_map,List.map_cons,List.map_map]
    congr 1
    refine List.map_congr_left fun i _ => ?_
    simp [BitVec.getMsbD_shiftLeft]

theorem shiftIn_eq (b : UInt8) (bit : Bool) : (shiftIn b bit).toBitVec = b.toBitVec.shiftConcat bit := by
  refine BitVec.eq_of_toNat_eq ?_
  rw [BitVec.toNat_shiftConcat]
  cases bit <;> simp [shiftIn]

theorem bits_shiftIn (b : UInt8) (bit : Bool) : bits (shiftIn b bit) = (bits b).tail ++ [bit] := by
  simp [bits,shiftIn_eq,List.range_succ,BitVec.getMsbD_eq_getLsbD]

/-- Bits that enter push out as many others. -/
theorem bits_foldl (l : List Bool) : ∀ b, l.length ≤ 8 → bits (l.foldl shiftIn b) = (bits b).drop l.length ++ l := by
  induction l with
  | nil => simp
  | cons bit rest ih =>
    intro b short
    have size : (bits b).length = 8 := rfl
    simp only [List.length_cons] at short
    rw [List.foldl_cons,ih _ (by omega),bits_shiftIn,List.drop_append_of_le_length (by simp; omega)]
    simp

/-! ### Histories -/

/-- Which wires carry the clock and the data, and the level of the clock that the
    sampling edge goes to. -/
structure Sampling (α : Type) where
  clock : α → Bool
  data : α → Bool
  level : Bool

namespace Sampling
variable {α : Type} (sampling : Sampling α)

def edge (old new : α) : Bool := sampling.clock old != sampling.level && sampling.clock new == sampling.level

theorem edge_iff {old new : α} :
    sampling.edge old new = true ↔ sampling.clock old ≠ sampling.level ∧ sampling.clock new = sampling.level := by
  simp [edge]

/-- The bits sampled in a history, the first one first. -/
def sampled : List α → List Bool
  | new :: old :: past => sampled (old :: past) ++ if sampling.edge old new then [sampling.data new] else []
  | _ => []

theorem sampled_edge {old new : α} (past : List α) (edge : sampling.edge old new = true) :
    sampling.sampled (new :: old :: past) = sampling.sampled (old :: past) ++ [sampling.data new] := by
  rw [sampled,if_pos edge]

theorem sampled_other {old new : α} (past : List α) (other : sampling.edge old new = false) :
    sampling.sampled (new :: old :: past) = sampling.sampled (old :: past) := by
  rw [sampled,other]
  simp

/-- The clock has not moved. -/
theorem edge_same {old new : α} (same : sampling.clock new = sampling.clock old) : sampling.edge old new = false := by
  refine Bool.eq_false_iff.mpr fun moved => ?_
  obtain ⟨away,there⟩ := sampling.edge_iff.mp moved
  exact away (same.symm.trans there)

end Sampling

/-- The history goes on from another one, at levels at which the slave stays selected. -/
def Onward {α : Type} (selected : α → Prop) (start history : List α) : Prop :=
  ∃ during, history = during ++ start ∧ ∀ levels ∈ during, selected levels

namespace Onward
variable {α : Type} {selected : α → Prop} {start history : List α}

theorem refl (selected : α → Prop) (start : List α) : Onward selected start start := ⟨[],rfl,by simp⟩

theorem step {levels : α} (onward : Onward selected start history) (still : selected levels) :
    Onward selected start (levels :: history) := by
  obtain ⟨during,rfl,kept⟩ := onward
  refine ⟨levels :: during,rfl,?_⟩
  simpa [still] using kept

theorem trans {further : List α} (first : Onward selected start history) (second : Onward selected history further) :
    Onward selected start further := by
  obtain ⟨during,rfl,kept⟩ := first
  obtain ⟨later,rfl,kept_later⟩ := second
  refine ⟨later ++ during,by rw [List.append_assoc],?_⟩
  intro levels member
  rcases List.mem_append.mp member with new | old
  · exact kept_later levels new
  · exact kept levels old

end Onward

/-! ### Slaves -/

/-- A slave: its level on the line to the master, which may depend on all that it has
    seen, and the bit that it sends next after the bits that it has received. -/
structure Slave (α : Type) where
  miso : List α → Bool
  next : List Bool → Bool

/-- While it stays selected, the slave has its next bit on the line before each
    sampling edge and still holds it after that edge. Between the edges the line may
    have any level. -/
structure Follows {α : Type} (sampling : Sampling α) (selected : α → Prop) (start : List α) (slave : Slave α) : Prop where
  presents : ∀ {old new past}, Onward selected start (old :: past) → selected new → sampling.edge old new = true →
    slave.miso (old :: past) = slave.next (sampling.sampled (old :: past))
  holds : ∀ {old new past}, Onward selected start (old :: past) → selected new → sampling.edge old new = true →
    slave.miso (new :: old :: past) = slave.miso (old :: past)

/-- The bits that a slave sends while it receives the given ones. -/
def answers (next : List Bool → Bool) : List Bool → List Bool → List Bool
  | _, [] => []
  | received, bit :: rest => next received :: answers next (received ++ [bit]) rest

@[simp] theorem answers_length (next : List Bool → Bool) (l : List Bool) :
    ∀ received, (answers next received l).length = l.length := by
  induction l with
  | nil => simp [answers]
  | cons bit rest ih => simp [answers,ih]

theorem answers_append (next : List Bool → Bool) (l m : List Bool) :
    ∀ received, answers next received (l ++ m) = answers next received l ++ answers next (received ++ l) m := by
  induction l with
  | nil => simp [answers]
  | cons bit rest ih => simp [answers,ih]

/-- The slave that changes its line at once, except at the sampling edge. -/
def prompt {α : Type} (sampling : Sampling α) (next : List Bool → Bool) : Slave α where
  next := next
  miso := fun
    | new :: old :: past => next (sampling.sampled (if sampling.edge old new then old :: past else new :: old :: past))
    | history => next (sampling.sampled history)

/-- Two sampling edges do not follow each other. -/
theorem Sampling.edge_once {α : Type} (sampling : Sampling α) {first old new : α} (edge : sampling.edge old new = true) :
    sampling.edge first old = false := by
  refine Bool.eq_false_iff.mpr fun earlier => ?_
  exact (sampling.edge_iff.mp edge).1 (sampling.edge_iff.mp earlier).2

theorem prompt_follows {α : Type} (sampling : Sampling α) (selected : α → Prop) (start : List α)
    (next : List Bool → Bool) : Follows sampling selected start (prompt sampling next) := by
  have presents : ∀ {old new past}, sampling.edge old new = true →
      (prompt sampling next).miso (old :: past) = next (sampling.sampled (old :: past)) := by
    intro old new past edge
    cases past with
    | nil => rfl
    | cons first past => simp [prompt,sampling.edge_once edge]
  refine ⟨fun _ _ edge => presents edge,fun _ _ edge => ?_⟩
  rw [presents edge]
  simp [prompt,edge]

end Ucm108e.Serial
