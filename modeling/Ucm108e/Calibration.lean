import Mathlib
import Ucm108e.Registers
import Ucm108e.BestSearch

/-!
The calibration of the 32 kHz oscillator in `uc_rtc.c`. Its bias current and its
frequency have a field each in one trim register. `rc32k_autoset` searches one of
them, and for each code that it tries there searches the other. Both searches put
the best code back at their end unless they already stand on it, and a code that is
tried twice gives the same result twice, so the pair that is left in the register is
the best of all pairs that were measured.
-/
namespace Ucm108e.Calibration
open Ucm108e.Words Ucm108e.Registers Ucm108e.BestSearch
set_option linter.unusedSimpArgs false

def RC32K_REFERENCE_VALUE : Word := 131000000
def RC32K_DEVIATION_VALUE : Word := 655000
def RC32K_UPPER_LIMIT_VALUE : Word := RC32K_REFERENCE_VALUE+RC32K_DEVIATION_VALUE
def RC32K_LOWER_LIMIT_VALUE : Word := RC32K_REFERENCE_VALUE-RC32K_DEVIATION_VALUE

def RC32K_FREQ_FIRST : Word := 0
def RC32K_BIAS_FIRST : Word := 1

/-- The trim register at 0x1a104228, and the pairs of codes that were measured. -/
structure Rc32k where
  reg : Word
  measured : List (Word × Word)

def rc32k_set_clock_freq (freq_code : Word) (h : Rc32k) : Rc32k :=
  { h with reg := setField 22 15 freq_code (h.reg ||| BIT 14) }

def rc32k_set_bias_current (current_code : Word) (h : Rc32k) : Rc32k :=
  { h with reg := setField 12 10 current_code (h.reg ||| BIT 14) }

/-- The oscillator takes bit 0 back when the calibration is complete. -/
def rc32k_calibrate (h : Rc32k) : Rc32k := { h with reg := (h.reg ||| (BIT 0 ||| BIT 1)) &&& ~~~BIT 0 }

/-- `bias_code` and `freq_code`. -/
def rc32k_get_trim (h : Rc32k) : Word × Word := (field 12 10 h.reg,field 22 15 h.reg)

/-- The timer counts `g` of the pair that is set. -/
def rc32k_measure (g : Word × Word → Word) (h : Rc32k) : Rc32k × Word :=
  ({ h with measured := h.measured ++ [rc32k_get_trim h] },g (rc32k_get_trim h))

def rc32k_abs_diff (value : Word) : Word :=
  if value ≤ RC32K_REFERENCE_VALUE then RC32K_REFERENCE_VALUE-value else value-RC32K_REFERENCE_VALUE

def scale : Scale := ⟨rc32k_abs_diff,RC32K_UPPER_LIMIT_VALUE,RC32K_LOWER_LIMIT_VALUE⟩

/-- One of the two fields: the last number of `try_cnt` in a search for it, how it
    is set, and its place in a pair of codes. -/
structure Axis where
  last : Nat
  set : Word → Rc32k → Rc32k
  own : Word × Word → Word
  other : Word × Word → Word
  pair : Word → Word → Word × Word

def biasAxis : Axis := ⟨2,rc32k_set_bias_current,Prod.fst,Prod.snd,fun bias freq => (bias,freq)⟩

def freqAxis : Axis := ⟨7,rc32k_set_clock_freq,Prod.snd,Prod.fst,fun freq bias => (bias,freq)⟩

/-- A search starts with the highest bit alone, and without a best. -/
def start {β : Type} (a : Axis) (h : Rc32k) (best : β) : Search Rc32k β :=
  ⟨h,1#32 <<< a.last,1#32 <<< a.last,0,0xffffffff,0,best⟩

/-- The search for one field alone. -/
def autosetOne (g : Word × Word → Word) (a : Axis) (h : Rc32k) : Rc32k × Word :=
  let s := loop scale ⟨fun cur h => rc32k_calibrate (a.set cur h),rc32k_measure g,fun cur _ => cur⟩
    a.last (a.last+1) 0 (start a h (1#32 <<< a.last))
  if s.cur ≠ s.best then (rc32k_calibrate (a.set s.best s.plant),s.best_count) else (s.plant,s.count)

def rc32k_autoset_bias (g : Word × Word → Word) : Rc32k → Rc32k × Word := autosetOne g biasAxis

def rc32k_autoset_freq (g : Word × Word → Word) : Rc32k → Rc32k × Word := autosetOne g freqAxis

/-- The search for one field with a search for the other in each try. -/
def autosetBoth (a : Axis) (inner : Rc32k → Rc32k × Word) (best : Word × Word) (h : Rc32k) : Rc32k :=
  let s := loop scale ⟨fun cur h => rc32k_calibrate (a.set cur h),inner,fun _ h => rc32k_get_trim h⟩
    a.last (a.last+1) 0 (start a h best)
  if s.cur ≠ a.own s.best then
    rc32k_calibrate (rc32k_set_clock_freq s.best.2 (rc32k_set_bias_current s.best.1 s.plant))
  else s.plant

/-- `rc32k_autoset`; `unset` is what the best codes hold where they are not yet
    assigned. -/
def rc32k_autoset (g : Word × Word → Word) (mode : Word) (unset : Word × Word) (h : Rc32k) : Rc32k :=
  if mode = RC32K_FREQ_FIRST then autosetBoth freqAxis (rc32k_autoset_bias g) unset h
  else if mode = RC32K_BIAS_FIRST then autosetBoth biasAxis (rc32k_autoset_freq g) (rc32k_get_trim h) h
  else h

/-! ### The register -/

theorem calibrate_trim (h : Rc32k) : rc32k_get_trim (rc32k_calibrate h) = rc32k_get_trim h := by
  have same : ∀ i, 2 ≤ i → i < 32 → (rc32k_calibrate h).reg.getLsbD i = h.reg.getLsbD i := by
    intro i high small
    simp only [rc32k_calibrate,BitVec.getLsbD_and,BitVec.getLsbD_or,BitVec.getLsbD_not,
      BIT_bit (show i ≠ 0 by omega),BIT_bit (show i ≠ 1 by omega),small]
    simp
  refine Prod.ext ?_ ?_
  · exact field_congr fun i low high => same i (by omega) (by omega)
  · exact field_congr fun i low high => same i (by omega) (by omega)

theorem manual_field {H L : Nat} (apart : H < 14 ∨ 14 < L) (reg : Word) : field H L (reg ||| BIT 14) = field H L reg := by
  refine field_congr fun i low high => ?_
  rw [BitVec.getLsbD_or,BIT_bit (by omega),Bool.or_false]

theorem set_bias_trim {code : Word} (h : Rc32k) (small : code.toNat < 2^3) :
    rc32k_get_trim (rc32k_set_bias_current code h) = (code,(rc32k_get_trim h).2) := by
  refine Prod.ext ?_ ?_
  · exact field_setField _ (by omega) (by omega) small
  · simp only [rc32k_get_trim,rc32k_set_bias_current]
    rw [field_setField_other _ _ (by omega),manual_field (by omega)]

theorem set_freq_trim {code : Word} (h : Rc32k) (small : code.toNat < 2^8) :
    rc32k_get_trim (rc32k_set_clock_freq code h) = ((rc32k_get_trim h).1,code) := by
  refine Prod.ext ?_ ?_
  · simp only [rc32k_get_trim,rc32k_set_clock_freq]
    rw [field_setField_other _ _ (by omega),manual_field (by omega)]
  · exact field_setField _ (by omega) (by omega) small

/-- Setting a code of the right width changes its own field only. -/
structure Lawful (a : Axis) : Prop where
  fits : a.last < 32
  set_trim : ∀ {code : Word} (h : Rc32k), code.toNat < 2^(a.last+1) →
    rc32k_get_trim (a.set code h) = a.pair code (a.other (rc32k_get_trim h))
  set_measured : ∀ (code : Word) (h : Rc32k), (a.set code h).measured = h.measured
  own_pair : ∀ c o, a.own (a.pair c o) = c
  other_pair : ∀ c o, a.other (a.pair c o) = o

theorem lawful_bias : Lawful biasAxis := ⟨by decide,set_bias_trim,fun _ _ => rfl,fun _ _ => rfl,fun _ _ => rfl⟩

theorem lawful_freq : Lawful freqAxis := ⟨by decide,set_freq_trim,fun _ _ => rfl,fun _ _ => rfl,fun _ _ => rfl⟩

/-! ### One search -/

theorem abs_diff_toNat (value : Word) : (rc32k_abs_diff value).toNat = ((value.toNat : Int)-131000000).natAbs := by
  have reference : RC32K_REFERENCE_VALUE.toNat = 131000000 := rfl
  rw [rc32k_abs_diff]
  split
  next below =>
    rw [BitVec.toNat_sub_of_le below,reference]
    rw [BitVec.le_def,reference] at below
    omega
  next above =>
    have exceeds := BitVec.le_of_lt (BitVec.not_le.mp above)
    rw [BitVec.toNat_sub_of_le exceeds,reference]
    rw [BitVec.le_def,reference] at exceeds
    omega

theorem abs_diff_lt (value : Word) : rc32k_abs_diff value < 0xffffffff := by
  have bound := value.isLt
  have top : (0xffffffff : Word).toNat = 4294967295 := rfl
  rw [BitVec.lt_def,top,abs_diff_toNat]
  omega

/-- The codes that a search tries, and what it remembers of them. -/
def outcome {β : Type} (a : Axis) (C : Word → Word) (N : Word → β) (best : β) : Search (List Word) β :=
  loop scale (codes C N) a.last (a.last+1) 0 ⟨[],1#32 <<< a.last,1#32 <<< a.last,0,0xffffffff,0,best⟩

theorem outcome_kept {β : Type} {a : Axis} (lawful : Lawful a) (C : Word → Word) (N : Word → β) (best : β) :
    Kept scale C N (a.last+1) (outcome a C N best) ∧ Settled C (outcome a C N best) := by
  have bit := bit_toNat lawful.fits
  have low : 2^a.last < 2^(a.last+1) := Nat.pow_lt_pow_right (by omega) (by omega)
  refine loop_kept scale a.last a.last lawful.fits (by omega) rfl ⟨?_,?_⟩ ⟨nofun,Or.inl ⟨rfl,?_⟩⟩
  · exact bit ▸ low
  · exact bit ▸ low
  · intro c
    exact abs_diff_lt (C c)

/-- A search on the oscillator goes the same way. -/
theorem search_matches {β : Type} {a : Axis} (lawful : Lawful a) {m : Method Rc32k β} {R : Rc32k → List Word → Prop}
    {C : Word → Word} {N : Word → β} (answers : ∀ h tried c, c.toNat < 2^(a.last+1) → R h tried →
      R (m.trial (m.set c h)).1 (tried ++ [c]) ∧ (m.trial (m.set c h)).2 = C c ∧ m.note c (m.trial (m.set c h)).1 = N c)
    {h : Rc32k} (first : R h []) (best : β) :
    Matches R (loop scale m a.last (a.last+1) 0 (start a h best)) (outcome a C N best) := by
  have bit := bit_toNat lawful.fits
  have low : 2^a.last < 2^(a.last+1) := Nat.pow_lt_pow_right (by omega) (by omega)
  exact loop_simulates scale answers a.last (a.last+1) 0 ⟨first,rfl,rfl,rfl,rfl,rfl,rfl⟩ ⟨bit ▸ low,bit ▸ low⟩

/-- The codes of one field that are tried with the other at `o`. -/
def outcomeOne (g : Word × Word → Word) (a : Axis) (o : Word) : Search (List Word) Word :=
  outcome a (fun c => g (a.pair c o)) id (1#32 <<< a.last)

/-- The codes were tried with the other field at `o`, the last of them is set. -/
structure TriedOne (a : Axis) (o : Word) (before : List (Word × Word)) (h : Rc32k) (tried : List Word) : Prop where
  other : a.other (rc32k_get_trim h) = o
  measured : h.measured = before ++ tried.map fun c => a.pair c o
  trim : ∀ c, tried.getLast? = some c → rc32k_get_trim h = a.pair c o

/-- What a search for one field leaves depends on the other field alone: the best
    code is set and its count returned. -/
theorem autosetOne_spec (g : Word × Word → Word) {a : Axis} (lawful : Lawful a) {h : Rc32k} {o : Word}
    (other : a.other (rc32k_get_trim h) = o) :
    rc32k_get_trim (autosetOne g a h).1 = a.pair (outcomeOne g a o).best o
      ∧ (autosetOne g a h).2 = g (a.pair (outcomeOne g a o).best o)
      ∧ (autosetOne g a h).1.measured = h.measured ++ (outcomeOne g a o).plant.map fun c => a.pair c o := by
  obtain ⟨kept,settled⟩ := outcome_kept lawful (fun c => g (a.pair c o)) id (1#32 <<< a.last)
  have same := search_matches lawful (R := TriedOne a o h.measured)
    (m := ⟨fun cur h => rc32k_calibrate (a.set cur h),rc32k_measure g,fun cur _ => cur⟩)
    (C := fun c => g (a.pair c o)) (N := id) ?_ ⟨other,by simp,by simp⟩ (1#32 <<< a.last)
  · rw [autosetOne]
    change Matches _ _ (outcomeOne g a o) at same
    change Kept scale _ id _ (outcomeOne g a o) at kept
    change Settled _ (outcomeOne g a o) at settled
    generalize outcomeOne g a o = t at same kept settled ⊢
    generalize loop scale _ _ _ _ _ = s at same ⊢
    simp only [same.cur,same.best,same.count,same.best_count]
    obtain ⟨last,count⟩ := settled
    rcases kept.best with ⟨none,-⟩ | ⟨b,member,best,best_count,-,-⟩
    · rw [none] at last
      cases last
    · obtain rfl : t.best = b := best
      by_cases moved : t.cur ≠ t.best
      · rw [if_pos moved]
        have set := lawful.set_trim s.plant (kept.small t.best member)
        rw [same.plant.other] at set
        exact ⟨(calibrate_trim _).trans set,best_count,(lawful.set_measured _ _).trans same.plant.measured⟩
      · have stands := not_not.mp moved
        rw [if_neg moved]
        refine ⟨?_,?_,same.plant.measured⟩
        · rw [same.plant.trim t.cur last,stands]
        · rw [count,stands]
  · intro h' tried c small related
    have set := lawful.set_trim h' small
    rw [related.other] at set
    have trim : rc32k_get_trim (rc32k_calibrate (a.set c h')) = a.pair c o := (calibrate_trim _).trans set
    have measured : (rc32k_calibrate (a.set c h')).measured = h'.measured := lawful.set_measured c h'
    refine ⟨⟨?_,?_,?_⟩,?_,rfl⟩
    · show a.other (rc32k_get_trim (rc32k_calibrate (a.set c h'))) = o
      rw [trim,lawful.other_pair]
    · simp only [rc32k_measure,measured,trim,related.measured,List.map_append,List.append_assoc,List.map_cons,List.map_nil]
    · intro c' last
      rw [List.getLast?_concat] at last
      cases last
      exact trim
    · show g (rc32k_get_trim (rc32k_calibrate (a.set c h'))) = _
      rw [trim]

/-- The best code of one field for the other at `o` is one of those tried. -/
theorem outcomeOne_best (g : Word × Word → Word) {a : Axis} (lawful : Lawful a) (o : Word) :
    (outcomeOne g a o).best ∈ (outcomeOne g a o).plant ∧ (outcomeOne g a o).best.toNat < 2^(a.last+1)
      ∧ ∀ c ∈ (outcomeOne g a o).plant,
        rc32k_abs_diff (g (a.pair (outcomeOne g a o).best o)) ≤ rc32k_abs_diff (g (a.pair c o)) := by
  obtain ⟨kept,settled⟩ := outcome_kept lawful (fun c => g (a.pair c o)) id (1#32 <<< a.last)
  change Kept scale _ id _ (outcomeOne g a o) at kept
  change Settled _ (outcomeOne g a o) at settled
  generalize outcomeOne g a o = t at kept settled ⊢
  rcases kept.best with ⟨none,-⟩ | ⟨b,member,best,-,-,least⟩
  · rw [Settled,none] at settled
    cases settled.1
  · obtain rfl : t.best = b := best
    exact ⟨member,kept.small _ member,least⟩

theorem outcome_exhausted {β : Type} {a : Axis} (lawful : Lawful a) (C : Word → Word) (N : Word → β) (best : β) :
    Exhausted scale C (a.last+1) (outcome a C N best) := by
  refine loop_exhausts scale a.last a.last lawful.fits (b := 0) (by omega) ⟨?_,rfl,Nat.dvd_zero _,?_,?_⟩
  · exact (bit_toNat lawful.fits).trans (Nat.zero_add _).symm
  · intro d low
    omega
  · intro d high inside
    omega

/-! ### Rising counts -/

/-- The counts between the limits. -/
def Accurate (count : Word) : Prop := RC32K_LOWER_LIMIT_VALUE < count ∧ count < RC32K_UPPER_LIMIT_VALUE

def deviation (count : Word) : Nat := ((count.toNat : Int)-RC32K_REFERENCE_VALUE.toNat).natAbs

theorem lower_iff (count : Word) : count ≤ RC32K_LOWER_LIMIT_VALUE ↔ count.toNat ≤ 130345000 := by
  rw [BitVec.le_def]
  exact Iff.rfl

theorem upper_iff (count : Word) : RC32K_UPPER_LIMIT_VALUE ≤ count ↔ 131655000 ≤ count.toNat := by
  rw [BitVec.le_def]
  exact Iff.rfl

theorem accurate_iff (count : Word) : Accurate count ↔ 130345000 < count.toNat ∧ count.toNat < 131655000 := by
  rw [Accurate,← BitVec.not_le,← BitVec.not_le,lower_iff,upper_iff]
  omega

theorem deviation_eq (count : Word) : deviation count = ((count.toNat : Int)-131000000).natAbs := rfl

theorem accurate_of_closer {x y : Word} (good : Accurate x) (closer : deviation y ≤ deviation x) : Accurate y := by
  rw [accurate_iff] at good ⊢
  rw [deviation_eq,deviation_eq] at closer
  omega

theorem deviation_below {x y : Word} (order : x ≤ y) (little : y ≤ RC32K_LOWER_LIMIT_VALUE) :
    deviation y ≤ deviation x := by
  rw [BitVec.le_def] at order
  rw [lower_iff] at little
  rw [deviation_eq,deviation_eq]
  omega

theorem deviation_above {x y : Word} (order : x ≤ y) (much : RC32K_UPPER_LIMIT_VALUE ≤ x) :
    deviation x ≤ deviation y := by
  rw [BitVec.le_def] at order
  rw [upper_iff] at much
  rw [deviation_eq,deviation_eq]
  omega

/-- Where the count rises with the code, no code of the field is better than the one that
    is left, though only nine of them are tried. -/
theorem outcomeOne_optimal (g : Word × Word → Word) {a : Axis} (lawful : Lawful a) {o : Word}
    (rising : ∀ c d : Word, c ≤ d → d.toNat < 2^(a.last+1) → g (a.pair c o) ≤ g (a.pair d o)) :
    let f := fun c => g (a.pair c o)
    let c := (outcomeOne g a o).best
    ((∃ d : Word, d.toNat < 2^(a.last+1) ∧ Accurate (f d)) → Accurate (f c))
      ∧ ((¬∃ d : Word, d.toNat < 2^(a.last+1) ∧ Accurate (f d)) →
        ∀ d : Word, d.toNat < 2^(a.last+1) → deviation (f c) ≤ deviation (f d)) := by
  intro f c
  obtain ⟨-,small,least⟩ := outcomeOne_best g lawful o
  have tried : ∀ x ∈ (outcomeOne g a o).plant, x.toNat < 2^(a.last+1) :=
    (outcome_kept lawful (fun c => g (a.pair c o)) id (1#32 <<< a.last)).1.small
  have nearest : ∀ x ∈ (outcomeOne g a o).plant, deviation (f c) ≤ deviation (f x) := by
    intro x member
    have closer := least x member
    rw [BitVec.le_def,abs_diff_toNat,abs_diff_toNat] at closer
    exact closer
  rcases outcome_exhausted lawful (fun c => g (a.pair c o)) id (1#32 <<< a.last) with ⟨x,member,inside⟩ | covered
  · have good : Accurate (f c) := accurate_of_closer inside (nearest x member)
    exact ⟨fun _ => good,fun none => absurd ⟨c,small,good⟩ none⟩
  · constructor
    · rintro ⟨d,inside,good⟩
      obtain ⟨x,member,rfl | ⟨below,little⟩ | ⟨above,much⟩⟩ := covered d inside
      · exact accurate_of_closer good (nearest x member)
      · exact absurd (BitVec.le_trans (rising d x below (tried x member)) little) (BitVec.not_le.mpr good.1)
      · exact absurd (BitVec.le_trans much (rising x d above inside)) (BitVec.not_le.mpr good.2)
    · intro _ d inside
      obtain ⟨x,member,rfl | ⟨below,little⟩ | ⟨above,much⟩⟩ := covered d inside
      · exact nearest x member
      · exact (nearest x member).trans (deviation_below (rising d x below (tried x member)) little)
      · exact (nearest x member).trans (deviation_above (rising x d above inside) much)

/-- For an oscillator whose count rises with the frequency code, the search leaves a code
    that is accurate where any is, and one with the least deviation of all where none is.
    The count of that code is returned. -/
theorem autoset_freq_optimal (g : Word × Word → Word) (h : Rc32k)
    (rising : ∀ c d : Word, c ≤ d → d.toNat < 256 → g ((rc32k_get_trim h).1,c) ≤ g ((rc32k_get_trim h).1,d)) :
    let f := fun c => g ((rc32k_get_trim h).1,c)
    ∃ c : Word, c.toNat < 256 ∧ rc32k_get_trim (rc32k_autoset_freq g h).1 = ((rc32k_get_trim h).1,c)
      ∧ (rc32k_autoset_freq g h).2 = f c
      ∧ ((∃ d : Word, d.toNat < 256 ∧ Accurate (f d)) → Accurate (f c))
      ∧ ((¬∃ d : Word, d.toNat < 256 ∧ Accurate (f d)) →
        ∀ d : Word, d.toNat < 256 → deviation (f c) ≤ deviation (f d)) := by
  intro f
  obtain ⟨trim,count,-⟩ := autosetOne_spec g lawful_freq (h := h) rfl
  obtain ⟨-,small,-⟩ := outcomeOne_best g lawful_freq (rc32k_get_trim h).1
  obtain ⟨accurate,least⟩ := outcomeOne_optimal g lawful_freq rising
  exact ⟨(outcomeOne g freqAxis (rc32k_get_trim h).1).best,small,trim,count,accurate,least⟩

/-- An oscillator that counts its own code is left at the highest one. -/
theorem autoset_freq_highest : (rc32k_autoset_freq Prod.snd ⟨0,[]⟩).2.toNat = 255 := by
  obtain ⟨c,small,-,count,-,least⟩ := autoset_freq_optimal Prod.snd ⟨0,[]⟩ fun c d order _ => order
  have none : ¬∃ d : Word, d.toNat < 256 ∧ Accurate d := by
    rintro ⟨d,inside,good⟩
    rw [accurate_iff] at good
    omega
  have highest : deviation c ≤ deviation 255 := least none 255 (by decide)
  rw [deviation_eq,deviation_eq,show (255 : Word).toNat = 255 from rfl] at highest
  rw [count]
  simp only
  omega

/-! ### Both searches -/

/-- The field that is searched inside is the other one. -/
structure Crossed (a i : Axis) : Prop where
  outer : Lawful a
  inner : Lawful i
  pair : ∀ c o, i.pair o c = a.pair c o
  other : ∀ p, i.other p = a.own p
  narrow : ∀ {c o : Word}, c.toNat < 2^(a.last+1) → o.toNat < 2^(i.last+1) →
    (a.pair c o).1.toNat < 2^3 ∧ (a.pair c o).2.toNat < 2^8

theorem crossed_freq : Crossed freqAxis biasAxis :=
  ⟨lawful_freq,lawful_bias,fun _ _ => rfl,fun _ => rfl,fun freq bias => ⟨bias,freq⟩⟩

theorem crossed_bias : Crossed biasAxis freqAxis :=
  ⟨lawful_bias,lawful_freq,fun _ _ => rfl,fun _ => rfl,fun bias freq => ⟨bias,freq⟩⟩

section
variable (g : Word × Word → Word) (i : Axis)

/-- The pair that the inner search leaves for a code of the outer one. -/
def bestPair (c : Word) : Word × Word := i.pair (outcomeOne g i c).best c

/-- The pairs that it measures. -/
def innerPairs (c : Word) : List (Word × Word) := (outcomeOne g i c).plant.map fun x => i.pair x c

/-- The codes were tried with the inner search, and the last has left its pair. -/
structure TriedBoth (before : List (Word × Word)) (h : Rc32k) (tried : List Word) : Prop where
  measured : h.measured = before ++ tried.flatMap (innerPairs g i)
  trim : ∀ c, tried.getLast? = some c → rc32k_get_trim h = bestPair g i c
end

variable {g : Word × Word → Word} {a i : Axis}

theorem try_both (crossed : Crossed a i) {before : List (Word × Word)} (h : Rc32k) (tried : List Word) (c : Word)
    (small : c.toNat < 2^(a.last+1)) (related : TriedBoth g i before h tried) :
    TriedBoth g i before (autosetOne g i (rc32k_calibrate (a.set c h))).1 (tried ++ [c])
      ∧ (autosetOne g i (rc32k_calibrate (a.set c h))).2 = g (bestPair g i c)
      ∧ rc32k_get_trim (autosetOne g i (rc32k_calibrate (a.set c h))).1 = bestPair g i c := by
  have set : i.other (rc32k_get_trim (rc32k_calibrate (a.set c h))) = c := by
    rw [calibrate_trim,crossed.outer.set_trim h small,crossed.other,crossed.outer.own_pair]
  obtain ⟨trim,count,measured⟩ := autosetOne_spec g crossed.inner set
  have same : (rc32k_calibrate (a.set c h)).measured = h.measured := crossed.outer.set_measured c h
  refine ⟨⟨?_,?_⟩,count,trim⟩
  · rw [measured,same,related.measured,List.flatMap_append,List.flatMap_singleton,List.append_assoc]
    rfl
  · intro c' last
    rw [List.getLast?_concat] at last
    cases last
    exact trim

theorem restore_trim {p : Word × Word} (h : Rc32k) (narrow : p.1.toNat < 2^3 ∧ p.2.toNat < 2^8) :
    rc32k_get_trim (rc32k_calibrate (rc32k_set_clock_freq p.2 (rc32k_set_bias_current p.1 h))) = p := by
  rw [calibrate_trim,set_freq_trim _ narrow.2,set_bias_trim _ narrow.1]

/-- The best of the pairs that were measured is set, and measured it was. -/
def KeepsBest (g : Word × Word → Word) (h : Rc32k) : Prop :=
  rc32k_get_trim h ∈ h.measured
    ∧ ∀ p ∈ h.measured, ((g (rc32k_get_trim h)).toNat-(RC32K_REFERENCE_VALUE.toNat : Int)).natAbs
      ≤ ((g p).toNat-(RC32K_REFERENCE_VALUE.toNat : Int)).natAbs

theorem autosetBoth_keeps_best (crossed : Crossed a i) (best : Word × Word) (reg : Word) :
    KeepsBest g (autosetBoth a (autosetOne g i) best ⟨reg,[]⟩) := by
  obtain ⟨kept,settled⟩ := outcome_kept crossed.outer (fun c => g (bestPair g i c)) (bestPair g i) best
  have same := search_matches crossed.outer (R := TriedBoth g i [])
    (m := ⟨fun cur h => rc32k_calibrate (a.set cur h),autosetOne g i,fun _ h => rc32k_get_trim h⟩)
    (C := fun c => g (bestPair g i c)) (N := bestPair g i)
    (fun h tried c small related => try_both crossed h tried c small related)
    (h := ⟨reg,[]⟩) ⟨by simp,by simp⟩ best
  generalize outcome a (fun c => g (bestPair g i c)) (bestPair g i) best = t at same kept settled
  rw [autosetBoth]
  generalize loop scale _ _ _ _ _ = s at same ⊢
  obtain ⟨last,-⟩ := settled
  rcases kept.best with ⟨none,-⟩ | ⟨b,member,noted,-,-,least⟩
  · rw [none] at last
    cases last
  obtain ⟨inTried,narrow,leastInner⟩ := outcomeOne_best g crossed.inner b
  have code : a.own (bestPair g i b) = b := by
    rw [bestPair,crossed.pair,crossed.outer.own_pair]
  -- both ends leave the pair of the best code, with nothing measured after
  have ends : ∀ h : Rc32k, rc32k_get_trim h = bestPair g i b → h.measured = t.plant.flatMap (innerPairs g i) →
      KeepsBest g h := by
    intro h trim measured
    refine ⟨?_,?_⟩
    · rw [trim,measured]
      exact List.mem_flatMap.mpr ⟨b,member,List.mem_map_of_mem inTried⟩
    · intro p inMeasured
      rw [measured] at inMeasured
      obtain ⟨c,tried,inInner⟩ := List.mem_flatMap.mp inMeasured
      obtain ⟨x,inPlant,rfl⟩ := List.mem_map.mp inInner
      have outer := least c tried
      have inner := (outcomeOne_best g crossed.inner c).2.2 x inPlant
      have both := BitVec.le_trans outer inner
      rw [BitVec.le_def] at both
      simp only [scale,abs_diff_toNat] at both
      rw [trim]
      exact both
  have measured := same.plant.measured
  rw [List.nil_append] at measured
  simp only [same.cur,same.best,noted,code]
  by_cases moved : t.cur ≠ b
  · rw [if_pos moved]
    refine ends _ (restore_trim _ ?_) measured
    rw [bestPair,crossed.pair]
    exact crossed.narrow (kept.small b member) narrow
  · rw [if_neg moved]
    refine ends _ ?_ measured
    rw [same.plant.trim t.cur last,not_not.mp moved]

/-- Whatever the oscillator's counts, and whatever the register held, in both modes
    the pair that is left in the register has the smallest deviation from the
    reference of all pairs that were measured. -/
theorem autoset_keeps_best (g : Word × Word → Word) {mode : Word}
    (known : mode = RC32K_FREQ_FIRST ∨ mode = RC32K_BIAS_FIRST) (unset : Word × Word) (reg : Word) :
    KeepsBest g (rc32k_autoset g mode unset ⟨reg,[]⟩) := by
  rcases known with rfl | rfl
  · rw [rc32k_autoset,if_pos rfl]
    exact autosetBoth_keeps_best crossed_freq unset reg
  · rw [rc32k_autoset,if_neg (by decide),if_pos rfl]
    exact autosetBoth_keeps_best crossed_bias _ reg

/-- An oscillator that gets faster with both codes. -/
def rising (codes : Word × Word) : Word := 100000000+1500000*codes.1+90000*codes.2

/-- The search for the frequency runs to its end at the first bias current, and stops at the second one. -/
theorem autoset_keeps_best_rising :
    (rc32k_autoset rising RC32K_BIAS_FIRST (0,0) ⟨0,[]⟩).measured.length = 12
    ∧ KeepsBest rising (rc32k_autoset rising RC32K_BIAS_FIRST (0,0) ⟨0,[]⟩) :=
  ⟨by decide +kernel,autoset_keeps_best rising (Or.inr rfl) (0,0) 0⟩

end Ucm108e.Calibration
