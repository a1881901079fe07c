import Mathlib
import Ucm108e.Words

/-!
A search for the best code of a device that can be set and measured, from the
highest bit of the code to the lowest: a bit is cleared again where the count
says that it was too much, the search stops where the count is good enough, and
the code with the smallest deviation is remembered on the way. The device itself
is any state (`plant`) with a method to set a code and to try it. Where the count
depends on the code alone, the search on the device does what it does on the list
of the codes that it tries (`loop_simulates`), and there it remembers the best of
them (`loop_kept`).
-/
namespace Ucm108e.BestSearch
open Ucm108e.Words

variable {σ β : Type}

structure Search (σ β : Type) where
  plant : σ
  cur : Word
  delta : Word
  count : Word
  best_diff : Word
  best_count : Word
  best : β

/-- How a code is set and tried, and what is noted when it is the best so far. -/
structure Method (σ β : Type) where
  set : Word → σ → σ
  trial : σ → σ × Word
  note : Word → σ → β

/-- How a count is judged. -/
structure Scale where
  diff : Word → Word
  upper : Word
  lower : Word

variable (k : Scale)

def attempt (m : Method σ β) (s : Search σ β) : Search σ β :=
  let (plant,count) := m.trial (m.set s.cur s.plant)
  let s := { s with plant := plant, count := count }
  if k.diff count < s.best_diff then
    { s with best_diff := k.diff count, best_count := count, best := m.note s.cur plant }
  else s

/-- `cur &= ~delta` -/
def clear (s : Search σ β) : Search σ β := { s with cur := s.cur &&& ~~~s.delta }

/-- `delta >>= 1; cur |= delta` -/
def halve (s : Search σ β) : Search σ β := { s with delta := s.delta >>> 1, cur := s.cur ||| s.delta >>> 1 }

/-- The turns of the search, `left` of them to go; in the last of them a code that
    is too much is tried without its lowest bit too. -/
def loop (m : Method σ β) (last : Nat) : (left try_cnt : Nat) → Search σ β → Search σ β
  | 0, _, s => s
  | left+1, try_cnt, s =>
    let s := attempt k m s
    if s.count ≥ k.upper then
      let s := clear s
      let s := if try_cnt = last then attempt k m s else s
      loop m last left (try_cnt+1) (halve s)
    else if s.count ≤ k.lower then loop m last left (try_cnt+1) (halve s)
    else s

/-- A device that only remembers the codes that were tried. -/
def codes (C : Word → Word) (N : Word → β) : Method (List Word) β where
  set c tried := tried ++ [c]
  trial tried := (tried,C (tried.getLastD 0))
  note c _ := N c

theorem codes_trial (C : Word → Word) (N : Word → β) (c : Word) (tried : List Word) :
    (codes C N).trial ((codes C N).set c tried) = (tried ++ [c],C c) := by
  simp [codes]

/-! ### Codes of a fixed width -/

/-- Both the code and the bit in question have `n` bits. -/
def Ranged (n : Nat) (s : Search σ β) : Prop := s.cur.toNat < 2^n ∧ s.delta.toNat < 2^n

theorem ranged_attempt {n : Nat} (m : Method σ β) {s : Search σ β} (ranged : Ranged n s) : Ranged n (attempt k m s) := by
  unfold attempt
  simp only
  split <;> exact ranged

theorem ranged_clear {n : Nat} {s : Search σ β} (ranged : Ranged n s) : Ranged n (clear s) := by
  refine ⟨?_,ranged.2⟩
  simp only [clear,BitVec.toNat_and]
  exact Nat.lt_of_le_of_lt Nat.and_le_left ranged.1

theorem ranged_halve {n : Nat} {s : Search σ β} (ranged : Ranged n s) : Ranged n (halve s) := by
  have half : (s.delta >>> 1).toNat < 2^n := by
    rw [BitVec.toNat_ushiftRight,Nat.shiftRight_eq_div_pow]
    have := ranged.2
    omega
  refine ⟨?_,half⟩
  simp only [halve,BitVec.toNat_or]
  exact Nat.or_lt_two_pow ranged.1 half

/-! ### Simulation -/

/-- The two searches are at the same place; `R` relates the device and the codes
    that were tried on it. -/
structure Matches (R : σ → List Word → Prop) (s : Search σ β) (t : Search (List Word) β) : Prop where
  plant : R s.plant t.plant
  cur : s.cur = t.cur
  delta : s.delta = t.delta
  count : s.count = t.count
  best_diff : s.best_diff = t.best_diff
  best_count : s.best_count = t.best_count
  best : s.best = t.best

section
variable {m : Method σ β} {R : σ → List Word → Prop} {C : Word → Word} {N : Word → β} {n : Nat}
variable (answers : ∀ h tried c, c.toNat < 2^n → R h tried →
  R (m.trial (m.set c h)).1 (tried ++ [c]) ∧ (m.trial (m.set c h)).2 = C c ∧ m.note c (m.trial (m.set c h)).1 = N c)

theorem matches_clear {s : Search σ β} {t : Search (List Word) β} (same : Matches R s t) : Matches R (clear s) (clear t) :=
  { same with cur := by simp only [clear,same.cur,same.delta] }

theorem matches_halve {s : Search σ β} {t : Search (List Word) β} (same : Matches R s t) : Matches R (halve s) (halve t) :=
  { same with
    cur := by simp only [halve,same.cur,same.delta]
    delta := by simp only [halve,same.delta] }

include answers

theorem matches_attempt {s : Search σ β} {t : Search (List Word) β} (same : Matches R s t) (ranged : Ranged n s) :
    Matches R (attempt k m s) (attempt k (codes C N) t) := by
  obtain ⟨plant,count,note⟩ := answers s.plant t.plant s.cur ranged.1 same.plant
  unfold attempt
  rw [codes_trial,← same.cur]
  generalize m.trial (m.set s.cur s.plant) = result at plant count note
  obtain ⟨h,value⟩ := result
  simp only at plant count note ⊢
  subst count
  rw [same.best_diff]
  split
  · exact ⟨plant,rfl,same.delta,rfl,rfl,rfl,note⟩
  · exact ⟨plant,rfl,same.delta,rfl,rfl,same.best_count,same.best⟩

/-- A search on a device does what the search on the list of codes does. -/
theorem loop_simulates (last left : Nat) : ∀ (try_cnt : Nat) {s : Search σ β} {t : Search (List Word) β},
    Matches R s t → Ranged n s →
    Matches R (loop k m last left try_cnt s) (loop k (codes C N) last left try_cnt t) := by
  induction left with
  | zero =>
    intro try_cnt s t same _
    exact same
  | succ left ih =>
    intro try_cnt s t same ranged
    have tried := matches_attempt k answers same ranged
    have ranged₁ := ranged_attempt k m ranged
    simp only [loop]
    generalize attempt k m s = s₁ at tried ranged₁
    generalize attempt k (codes C N) t = t₁ at tried
    rw [tried.count]
    split
    · -- the bit is cleared, and tried without once more in the last turn
      have cleared := matches_clear tried
      have ranged₂ := ranged_clear ranged₁
      split
      · exact ih _ (matches_halve (matches_attempt k answers cleared ranged₂))
          (ranged_halve (ranged_attempt k m ranged₂))
      · exact ih _ (matches_halve cleared) (ranged_halve ranged₂)
    · split
      · exact ih _ (matches_halve tried) (ranged_halve ranged₁)
      · exact tried
end

/-! ### What is remembered -/

section
variable {C : Word → Word} {N : Word → β} {n : Nat}

/-- The best of the codes that were tried is remembered. -/
structure Kept (C : Word → Word) (N : Word → β) (n : Nat) (s : Search (List Word) β) : Prop where
  small : ∀ c ∈ s.plant, c.toNat < 2^n
  best : s.plant = [] ∧ (∀ c, k.diff (C c) < s.best_diff) ∨ ∃ b ∈ s.plant, s.best = N b ∧ s.best_count = C b
    ∧ s.best_diff = k.diff (C b) ∧ ∀ c ∈ s.plant, k.diff (C b) ≤ k.diff (C c)

/-- The code that was tried last is the current one. -/
def Settled (C : Word → Word) (s : Search (List Word) β) : Prop := s.plant.getLast? = some s.cur ∧ s.count = C s.cur

theorem attempt_codes (s : Search (List Word) β) :
    (attempt k (codes C N) s).plant = s.plant ++ [s.cur] ∧ (attempt k (codes C N) s).count = C s.cur
      ∧ (attempt k (codes C N) s).cur = s.cur ∧ (attempt k (codes C N) s).delta = s.delta := by
  unfold attempt
  rw [codes_trial]
  simp only
  split <;> exact ⟨rfl,rfl,rfl,rfl⟩

theorem kept_attempt {s : Search (List Word) β} (kept : Kept k C N n s) (small : s.cur.toNat < 2^n) :
    Kept k C N n (attempt k (codes C N) s) ∧ Settled C (attempt k (codes C N) s) := by
  have smallAll : ∀ c ∈ s.plant ++ [s.cur], c.toNat < 2^n := by
    intro c member
    rcases List.mem_append.mp member with old | new
    · exact kept.small c old
    · rw [List.mem_singleton.mp new]
      exact small
  unfold attempt
  rw [codes_trial]
  simp only
  split
  next better =>
    refine ⟨⟨smallAll,Or.inr ⟨s.cur,by simp,rfl,rfl,rfl,?_⟩⟩,by simp [Settled]⟩
    intro c member
    rcases List.mem_append.mp member with old | new
    · rcases kept.best with ⟨none,-⟩ | ⟨b,-,-,-,diff,least⟩
      · rw [none] at old
        cases old
      · rw [diff] at better
        exact BitVec.le_trans (BitVec.le_of_lt better) (least c old)
    · rw [List.mem_singleton.mp new]
      exact BitVec.le_refl _
  next worse =>
    rcases kept.best with ⟨-,top⟩ | ⟨b,member,best,count,diff,least⟩
    · exact absurd (top s.cur) worse
    · refine ⟨⟨smallAll,Or.inr ⟨b,by simp [member],best,count,diff,?_⟩⟩,by simp [Settled]⟩
      intro c member'
      rcases List.mem_append.mp member' with old | new
      · exact least c old
      · rw [List.mem_singleton.mp new,← diff]
        exact BitVec.not_lt.mp worse

theorem bit_toNat {i : Nat} (fits : i < 32) : (1#32 <<< i).toNat = 2^i := by
  have one : (1#32).toNat = 1 := rfl
  rw [BitVec.toNat_shiftLeft,Nat.shiftLeft_eq,one,Nat.one_mul]
  exact Nat.mod_eq_of_lt (Nat.pow_lt_pow_right (by omega) fits)

theorem bit_half {i : Nat} (fits : i+1 < 32) : (1#32 <<< (i+1)) >>> 1 = 1#32 <<< i := by
  refine BitVec.eq_of_toNat_eq ?_
  rw [BitVec.toNat_ushiftRight,bit_toNat fits,bit_toNat (by omega),Nat.shiftRight_eq_div_pow,Nat.pow_succ,pow_one,
    Nat.mul_div_cancel _ (by omega)]

/-- After its last turn the search stands where it has tried last, and has
    remembered the best. -/
theorem loop_kept (last left : Nat) (fits : left < 32) : ∀ {try_cnt : Nat} {s : Search (List Word) β},
    try_cnt+left = last → s.delta = 1#32 <<< left → Ranged n s → Kept k C N n s →
    Kept k C N n (loop k (codes C N) last (left+1) try_cnt s)
      ∧ Settled C (loop k (codes C N) last (left+1) try_cnt s) := by
  have delta_attempt : ∀ s : Search (List Word) β, (attempt k (codes C N) s).delta = s.delta :=
    fun s => (attempt_codes k s).2.2.2
  induction left with
  | zero =>
    intro try_cnt s now bit ranged kept
    have tried := kept_attempt k kept ranged.1
    have ranged₁ := ranged_attempt k (codes C N) ranged
    have bit₁ := (delta_attempt s).trans bit
    -- the lowest bit leaves nothing to set
    have stays : ∀ t : Search (List Word) β, t.delta = 1#32 <<< 0 → (halve t).cur = t.cur := by
      intro t lowest
      rw [halve,lowest]
      exact BitVec.or_zero
    simp only [loop]
    generalize attempt k (codes C N) s = s₁ at tried ranged₁ bit₁
    split
    · rw [if_pos (by omega)]
      have ranged₂ := ranged_clear ranged₁
      have again := kept_attempt k (s := clear s₁) ⟨tried.1.small,tried.1.best⟩ ranged₂.1
      have bit₂ := (delta_attempt (clear s₁)).trans bit₁
      generalize attempt k (codes C N) (clear s₁) = s₂ at again bit₂
      refine ⟨⟨again.1.small,again.1.best⟩,?_⟩
      rw [Settled,stays s₂ bit₂]
      exact again.2
    · split
      · refine ⟨⟨tried.1.small,tried.1.best⟩,?_⟩
        rw [Settled,stays s₁ bit₁]
        exact tried.2
      · exact tried
  | succ left ih =>
    intro try_cnt s now bit ranged kept
    have tried := kept_attempt k kept ranged.1
    have ranged₁ := ranged_attempt k (codes C N) ranged
    have bit₁ := (delta_attempt s).trans bit
    have next : ∀ t : Search (List Word) β, t.delta = 1#32 <<< (left+1) → (halve t).delta = 1#32 <<< left := by
      intro t higher
      rw [halve,higher]
      exact bit_half fits
    rw [loop]
    simp only
    generalize attempt k (codes C N) s = s₁ at tried ranged₁ bit₁
    split
    · rw [if_neg (by omega)]
      exact ih (by omega) (by omega) (next _ bit₁) (ranged_halve (ranged_clear ranged₁)) ⟨tried.1.small,tried.1.best⟩
    · split
      · exact ih (by omega) (by omega) (next _ bit₁) (ranged_halve ranged₁) ⟨tried.1.small,tried.1.best⟩
      · exact tried
end

/-! ### What is found -/

section
variable {C : Word → Word} {N : Word → β} {n : Nat}

/-- The turn for bit `i`, the codes from `b` on being still open: those below are not above
    a code that was too little, those behind not below a code that was too much. -/
structure Bracket (C : Word → Word) (n i b : Nat) (s : Search (List Word) β) : Prop where
  cur : s.cur.toNat = b+2^i
  delta : s.delta = 1#32 <<< i
  aligned : 2^(i+1) ∣ b
  below : ∀ d : Word, d.toNat < b → ∃ c ∈ s.plant, d ≤ c ∧ C c ≤ k.lower
  behind : ∀ d : Word, b+2^(i+1) ≤ d.toNat → d.toNat < 2^n → ∃ c ∈ s.plant, c ≤ d ∧ k.upper ≤ C c

/-- A code that was tried is good enough, or every code was tried or lies on the far side
    of one that was tried. -/
def Exhausted (C : Word → Word) (n : Nat) (s : Search (List Word) β) : Prop :=
  (∃ c ∈ s.plant, k.lower < C c ∧ C c < k.upper)
    ∨ ∀ d : Word, d.toNat < 2^n → ∃ c ∈ s.plant, c = d ∨ (d ≤ c ∧ C c ≤ k.lower) ∨ (c ≤ d ∧ k.upper ≤ C c)

/-- A bit above which a number has its own is set by adding it. -/
theorem or_bit {i b : Nat} (aligned : 2^(i+1) ∣ b) : b ||| 2^i = b+2^i := by
  obtain ⟨a,rfl⟩ := aligned
  exact (Nat.two_pow_add_eq_or_of_lt (Nat.pow_lt_pow_right (by omega) (by omega)) a).symm

theorem clear_toNat {i b : Nat} (fits : i < 32) (aligned : 2^(i+1) ∣ b) {s : Search σ β} (cur : s.cur.toNat = b+2^i)
    (delta : s.delta = 1#32 <<< i) : (clear s).cur.toNat = b := by
  have small : b < 2^32 := by
    have bound := s.cur.isLt
    omega
  have same : (clear s).cur = BitVec.ofNat 32 b := by
    refine BitVec.eq_of_getLsbD_eq fun j inside => ?_
    have bit : s.cur.getLsbD j = (b ||| 2^i).testBit j := by
      rw [← BitVec.testBit_toNat,cur,or_bit aligned]
    have one : (1#32 <<< i).getLsbD j = (2^i).testBit j := by
      rw [← BitVec.testBit_toNat,bit_toNat fits]
    rw [clear,BitVec.getLsbD_and,BitVec.getLsbD_not,delta,one,bit,Nat.testBit_or,BitVec.getLsbD_ofNat]
    simp only [inside,decide_true,Bool.true_and]
    by_cases here : i = j
    · obtain ⟨a,rfl⟩ := aligned
      subst here
      simp [Nat.testBit_two_pow_mul]
    · simp [here]
  rw [same,BitVec.toNat_ofNat,Nat.mod_eq_of_lt small]

theorem halve_toNat {i b : Nat} (fits : i+1 < 32) (aligned : 2^(i+1) ∣ b) {s : Search σ β} (cur : s.cur.toNat = b)
    (delta : s.delta = 1#32 <<< (i+1)) : (halve s).cur.toNat = b+2^i := by
  rw [halve,delta,bit_half fits,BitVec.toNat_or,bit_toNat (by omega),cur,or_bit aligned]

section
variable {i b : Nat} {s : Search (List Word) β}

/-- The code of the turn was too much: it stands for those behind it. -/
theorem Bracket.lower_half (bracket : Bracket k C n (i+1) b s) (fits : i+1 < 32) (much : k.upper ≤ C s.cur) :
    Bracket k C n i b (halve (clear (attempt k (codes C N) s))) := by
  obtain ⟨plant,-,cur,delta⟩ := attempt_codes k (C := C) (N := N) s
  have aligned : 2^(i+1) ∣ b := Nat.dvd_trans (Nat.pow_dvd_pow 2 (by omega)) bracket.aligned
  have cleared := clear_toNat fits bracket.aligned ((congrArg BitVec.toNat cur).trans bracket.cur)
    (delta.trans bracket.delta)
  have plant' : (halve (clear (attempt k (codes C N) s))).plant = s.plant ++ [s.cur] := plant
  refine ⟨halve_toNat fits aligned cleared (delta.trans bracket.delta),?_,aligned,?_,?_⟩
  · show (attempt k (codes C N) s).delta >>> 1 = _
    rw [delta,bracket.delta,bit_half fits]
  · intro d low
    obtain ⟨c,member,side⟩ := bracket.below d low
    exact ⟨c,plant' ▸ List.mem_append_left _ member,side⟩
  · intro d high _
    refine ⟨s.cur,plant' ▸ List.mem_append_right _ (List.mem_singleton_self _),?_,much⟩
    rw [BitVec.le_def,bracket.cur]
    exact high

/-- The code of the turn was too little: it stands for those below it. -/
theorem Bracket.upper_half (bracket : Bracket k C n (i+1) b s) (fits : i+1 < 32) (little : C s.cur ≤ k.lower) :
    Bracket k C n i (b+2^(i+1)) (halve (attempt k (codes C N) s)) := by
  obtain ⟨plant,-,cur,delta⟩ := attempt_codes k (C := C) (N := N) s
  have aligned : 2^(i+1) ∣ b := Nat.dvd_trans (Nat.pow_dvd_pow 2 (by omega)) bracket.aligned
  have aligned' : 2^(i+1) ∣ b+2^(i+1) := Nat.dvd_add aligned (Nat.dvd_refl _)
  have plant' : (halve (attempt k (codes C N) s)).plant = s.plant ++ [s.cur] := plant
  have width : 2^(i+1+1) = 2^(i+1)+2^(i+1) := by rw [Nat.pow_succ]; omega
  refine ⟨halve_toNat fits aligned' ((congrArg BitVec.toNat cur).trans bracket.cur) (delta.trans bracket.delta),?_,
    aligned',?_,?_⟩
  · show (attempt k (codes C N) s).delta >>> 1 = _
    rw [delta,bracket.delta,bit_half fits]
  · intro d low
    refine ⟨s.cur,plant' ▸ List.mem_append_right _ (List.mem_singleton_self _),?_,little⟩
    rw [BitVec.le_def,bracket.cur]
    omega
  · intro d high inside
    obtain ⟨c,member,side⟩ := bracket.behind d (by omega) inside
    exact ⟨c,plant' ▸ List.mem_append_left _ member,side⟩

/-- After the last turn no code is left open. -/
theorem Bracket.last_much (bracket : Bracket k C n 0 b s) (much : k.upper ≤ C s.cur) :
    Exhausted k C n (attempt k (codes C N) (clear (attempt k (codes C N) s))) := by
  obtain ⟨plant,-,cur,delta⟩ := attempt_codes k (C := C) (N := N) s
  have cleared := clear_toNat (by omega) bracket.aligned ((congrArg BitVec.toNat cur).trans bracket.cur)
    (delta.trans bracket.delta)
  have tried : (attempt k (codes C N) (clear (attempt k (codes C N) s))).plant
      = s.plant ++ [s.cur] ++ [(clear (attempt k (codes C N) s)).cur] := by
    rw [(attempt_codes k _).1]
    exact congrArg (· ++ _) plant
  right
  intro d inside
  rw [tried]
  rcases Nat.lt_trichotomy d.toNat b with low | here | high
  · obtain ⟨c,member,side⟩ := bracket.below d low
    exact ⟨c,by simp [member],.inr (.inl side)⟩
  · refine ⟨(clear (attempt k (codes C N) s)).cur,by simp,.inl ?_⟩
    exact BitVec.eq_of_toNat_eq (cleared.trans here.symm)
  · refine ⟨s.cur,by simp,.inr (.inr ⟨?_,much⟩)⟩
    rw [BitVec.le_def,bracket.cur]
    omega

theorem Bracket.last_little (bracket : Bracket k C n 0 b s) (little : C s.cur ≤ k.lower) :
    Exhausted k C n (attempt k (codes C N) s) := by
  have tried := (attempt_codes k (C := C) (N := N) s).1
  right
  intro d inside
  rw [tried]
  rcases Nat.lt_or_ge s.cur.toNat d.toNat with high | low
  · obtain ⟨c,member,side⟩ := bracket.behind d (by rw [bracket.cur] at high; omega) inside
    exact ⟨c,by simp [member],.inr (.inr side)⟩
  · exact ⟨s.cur,by simp,.inr (.inl ⟨low,little⟩)⟩
end

/-- The search leaves no code open, or stops at a good one. -/
theorem loop_exhausts (last left : Nat) (fits : left < 32) : ∀ {try_cnt b : Nat} {s : Search (List Word) β},
    try_cnt+left = last → Bracket k C n left b s →
    Exhausted k C n (loop k (codes C N) last (left+1) try_cnt s) := by
  -- a count between the limits ends the search
  have found : ∀ {s : Search (List Word) β}, ¬C s.cur ≥ k.upper → ¬C s.cur ≤ k.lower →
      Exhausted k C n (attempt k (codes C N) s) := by
    intro s few many
    refine .inl ⟨s.cur,?_,BitVec.not_le.mp many,BitVec.not_le.mp few⟩
    rw [(attempt_codes k s).1]
    exact List.mem_append_right _ (List.mem_singleton_self _)
  induction left with
  | zero =>
    intro try_cnt b s now bracket
    simp only [loop,(attempt_codes k s).2.1]
    split
    next much =>
      rw [if_pos (by omega)]
      exact bracket.last_much k much
    next few =>
      split
      next little => exact bracket.last_little k little
      next many => exact found few many
  | succ left ih =>
    intro try_cnt b s now bracket
    rw [loop]
    simp only [(attempt_codes k s).2.1]
    split
    next much =>
      rw [if_neg (by omega)]
      exact ih (by omega) (by omega) (bracket.lower_half k fits much)
    next few =>
      split
      next little => exact ih (by omega) (by omega) (bracket.upper_half k fits little)
      next many => exact found few many
end

end Ucm108e.BestSearch
