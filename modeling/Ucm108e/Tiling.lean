import Mathlib

/-!
An area that is divided into blocks without gaps. Each block starts with a tag that says
whether the block is used, where the next one starts and where the one before did. The
tags are laid out as a list of blocks says; a block is marked, divided in two, or joined
with the next by changing the tags around it.
-/
namespace Ucm108e.Tiling

structure Block where
  size : Nat
  used : Bool
  deriving DecidableEq

structure Tag where
  used : Bool
  next : Nat
  prev : Nat
  deriving DecidableEq

def extent (bs : List Block) : Nat := (bs.map Block.size).sum

@[simp] theorem extent_nil : extent [] = 0 := rfl
@[simp] theorem extent_cons (b : Block) (bs : List Block) : extent (b :: bs) = b.size+extent bs := by simp [extent]
@[simp] theorem extent_append (as bs : List Block) : extent (as ++ bs) = extent as+extent bs := by simp [extent]

theorem dvd_extent {d : Nat} {bs : List Block} (all : ∀ b ∈ bs, d ∣ b.size) : d ∣ extent bs := by
  refine List.dvd_sum fun n member => ?_
  obtain ⟨b,inside,rfl⟩ := List.mem_map.mp member
  exact all b inside

/-- The tags from `p` on, behind a block that starts at `prev`. -/
def Laid (tag : Nat → Tag) : Nat → Nat → List Block → Prop
  | _, _, [] => True
  | prev, p, b :: bs => tag p = ⟨b.used,p+b.size,prev⟩ ∧ Laid tag p (p+b.size) bs

/-- Where the blocks start. -/
def starts : Nat → List Block → List Nat
  | _, [] => []
  | p, b :: bs => p :: starts (p+b.size) bs

/-- Where the last block starts; `prev` if there is none. -/
def lastStart (prev p : Nat) : List Block → Nat
  | [] => prev
  | b :: bs => lastStart p (p+b.size) bs

variable {tag tag' : Nat → Tag} {prev p : Nat} {as bs : List Block}

theorem laid_append : Laid tag prev p (as ++ bs)
    ↔ Laid tag prev p as ∧ Laid tag (lastStart prev p as) (p+extent as) bs := by
  induction as generalizing prev p with
  | nil => simp [Laid,lastStart]
  | cons a as ih => simp only [List.cons_append,Laid,ih,lastStart,extent_cons,and_assoc,Nat.add_assoc]

theorem starts_append (p : Nat) (as bs : List Block) : starts p (as ++ bs) = starts p as ++ starts (p+extent as) bs := by
  induction as generalizing p with
  | nil => simp [starts]
  | cons a as ih => simp only [List.cons_append,starts,ih,extent_cons,Nat.add_assoc]

theorem lastStart_append (prev p : Nat) (as : List Block) (b : Block) :
    lastStart prev p (as ++ [b]) = p+extent as := by
  induction as generalizing prev p with
  | nil => simp [lastStart]
  | cons a as ih => simp only [List.cons_append,lastStart,ih,extent_cons,Nat.add_assoc]

theorem laid_congr (same : ∀ q ∈ starts p bs, tag' q = tag q) (laid : Laid tag prev p bs) : Laid tag' prev p bs := by
  induction bs generalizing prev p with
  | nil => trivial
  | cons b bs ih =>
    refine ⟨(same p (List.mem_cons_self ..)).trans laid.1,ih ?_ laid.2⟩
    exact fun q member => same q (List.mem_cons_of_mem _ member)

/-! ### Places -/

/-- Blocks have room for a tag of `h` bytes. -/
def Roomy (h : Nat) (bs : List Block) : Prop := ∀ b ∈ bs, h ≤ b.size

theorem roomy_cons {h : Nat} {b : Block} {bs : List Block} : Roomy h (b :: bs) ↔ h ≤ b.size ∧ Roomy h bs :=
  List.forall_mem_cons

theorem roomy_append {h : Nat} : Roomy h (as ++ bs) ↔ Roomy h as ∧ Roomy h bs := List.forall_mem_append

theorem starts_range {h : Nat} (roomy : Roomy h bs) {q : Nat} (start : q ∈ starts p bs) :
    p ≤ q ∧ q+h ≤ p+extent bs := by
  induction bs generalizing p with
  | nil => cases start
  | cons b bs ih =>
    obtain ⟨room,rest⟩ := roomy_cons.mp roomy
    rw [extent_cons]
    rcases List.mem_cons.mp start with rfl | later
    · omega
    · have := ih rest later
      omega

theorem start_mem (p : Nat) (pre : List Block) (b : Block) (post : List Block) :
    p+extent pre ∈ starts p (pre ++ b :: post) := by
  rw [starts_append]
  exact List.mem_append_right _ (List.mem_cons_self ..)

/-- The tag of a block in the middle. -/
theorem laid_tag {pre post : List Block} {b : Block} (laid : Laid tag prev p (pre ++ b :: post)) :
    tag (p+extent pre) = ⟨b.used,p+extent pre+b.size,lastStart prev p pre⟩ :=
  (laid_append.mp laid).2.1

/-! ### Changes -/

section
variable {h : Nat} {pre post : List Block} {b : Block}

/-- The starts around a block. -/
theorem starts_middle (roomy : Roomy h (pre ++ b :: post)) :
    (∀ q ∈ starts p pre, q+h ≤ p+extent pre) ∧ (∀ q ∈ starts (p+extent pre+b.size) post, p+extent pre+b.size ≤ q) := by
  obtain ⟨before,rest⟩ := roomy_append.mp roomy
  exact ⟨fun q start => (starts_range before start).2,fun q start => (starts_range (roomy_cons.mp rest).2 start).1⟩

theorem mem_starts_split {front : Nat} {u v : Bool} (inside : front ≤ b.size) {q : Nat} :
    q ∈ starts p (pre ++ ⟨front,u⟩ :: ⟨b.size-front,v⟩ :: post)
      ↔ q ∈ starts p (pre ++ b :: post) ∨ q = p+extent pre+front := by
  have back : p+extent pre+front+(b.size-front) = p+extent pre+b.size := by omega
  simp only [starts_append,starts,List.mem_append,List.mem_cons,back]
  tauto

theorem mem_starts_mark {u : Bool} {q : Nat} :
    q ∈ starts p (pre ++ { b with used := u } :: post) ↔ q ∈ starts p (pre ++ b :: post) := by
  simp only [starts_append,starts]

theorem mem_starts_join {c : Block} {u : Bool} {q : Nat} (start : q ∈ starts p (pre ++ ⟨b.size+c.size,u⟩ :: post)) :
    q ∈ starts p (pre ++ b :: c :: post) := by
  simp only [starts_append,starts,List.mem_append,List.mem_cons,Nat.add_assoc] at start ⊢
  tauto

/-- A start lies before a block, or is its own, or that of the next, or lies behind that. -/
theorem starts_around (roomy : Roomy h (pre ++ b :: post)) {q : Nat} (start : q ∈ starts p (pre ++ b :: post)) :
    q+h ≤ p+extent pre ∨ q = p+extent pre ∨ (post ≠ [] ∧ (q = p+extent pre+b.size ∨ p+extent pre+b.size+h ≤ q)) := by
  obtain ⟨before,-⟩ := starts_middle (p := p) roomy
  rw [starts_append,starts,List.mem_append,List.mem_cons] at start
  obtain lower | same | higher := start
  · exact .inl (before q lower)
  · exact .inr (.inl same)
  · refine .inr (.inr ?_)
    cases post with
    | nil => cases higher
    | cons c post =>
      obtain ⟨room,rest⟩ := roomy_cons.mp (roomy_cons.mp (roomy_append.mp roomy).2).2
      refine ⟨List.cons_ne_nil _ _,?_⟩
      rcases List.mem_cons.mp higher with same | later
      · exact .inl same
      · have := starts_range rest later
        omega

/-- A block is marked. -/
theorem laid_mark (roomy : Roomy h (pre ++ b :: post)) (some_room : 0 < h) (laid : Laid tag prev p (pre ++ b :: post))
    {used : Bool} (marked : tag' (p+extent pre) = { tag (p+extent pre) with used := used })
    (same : ∀ q ∈ starts p (pre ++ b :: post), q ≠ p+extent pre → tag' q = tag q) :
    Laid tag' prev p (pre ++ { b with used := used } :: post) := by
  obtain ⟨before,behind⟩ := starts_middle (p := p) roomy
  have room := (roomy_cons.mp (roomy_append.mp roomy).2).1
  have own := laid_tag laid
  simp only [starts_append,starts,List.mem_append,List.mem_cons] at same
  obtain ⟨first,-,rest⟩ := laid_append.mp laid
  refine laid_append.mpr ⟨laid_congr (fun q start => same q (.inl start) ?_) first,?_,
    laid_congr (fun q start => same q (.inr (.inr start)) ?_) rest⟩
  · have := before q start
    omega
  · rw [marked,own]
  · have := behind q start
    omega

/-- A block is divided; what lies behind it is told. -/
theorem laid_split (front : Nat) {used : Bool} (roomy : Roomy h (pre ++ b :: post)) (some_room : 0 < h)
    (fits : h ≤ front) (inside : front+h ≤ b.size) (laid : Laid tag prev p (pre ++ b :: post))
    (own : tag' (p+extent pre) = ⟨used,p+extent pre+front,(tag (p+extent pre)).prev⟩)
    (new : tag' (p+extent pre+front) = ⟨false,(tag (p+extent pre)).next,p+extent pre⟩)
    (next : post ≠ [] → tag' (p+extent pre+b.size) = { tag (p+extent pre+b.size) with prev := p+extent pre+front })
    (same : ∀ q ∈ starts p (pre ++ b :: post), q ≠ p+extent pre → q ≠ p+extent pre+b.size → tag' q = tag q) :
    Laid tag' prev p (pre ++ ⟨front,used⟩ :: ⟨b.size-front,false⟩ :: post) := by
  obtain ⟨before,behind⟩ := starts_middle (p := p) roomy
  have before' := laid_tag laid
  simp only [starts_append,starts,List.mem_append,List.mem_cons] at same
  obtain ⟨first,-,rest⟩ := laid_append.mp laid
  rw [before'] at own new
  have back : p+extent pre+front+(b.size-front) = p+extent pre+b.size := by omega
  refine laid_append.mpr ⟨laid_congr (fun q start => same q (.inl start) ?_ ?_) first,own,?_,?_⟩
  · have := before q start
    omega
  · have := before q start
    omega
  · rw [new,back]
  · rw [back]
    cases post with
    | nil => trivial
    | cons c post =>
      obtain ⟨third,rest⟩ := rest
      have room := (roomy_cons.mp (roomy_cons.mp (roomy_append.mp roomy).2).2)
      refine ⟨?_,laid_congr (fun q start => same q (.inr (.inr ?_)) ?_ ?_) rest⟩
      · rw [next (List.cons_ne_nil _ _),third]
      · exact List.mem_cons_of_mem _ start
      all_goals have := starts_range room.2 start
      all_goals omega

/-- A block is joined with the one behind it. -/
theorem laid_join {c : Block} (roomy : Roomy h (pre ++ b :: c :: post)) (some_room : 0 < h)
    (laid : Laid tag prev p (pre ++ b :: c :: post))
    (own : tag' (p+extent pre) = { tag (p+extent pre) with next := (tag (p+extent pre+b.size)).next })
    (next : post ≠ [] → tag' (p+extent pre+b.size+c.size)
      = { tag (p+extent pre+b.size+c.size) with prev := p+extent pre })
    (same : ∀ q ∈ starts p (pre ++ b :: c :: post), q ≠ p+extent pre → q ≠ p+extent pre+b.size →
      q ≠ p+extent pre+b.size+c.size → tag' q = tag q) :
    Laid tag' prev p (pre ++ ⟨b.size+c.size,b.used⟩ :: post) := by
  obtain ⟨before,behind⟩ := starts_middle (p := p) roomy
  have first := laid_tag laid
  simp only [starts_append,starts,List.mem_append,List.mem_cons] at same
  obtain ⟨front,-,second,rest⟩ := laid_append.mp laid
  have back : p+extent pre+(b.size+c.size) = p+extent pre+b.size+c.size := by omega
  refine laid_append.mpr ⟨laid_congr (fun q start => same q (.inl start) ?_ ?_ ?_) front,?_,?_⟩
  iterate 3
    have := before q start
    omega
  · rw [own,first,second,back]
  · rw [back]
    cases post with
    | nil => trivial
    | cons d post =>
      obtain ⟨third,rest⟩ := rest
      have room := roomy_cons.mp (roomy_cons.mp (roomy_cons.mp (roomy_append.mp roomy).2).2).2
      have room' := (roomy_cons.mp (roomy_append.mp roomy).2)
      have room'' := (roomy_cons.mp room'.2).1
      refine ⟨?_,laid_congr (fun q start => same q (.inr (.inr (.inr ?_))) ?_ ?_ ?_) rest⟩
      · rw [next (List.cons_ne_nil _ _),third]
      · exact List.mem_cons_of_mem _ start
      all_goals have := starts_range room.2 start
      all_goals omega
end

/-! ### Used blocks -/

/-- The used blocks with their sizes. -/
def taken : Nat → List Block → List (Nat × Nat)
  | _, [] => []
  | p, b :: bs => if b.used then (p,b.size) :: taken (p+b.size) bs else taken (p+b.size) bs

theorem taken_append (p : Nat) (as bs : List Block) : taken p (as ++ bs) = taken p as ++ taken (p+extent as) bs := by
  induction as generalizing p with
  | nil => simp [taken]
  | cons a as ih => cases used : a.used <;> simp [taken,used,ih,Nat.add_assoc]

@[simp] theorem taken_used (p k : Nat) (bs : List Block) : taken p (⟨k,true⟩ :: bs) = (p,k) :: taken (p+k) bs := rfl
@[simp] theorem taken_free (p k : Nat) (bs : List Block) : taken p (⟨k,false⟩ :: bs) = taken (p+k) bs := rfl

theorem taken_middle {p q k : Nat} {bs : List Block} (used : (q,k) ∈ taken p bs) :
    ∃ pre post, bs = pre ++ ⟨k,true⟩ :: post ∧ q = p+extent pre := by
  induction bs generalizing p with
  | nil => cases used
  | cons b bs ih =>
    obtain ⟨size,_ | _⟩ := b
    · obtain ⟨pre,post,rfl,rfl⟩ := ih used
      exact ⟨_ :: pre,post,rfl,by rw [extent_cons,Nat.add_assoc]⟩
    · rcases List.mem_cons.mp used with same | later
      · cases same
        exact ⟨[],bs,rfl,rfl⟩
      · obtain ⟨pre,post,rfl,rfl⟩ := ih later
        exact ⟨_ :: pre,post,rfl,by rw [extent_cons,Nat.add_assoc]⟩

/-- No other block starts inside a used one. -/
theorem taken_clear {h p q k r : Nat} {bs : List Block} (roomy : Roomy h bs) (used : (q,k) ∈ taken p bs)
    (start : r ∈ starts p bs) : r+h ≤ q ∨ r = q ∨ q+k ≤ r := by
  obtain ⟨pre,post,rfl,rfl⟩ := taken_middle used
  obtain ⟨before,behind⟩ := starts_middle (p := p) roomy
  rw [starts_append,List.mem_append,starts,List.mem_cons] at start
  obtain lower | same | higher := start
  · exact .inl (before r lower)
  · exact .inr (.inl same)
  · exact .inr (.inr (behind r higher))

theorem taken_start {p q k : Nat} {bs : List Block} (used : (q,k) ∈ taken p bs) : q ∈ starts p bs := by
  obtain ⟨pre,post,rfl,rfl⟩ := taken_middle used
  exact start_mem p pre _ post

theorem taken_room {h p q k : Nat} {bs : List Block} (roomy : Roomy h bs) (used : (q,k) ∈ taken p bs) :
    h ≤ k ∧ p ≤ q ∧ q+k ≤ p+extent bs := by
  obtain ⟨pre,post,rfl,rfl⟩ := taken_middle used
  have room := (roomy_cons.mp (roomy_append.mp roomy).2).1
  simp only [extent_append,extent_cons] at room ⊢
  omega

/-- Used blocks lie one behind the other. -/
theorem taken_pairwise (p : Nat) (bs : List Block) : (taken p bs).Pairwise fun t u => t.1+t.2 ≤ u.1 := by
  induction bs generalizing p with
  | nil => exact .nil
  | cons b bs ih =>
    obtain ⟨k,_ | _⟩ := b
    · exact ih _
    · refine .cons (fun u later => ?_) (ih _)
      obtain ⟨pre,post,-,start⟩ := taken_middle (q := u.1) (k := u.2) later
      exact start ▸ Nat.le_add_right ..

/-- The bytes of used blocks. -/
def volume (ts : List (Nat × Nat)) : Nat := (ts.map Prod.snd).sum

@[simp] theorem volume_nil : volume [] = 0 := rfl
@[simp] theorem volume_cons (t : Nat × Nat) (ts : List (Nat × Nat)) : volume (t :: ts) = t.2+volume ts := by simp [volume]
@[simp] theorem volume_append (ts us : List (Nat × Nat)) : volume (ts ++ us) = volume ts+volume us := by simp [volume]

theorem volume_taken_le (p : Nat) (bs : List Block) : volume (taken p bs) ≤ extent bs := by
  induction bs generalizing p with
  | nil => exact Nat.le_refl 0
  | cons b bs ih =>
    have := ih (p+b.size)
    obtain ⟨k,_ | _⟩ := b <;> simp only [taken_used,taken_free,volume_cons,extent_cons] at this ⊢ <;> omega

/-! ### Free blocks -/

/-- The free blocks with their sizes. -/
def holes : Nat → List Block → List (Nat × Nat)
  | _, [] => []
  | p, b :: bs => if b.used then holes (p+b.size) bs else (p,b.size) :: holes (p+b.size) bs

@[simp] theorem holes_used (p k : Nat) (bs : List Block) : holes p (⟨k,true⟩ :: bs) = holes (p+k) bs := rfl
@[simp] theorem holes_free (p k : Nat) (bs : List Block) : holes p (⟨k,false⟩ :: bs) = (p,k) :: holes (p+k) bs := rfl

theorem holes_middle {p q k : Nat} {bs : List Block} (free : (q,k) ∈ holes p bs) :
    ∃ pre post, bs = pre ++ ⟨k,false⟩ :: post ∧ q = p+extent pre := by
  induction bs generalizing p with
  | nil => cases free
  | cons b bs ih =>
    obtain ⟨size,_ | _⟩ := b
    · rcases List.mem_cons.mp free with same | later
      · cases same
        exact ⟨[],bs,rfl,rfl⟩
      · obtain ⟨pre,post,rfl,rfl⟩ := ih later
        exact ⟨_ :: pre,post,rfl,by rw [extent_cons,Nat.add_assoc]⟩
    · obtain ⟨pre,post,rfl,rfl⟩ := ih free
      exact ⟨_ :: pre,post,rfl,by rw [extent_cons,Nat.add_assoc]⟩

/-- Where the first free block starts, or the blocks end. -/
def firstFree : Nat → List Block → Nat
  | p, [] => p
  | p, b :: bs => if b.used then firstFree (p+b.size) bs else p

theorem le_firstFree (p : Nat) (bs : List Block) : p ≤ firstFree p bs := by
  induction bs generalizing p with
  | nil => exact Nat.le_refl _
  | cons b bs ih =>
    rw [firstFree]
    split
    · exact Nat.le_trans (Nat.le_add_right ..) (ih _)
    · exact Nat.le_refl _

theorem firstFree_le (p : Nat) (pre : List Block) (k : Nat) (post : List Block) :
    firstFree p (pre ++ ⟨k,false⟩ :: post) ≤ p+extent pre := by
  induction pre generalizing p with
  | nil => exact Nat.le_refl _
  | cons a pre ih =>
    rw [List.cons_append,firstFree,extent_cons]
    split
    · have := ih (p+a.size)
      omega
    · omega

/-- What comes behind a free block does not matter. -/
theorem firstFree_front (p : Nat) (pre : List Block) (k j : Nat) (post post' : List Block) :
    firstFree p (pre ++ ⟨k,false⟩ :: post) = firstFree p (pre ++ ⟨j,false⟩ :: post') := by
  induction pre generalizing p with
  | nil => rfl
  | cons a pre ih => simp only [List.cons_append,firstFree,ih]

/-- The first free block is one of those in front, or they are all used. -/
theorem firstFree_cases {h : Nat} {pre : List Block} (roomy : Roomy h pre) (some_room : 0 < h) (p : Nat) :
    (∀ bs, firstFree p (pre ++ bs) = firstFree (p+extent pre) bs)
      ∨ ∃ q < p+extent pre, ∀ bs, firstFree p (pre ++ bs) = q := by
  induction pre generalizing p with
  | nil => exact .inl fun _ => rfl
  | cons a pre ih =>
    obtain ⟨room,rest⟩ := roomy_cons.mp roomy
    simp only [List.cons_append,firstFree,extent_cons,← Nat.add_assoc]
    cases a.used with
    | false => exact .inr ⟨p,by omega,fun _ => rfl⟩
    | true => exact ih rest _

/-- A block becomes free. -/
theorem firstFree_release {h : Nat} {pre : List Block} (roomy : Roomy h pre) (some_room : 0 < h) (p k j : Nat)
    (some_size : 0 < j) (post post' : List Block) : firstFree p (pre ++ ⟨k,false⟩ :: post)
      = min (p+extent pre) (firstFree p (pre ++ ⟨j,true⟩ :: post')) := by
  rcases firstFree_cases roomy some_room p with first | ⟨q,lower,first⟩
  · have := le_firstFree (p+extent pre+j) post'
    rw [first,first,firstFree,firstFree,if_neg (by simp),if_pos rfl,Nat.min_eq_left (by dsimp only; omega)]
  · rw [first,first,Nat.min_eq_right (Nat.le_of_lt lower)]

theorem firstFree_divided (p : Nat) (pre : List Block) (k j : Nat) (post : List Block) :
    firstFree p (pre ++ ⟨k+j,true⟩ :: post) = firstFree p ((pre ++ [⟨k,true⟩]) ++ ⟨j,true⟩ :: post) := by
  induction pre generalizing p with
  | nil => simp only [List.nil_append,List.cons_append,firstFree,if_true,Nat.add_assoc]
  | cons a pre ih => simp only [List.cons_append,firstFree,ih]

/-- The blocks in front of the first free one can be passed over. -/
theorem exists_firstFree (p : Nat) (bs : List Block) : ∃ pre post, bs = pre ++ post ∧ firstFree p bs = p+extent pre
    ∧ holes p bs = holes (p+extent pre) post := by
  induction bs generalizing p with
  | nil => exact ⟨[],[],rfl,rfl,rfl⟩
  | cons b bs ih =>
    obtain ⟨size,_ | _⟩ := b
    · exact ⟨[],_,rfl,rfl,rfl⟩
    · obtain ⟨pre,post,same,first,rest⟩ := ih (p+size)
      refine ⟨⟨size,true⟩ :: pre,post,by rw [same]; rfl,?_,?_⟩
      · rw [firstFree,if_pos rfl,first,extent_cons,Nat.add_assoc]
      · rw [holes_used,rest,extent_cons,Nat.add_assoc]

theorem le_holes {p q k : Nat} {bs : List Block} (free : (q,k) ∈ holes p bs) : p ≤ q := by
  obtain ⟨pre,post,-,rfl⟩ := holes_middle free
  exact Nat.le_add_right ..

/-- No two free blocks follow each other. -/
def Coalesced (bs : List Block) : Prop := bs.IsChain fun a b => a.used = true ∨ b.used = true

theorem coalesced_middle {pre post : List Block} {b : Block} : Coalesced (pre ++ b :: post) ↔
    Coalesced pre ∧ Coalesced post ∧ (∀ a ∈ pre.getLast?, a.used = true ∨ b.used = true)
      ∧ ∀ c ∈ post.head?, b.used = true ∨ c.used = true := by
  simp only [Coalesced,List.isChain_append,List.isChain_cons,List.head?_cons,Option.mem_some_iff,forall_eq']
  tauto

theorem coalesced_cons {post : List Block} {b : Block} : Coalesced (b :: post) ↔
    Coalesced post ∧ ∀ c ∈ post.head?, b.used = true ∨ c.used = true := by
  simp only [Coalesced,List.isChain_cons]
  tauto

/-- Free blocks alone are one. -/
theorem coalesced_free {bs : List Block} (coalesced : Coalesced bs) (free : taken p bs = []) : bs.length ≤ 1 := by
  match bs, coalesced, free with
  | [], _, _ => exact Nat.zero_le _
  | [_], _, _ => exact Nat.le_refl _
  | ⟨_,true⟩ :: _, _, free => cases free
  | ⟨_,false⟩ :: ⟨_,true⟩ :: _, _, free => cases free
  | ⟨_,false⟩ :: ⟨_,false⟩ :: _, coalesced, _ =>
    have := coalesced_cons.mp coalesced
    simp at this

/-- Free blocks of `bs` are joined in `bs'`. -/
structure Coarser (bs bs' : List Block) : Prop where
  starts_subset : ∀ q ∈ starts 0 bs', q ∈ starts 0 bs
  taken_eq : taken 0 bs' = taken 0 bs
  firstFree_eq : firstFree 0 bs' = firstFree 0 bs

theorem Coarser.refl (bs : List Block) : Coarser bs bs := ⟨fun _ start => start,rfl,rfl⟩

theorem Coarser.trans {as bs cs : List Block} (first : Coarser as bs) (second : Coarser bs cs) : Coarser as cs :=
  ⟨fun q start => first.starts_subset q (second.starts_subset q start),second.taken_eq.trans first.taken_eq,
    second.firstFree_eq.trans first.firstFree_eq⟩

theorem Coarser.join (pre post : List Block) (k j : Nat) :
    Coarser (pre ++ ⟨k,false⟩ :: ⟨j,false⟩ :: post) (pre ++ ⟨k+j,false⟩ :: post) :=
  ⟨fun _ start => mem_starts_join start,by simp only [taken_append,taken_free,Nat.add_assoc],firstFree_front ..⟩

end Ucm108e.Tiling
