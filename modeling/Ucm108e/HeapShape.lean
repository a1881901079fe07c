import Mathlib
import Ucm108e.SmallMem

/-!
What the system heap keeps to: its blocks fill the area from `heap_ptr` to `heap_end`, no two
free ones follow each other, and `lfree`, `used_mem` and `max_mem` are what they stand for.
`rt_malloc` and `rt_free` write headers of blocks and nothing else.
-/
namespace Ucm108e.HeapShape
open Ucm108e.Bytes Ucm108e.Words Ucm108e.Tiling Ucm108e.SmallMem
set_option linter.unusedSimpArgs false

/-- The offset of `heap_end`. -/
def top (s : Heap) : Nat := s.mem_size_aligned+12

/-- The header at an offset, as the blocks see it. -/
def tag (s : Heap) (p : Nat) : Tag :=
  ⟨(s.header (s.heap_ptr+p)).used != 0,(s.header (s.heap_ptr+p)).next,(s.header (s.heap_ptr+p)).prev⟩

/-- The area, which nothing changes after `rt_system_heap_init`. -/
structure Area (s : Heap) : Prop where
  at_end : s.heap_end = s.heap_ptr+top s
  room : 12 ≤ s.mem_size_aligned
  fits : s.heap_ptr+top s+12 < 2^32
  aligned : 4 ∣ s.heap_ptr

structure Shape (s : Heap) (bs : List Block) : Prop extends Area s where
  laid : Laid (tag s) 0 0 bs
  ended : (s.header s.heap_end).used ≠ 0
  covers : extent bs = top s
  sizes : ∀ b ∈ bs, 4 ∣ b.size ∧ 12 < b.size
  branded : ∀ q ∈ starts 0 bs, (s.header (s.heap_ptr+q)).magic = HEAP_MAGIC

/-- Nothing is written but headers of `bs` and that of the end. -/
def Keeps (s s' : Heap) (bs : List Block) : Prop :=
  ∀ i, (∀ q ∈ starts 0 bs, i < s.heap_ptr+q ∨ s.heap_ptr+q+12 ≤ i) → (i < s.heap_end ∨ s.heap_end+12 ≤ i) →
    s'.mem i = s.mem i

theorem Keeps.trans {s s' s'' : Heap} {bs bs' : List Block} (first : Keeps s s' bs) (second : Keeps s' s'' bs')
    (fewer : ∀ q ∈ starts 0 bs', q ∈ starts 0 bs) (ptr : s'.heap_ptr = s.heap_ptr) (last : s'.heap_end = s.heap_end) :
    Keeps s s'' bs := by
  intro i clear outside
  rw [second i (by rw [ptr]; exact fun q start => clear q (fewer q start)) (by rwa [last]),first i clear outside]

theorem Keeps.mono {s s' : Heap} {bs bs' : List Block} (keeps : Keeps s s' bs)
    (more : ∀ q ∈ starts 0 bs, q ∈ starts 0 bs') : Keeps s s' bs' :=
  fun i clear => keeps i fun q start => clear q (more q start)

theorem Keeps.refl (s : Heap) (bs : List Block) : Keeps s s bs := fun _ _ _ => rfl

section
variable {s s' : Heap} {bs pre post : List Block} {b : Block}

theorem Area.of_fields (area : Area s) (first : s'.heap_ptr = s.heap_ptr) (last : s'.heap_end = s.heap_end)
    (size : s'.mem_size_aligned = s.mem_size_aligned) : Area s' := by
  obtain ⟨at_end,room,fits,aligned⟩ := area
  constructor <;> simpa only [top,first,last,size]

theorem Shape.roomy (shape : Shape s bs) : Roomy 12 bs := fun b member => Nat.le_of_lt (shape.sizes b member).2

theorem Shape.next_eq (shape : Shape s (pre ++ b :: post)) :
    (s.header (s.heap_ptr+extent pre)).next = extent pre+b.size := by
  simpa [tag] using congrArg Tag.next (laid_tag shape.laid)

theorem Shape.prev_eq (shape : Shape s (pre ++ b :: post)) :
    (s.header (s.heap_ptr+extent pre)).prev = lastStart 0 0 pre := by
  simpa [tag] using congrArg Tag.prev (laid_tag shape.laid)

theorem Shape.used_eq (shape : Shape s (pre ++ b :: post)) :
    ((s.header (s.heap_ptr+extent pre)).used != 0) = b.used := by
  simpa [tag] using congrArg Tag.used (laid_tag shape.laid)

/-- The end of a block is the end of the heap exactly when no block follows. -/
theorem Shape.end_iff (shape : Shape s (pre ++ b :: post)) : extent pre+b.size = top s ↔ post = [] := by
  have covers := shape.covers
  rw [extent_append,extent_cons] at covers
  cases post with
  | nil =>
    rw [extent_nil] at covers
    exact ⟨fun _ => rfl,fun _ => by omega⟩
  | cons c post =>
    have room := (roomy_cons.mp (roomy_cons.mp (roomy_append.mp shape.roomy).2).2).1
    rw [extent_cons] at covers
    exact ⟨fun same => by omega,fun empty => by cases empty⟩

theorem Shape.inside (shape : Shape s (pre ++ b :: post)) : 12 ≤ b.size ∧ extent pre+b.size ≤ top s := by
  have covers := shape.covers
  rw [extent_append,extent_cons] at covers
  exact ⟨(roomy_cons.mp (roomy_append.mp shape.roomy).2).1,by omega⟩
end

/-! ### Dividing a block -/

@[simp] theorem divide_heap_ptr (s : Heap) (ptr ptr2 : Nat) : (divide s ptr ptr2).heap_ptr = s.heap_ptr := by
  unfold divide
  dsimp only
  split <;> rfl

theorem divide_fields (s : Heap) (ptr ptr2 : Nat) : divide s ptr ptr2 = { s with mem := (divide s ptr ptr2).mem } := by
  unfold divide
  dsimp only
  split <;> rfl

/-- The two headers of a divided block. -/
def divided (s : Heap) (p p2 n : Nat) : Heap :=
  (s.setHeader (s.heap_ptr+p2) ⟨HEAP_MAGIC,0,n,p⟩).setNext (s.heap_ptr+p) p2

section
variable {s : Heap} {p p2 n : Nat} (room : p+12 ≤ p2) (room2 : p2+12 ≤ n) (fits : n < 2^32)
include room room2 fits

theorem divided_own : (divided s p p2 n).header (s.heap_ptr+p) = { s.header (s.heap_ptr+p) with next := p2 } := by
  rw [divided,Heap.header_setNext (by omega),Heap.header_setHeader_apart (by omega)]

theorem divided_new : (divided s p p2 n).header (s.heap_ptr+p2) = ⟨HEAP_MAGIC,0,n,p⟩ := by
  rw [divided,Heap.setNext,Heap.header_setHeader_apart (by omega),Heap.header_setHeader fits (by dsimp only; omega)]

variable (own : (s.header (s.heap_ptr+p)).next = n)
include own

theorem divide_eq : divide s p p2 =
    if n ≠ top s then (divided s p p2 n).setPrev (s.heap_ptr+n) p2 else divided s p p2 n := by
  have second := divided_new (s := s) room room2 fits
  subst own
  unfold divided at second
  simp only [divide,second]
  rfl

theorem divide_own : (divide s p p2).header (s.heap_ptr+p) = { s.header (s.heap_ptr+p) with next := p2 } := by
  rw [divide_eq room room2 fits own,← divided_own room room2 fits]
  split
  next => exact Heap.header_setHeader_apart (by omega)
  next => rfl

theorem divide_new : (divide s p p2).header (s.heap_ptr+p2) = ⟨HEAP_MAGIC,0,n,p⟩ := by
  rw [divide_eq room room2 fits own,← divided_new (s := s) room room2 fits]
  split
  next => exact Heap.header_setHeader_apart (by omega)
  next => rfl

theorem divide_next (more : n ≠ top s) :
    (divide s p p2).header (s.heap_ptr+n) = { s.header (s.heap_ptr+n) with prev := p2 } := by
  rw [divide_eq room room2 fits own,if_pos more,Heap.header_setPrev (by omega),divided,Heap.setNext,
    Heap.header_setHeader_apart (by omega),Heap.header_setHeader_apart (by omega)]

theorem divide_mem {i : Nat} (first : i < s.heap_ptr+p ∨ s.heap_ptr+p+12 ≤ i)
    (second : i < s.heap_ptr+p2 ∨ s.heap_ptr+p2+12 ≤ i) (third : n ≠ top s → i < s.heap_ptr+n ∨ s.heap_ptr+n+12 ≤ i) :
    (divide s p p2).mem i = s.mem i := by
  have two : (divided s p p2 n).mem i = s.mem i := by
    rw [divided,Heap.setNext,Heap.setHeader_mem first,Heap.setHeader_mem second]
  rw [divide_eq room room2 fits own]
  split
  next more => exact (Heap.setHeader_mem (third more)).trans two
  next => exact two

theorem divide_other {q : Nat} (first : q+12 ≤ p ∨ p+12 ≤ q) (second : q+12 ≤ p2 ∨ p2+12 ≤ q)
    (third : n ≠ top s → q+12 ≤ n ∨ n+12 ≤ q) : (divide s p p2).header (s.heap_ptr+q) = s.header (s.heap_ptr+q) :=
  heapMem_congr fun i small => divide_mem room room2 fits own (by omega) (by omega) fun more => by
    have := third more
    omega
end

theorem tag_of_header {s s' : Heap} {p : Nat} {h : HeapMem} (same : s'.heap_ptr = s.heap_ptr)
    (header : s'.header (s.heap_ptr+p) = h) : tag s' p = ⟨h.used != 0,h.next,h.prev⟩ := by
  rw [tag,same,header]

section
variable {s : Heap} {pre post : List Block} {b : Block} {front : Nat}

/-- Behind a block there is the end or another block. -/
theorem Shape.behind (shape : Shape s (pre ++ b :: post)) : extent pre+b.size ≠ top s → extent pre+b.size+12 ≤ top s := by
  intro more
  have covers := shape.covers
  cases post with
  | nil => exact absurd (shape.end_iff.mpr rfl) more
  | cons c post =>
    have room := (roomy_cons.mp (roomy_cons.mp (roomy_append.mp shape.roomy).2).2).1
    rw [extent_append,extent_cons,extent_cons] at covers
    omega

variable (front) in
theorem Shape.divide (shape : Shape s (pre ++ b :: post)) (low : 12 < front) (high : front+12 < b.size)
    (whole : 4 ∣ front) : Shape (divide s (extent pre) (extent pre+front)) (pre ++ ⟨front,b.used⟩ :: ⟨b.size-front,false⟩ :: post)
      ∧ Keeps s (divide s (extent pre) (extent pre+front)) (pre ++ ⟨front,b.used⟩ :: ⟨b.size-front,false⟩ :: post) := by
  obtain ⟨-,inside⟩ := shape.inside
  have fits : extent pre+b.size < 2^32 := by
    have := shape.fits
    omega
  have room : extent pre+12 ≤ extent pre+front := by omega
  have room2 : extent pre+front+12 ≤ extent pre+b.size := by omega
  have own := divide_own room room2 fits shape.next_eq
  have new := divide_new room room2 fits shape.next_eq
  have next := divide_next room room2 fits shape.next_eq
  have other {q : Nat} := divide_other room room2 fits shape.next_eq (q := q)
  have same := divide_heap_ptr s (extent pre) (extent pre+front)
  have around {q : Nat} := starts_around shape.roomy (p := 0) (q := q)
  have finish := shape.end_iff
  simp only [Nat.zero_add] at around
  have covers := shape.covers
  rw [extent_append,extent_cons] at covers
  have apart {q : Nat} (start : q ∈ starts 0 (pre ++ b :: post)) (first : q ≠ extent pre)
      (second : q ≠ extent pre+b.size) :
      (SmallMem.divide s (extent pre) (extent pre+front)).header (s.heap_ptr+q) = s.header (s.heap_ptr+q) := by
    have := around start
    exact other (by omega) (by omega) (by omega)
  refine ⟨⟨?area,?laid,?ended,?covers,?sizes,?branded⟩,?keeps⟩
  case area => apply shape.toArea.of_fields same <;> rw [divide_fields]
  case laid =>
    refine laid_split (h := 12) front shape.roomy (by omega) (by omega) (by omega) shape.laid ?_ ?_ ?_ ?_ <;>
      simp only [Nat.zero_add]
    · rw [tag_of_header same own,shape.used_eq]
      rfl
    · rw [tag_of_header same new,tag,shape.next_eq]
      rfl
    · intro more
      rw [tag_of_header same (next (mt finish.mp more))]
      rfl
    · intro q start first second
      rw [tag_of_header same (apart start first second)]
      rfl
  case ended =>
    have := shape.behind
    rw [divide_fields,shape.at_end]
    exact (congrArg HeapMem.used (other (by omega) (by omega) (by omega))).trans_ne (shape.at_end ▸ shape.ended)
  case covers =>
    rw [divide_fields,extent_append,extent_cons,extent_cons]
    simp only [top] at covers ⊢
    omega
  case sizes =>
    have sizes := shape.sizes
    simp only [List.forall_mem_append,List.forall_mem_cons] at sizes ⊢
    exact ⟨sizes.1,⟨whole,low⟩,⟨Nat.dvd_sub sizes.2.1.1 whole,by omega⟩,sizes.2.2⟩
  case branded =>
    intro q start
    rw [same]
    rcases (mem_starts_split (by omega)).mp start with old | rfl
    · rw [← shape.branded q old]
      by_cases first : q = extent pre
      · rw [first,own]
      by_cases second : q = extent pre+b.size
      · have more := (((around old).resolve_left (by omega)).resolve_left first).1
        rw [second,next (mt finish.mp more)]
      rw [apart old first second]
    · rw [Nat.zero_add,new]
  case keeps =>
    intro i clear outside
    simp only [mem_starts_split (show front ≤ b.size by omega),Nat.zero_add] at clear
    refine divide_mem room room2 fits shape.next_eq (clear _ (.inl ?_)) (clear _ (.inr rfl)) fun more => ?_
    · simpa using start_mem 0 pre b post
    · cases post with
      | nil => exact absurd (finish.mpr rfl) more
      | cons c post =>
        refine clear _ (.inl ?_)
        simpa [Nat.add_assoc] using start_mem 0 (pre ++ [b]) c post
end

/-! ### Marking a block -/

section
variable {s : Heap} {pre post : List Block} {b : Block} {h : HeapMem}

/-- The header of a block is written with another mark. -/
theorem Shape.setHeader (shape : Shape s (pre ++ b :: post)) (magic : h.magic = HEAP_MAGIC)
    (next : h.next = (s.header (s.heap_ptr+extent pre)).next) (prev : h.prev = (s.header (s.heap_ptr+extent pre)).prev) :
    Shape (s.setHeader (s.heap_ptr+extent pre) h) (pre ++ { b with used := h.used != 0 } :: post)
      ∧ Keeps s (s.setHeader (s.heap_ptr+extent pre) h) (pre ++ b :: post) := by
  obtain ⟨room,inside⟩ := shape.inside
  have fits := s.header_fits (s.heap_ptr+extent pre)
  have own : (s.setHeader (s.heap_ptr+extent pre) h).header (s.heap_ptr+extent pre) = h :=
    Heap.header_setHeader (next ▸ fits.1) (prev ▸ fits.2)
  have apart {q : Nat} (start : q ∈ starts 0 (pre ++ b :: post)) (other : q ≠ extent pre) :
      (s.setHeader (s.heap_ptr+extent pre) h).header (s.heap_ptr+q) = s.header (s.heap_ptr+q) := by
    have around := starts_around shape.roomy start
    exact Heap.header_setHeader_apart (by omega)
  refine ⟨⟨shape.toArea.of_fields rfl rfl rfl,?laid,?ended,?covers,?sizes,?branded⟩,?keeps⟩
  case laid =>
    refine laid_mark (h := 12) shape.roomy (by omega) shape.laid ?_ fun q start other => ?_ <;>
      simp only [Nat.zero_add] at *
    · rw [tag_of_header rfl own,next,prev]
      rfl
    · rw [tag_of_header rfl (apart start other)]
      rfl
  case ended =>
    refine (congrArg HeapMem.used (Heap.header_setHeader_apart ?_)).trans_ne shape.ended
    rw [Heap.setHeader_heap_end,shape.at_end]
    omega
  case covers => simpa [top] using shape.covers
  case sizes => simpa only [List.forall_mem_append,List.forall_mem_cons] using shape.sizes
  case branded =>
    intro q start
    have old := mem_starts_mark.mp start
    by_cases first : q = extent pre
    · subst first
      exact (congrArg HeapMem.magic own).trans magic
    · exact (congrArg HeapMem.magic (apart old first)).trans (shape.branded q old)
  case keeps =>
    intro i clear _
    exact Heap.setHeader_mem (clear _ (by simpa using start_mem 0 pre b post))
end

section
variable {s : Heap} {pre post : List Block} {b : Block}

theorem Shape.setUsed (shape : Shape s (pre ++ b :: post)) (used : UInt16) :
    Shape (s.setUsed (s.heap_ptr+extent pre) used) (pre ++ { b with used := used != 0 } :: post)
      ∧ Keeps s (s.setUsed (s.heap_ptr+extent pre) used) (pre ++ b :: post) :=
  shape.setHeader (shape.branded _ (by simpa using start_mem 0 pre b post)) rfl rfl

theorem Shape.setMagic (shape : Shape s (pre ++ b :: post)) : Shape (s.setMagic (s.heap_ptr+extent pre)) (pre ++ b :: post)
    ∧ Keeps s (s.setMagic (s.heap_ptr+extent pre)) (pre ++ b :: post) := by
  obtain ⟨stamped,keeps⟩ := shape.setHeader (h := { s.header (s.heap_ptr+extent pre) with magic := HEAP_MAGIC }) rfl rfl rfl
  rw [shape.used_eq] at stamped
  exact ⟨stamped,keeps⟩
end

/-! ### Joining blocks -/

section
variable {s : Heap} {p q n : Nat} (room : p+12 ≤ q) (room2 : q+12 ≤ n) (fits : n < 2^32)
  (own : (s.header (s.heap_ptr+q)).next = n)
include room room2 fits own

theorem combine_eq :
    combine s (s.heap_ptr+p) (s.heap_ptr+q) = (s.setNext (s.heap_ptr+p) n).setPrev (s.heap_ptr+n) p := by
  have again : ((s.setNext (s.heap_ptr+p) n).header (s.heap_ptr+q)).next = n := by
    rw [Heap.setNext,Heap.header_setHeader_apart (by omega),own]
  have back : u32 ((s.heap_ptr+p : Nat)-s.heap_ptr) = p := u32_eq (by omega) (by omega)
  simp only [combine,own,again]
  exact congrArg _ back

theorem combine_own :
    (combine s (s.heap_ptr+p) (s.heap_ptr+q)).header (s.heap_ptr+p) = { s.header (s.heap_ptr+p) with next := n } := by
  rw [combine_eq room room2 fits own,Heap.setPrev,Heap.header_setHeader_apart (by omega),Heap.header_setNext fits]

theorem combine_next :
    (combine s (s.heap_ptr+p) (s.heap_ptr+q)).header (s.heap_ptr+n) = { s.header (s.heap_ptr+n) with prev := p } := by
  rw [combine_eq room room2 fits own,Heap.header_setPrev (by omega),Heap.setNext,Heap.header_setHeader_apart (by omega)]

theorem combine_mem {i : Nat} (first : i < s.heap_ptr+p ∨ s.heap_ptr+p+12 ≤ i)
    (second : i < s.heap_ptr+n ∨ s.heap_ptr+n+12 ≤ i) : (combine s (s.heap_ptr+p) (s.heap_ptr+q)).mem i = s.mem i := by
  rw [combine_eq room room2 fits own,Heap.setPrev,Heap.setHeader_mem second,Heap.setNext,Heap.setHeader_mem first]

theorem combine_other {r : Nat} (first : r+12 ≤ p ∨ p+12 ≤ r) (second : r+12 ≤ n ∨ n+12 ≤ r) :
    (combine s (s.heap_ptr+p) (s.heap_ptr+q)).header (s.heap_ptr+r) = s.header (s.heap_ptr+r) :=
  heapMem_congr fun i small => combine_mem room room2 fits own (by omega) (by omega)
end

section
variable {s : Heap} {pre post : List Block} {b c : Block}

theorem Shape.combine (shape : Shape s (pre ++ b :: c :: post)) :
    Shape (combine s (s.heap_ptr+extent pre) (s.heap_ptr+(extent pre+b.size))) (pre ++ ⟨b.size+c.size,b.used⟩ :: post)
      ∧ Keeps s (combine s (s.heap_ptr+extent pre) (s.heap_ptr+(extent pre+b.size))) (pre ++ b :: c :: post) := by
  have shape2 : Shape s ((pre ++ [b]) ++ c :: post) := by simpa using shape
  obtain ⟨room,inside⟩ := shape.inside
  obtain ⟨room2,inside2⟩ := shape2.inside
  have next_eq := shape2.next_eq
  have finish := shape2.end_iff
  have behind := shape2.behind
  have covers := shape.covers
  have fits : extent pre+b.size+c.size < 2^32 := by
    have := shape.fits
    simp only [extent_append,extent_cons,extent_nil,Nat.add_zero] at inside2
    omega
  have around {q : Nat} := starts_around shape2.roomy (p := 0) (q := q)
  have around' {q : Nat} := starts_around shape.roomy (p := 0) (q := q)
  simp only [extent_append,extent_cons,extent_nil,Nat.add_zero,Nat.zero_add,List.append_assoc,List.cons_append,
    List.nil_append] at inside2 next_eq finish behind covers around around'
  have low : extent pre+12 ≤ extent pre+b.size := by omega
  have high : extent pre+b.size+12 ≤ extent pre+b.size+c.size := by omega
  have own := combine_own low high fits next_eq
  have next := combine_next low high fits next_eq
  have other {r : Nat} := combine_other low high fits next_eq (r := r)
  have clear_mem {i : Nat} := combine_mem low high fits next_eq (i := i)
  have apart {q : Nat} (start : q ∈ starts 0 (pre ++ b :: c :: post)) (first : q ≠ extent pre)
      (second : q ≠ extent pre+b.size+c.size) :
      (SmallMem.combine s (s.heap_ptr+extent pre) (s.heap_ptr+(extent pre+b.size))).header (s.heap_ptr+q)
        = s.header (s.heap_ptr+q) := by
    have := around start
    have := around' start
    exact other (by omega) (by omega)
  refine ⟨⟨shape.toArea.of_fields rfl rfl rfl,?laid,?ended,?covers,?sizes,?branded⟩,?keeps⟩
  case laid =>
    refine laid_join (h := 12) shape.roomy (by omega) shape.laid ?_ (fun _ => ?_) fun q start first _ third => ?_ <;>
      simp only [Nat.zero_add] at *
    · rw [tag_of_header rfl own,tag,tag,next_eq]
    · rw [tag_of_header rfl next]
      rfl
    · rw [tag_of_header rfl (apart start first third)]
      rfl
  case ended =>
    have ended := shape.ended
    change ((SmallMem.combine s _ _).header s.heap_end).used ≠ 0
    rw [shape.at_end] at ended ⊢
    by_cases last : extent pre+b.size+c.size = top s
    · rw [← last] at ended ⊢
      exact (congrArg HeapMem.used next).trans_ne ended
    · exact (congrArg HeapMem.used (other (by omega) (by omega))).trans_ne ended
  case covers =>
    change extent _ = top s
    rw [extent_append,extent_cons]
    dsimp only
    omega
  case sizes =>
    have sizes := shape.sizes
    simp only [List.forall_mem_append,List.forall_mem_cons] at sizes ⊢
    exact ⟨sizes.1,⟨Nat.dvd_add sizes.2.1.1 sizes.2.2.1.1,by omega⟩,sizes.2.2.2⟩
  case branded =>
    intro q start
    have old := mem_starts_join start
    change ((SmallMem.combine s _ _).header (s.heap_ptr+q)).magic = HEAP_MAGIC
    rw [← shape.branded q old]
    by_cases first : q = extent pre
    · rw [first,own]
    by_cases third : q = extent pre+b.size+c.size
    · rw [third,next]
    rw [apart old first third]
  case keeps =>
    intro i clear outside
    rw [shape.at_end] at outside
    refine clear_mem (clear _ (by simpa using start_mem 0 pre b (c :: post))) ?_
    cases post with
    | nil => rwa [finish.mpr rfl]
    | cons d post =>
      refine clear _ ?_
      simpa [Nat.add_assoc] using start_mem 0 (pre ++ [b,c]) d post
end

/-! ### Plugging holes -/

section
variable {s : Heap} {pre post : List Block} {k : Nat}

theorem plugForward_spec (shape : Shape s (pre ++ ⟨k,false⟩ :: post)) (low : s.lfree ≤ s.heap_ptr+extent pre) :
    ∃ k' post', Shape (plugForward s (s.heap_ptr+extent pre)) (pre ++ ⟨k',false⟩ :: post')
      ∧ Keeps s (plugForward s (s.heap_ptr+extent pre)) (pre ++ ⟨k,false⟩ :: post)
      ∧ Coarser (pre ++ ⟨k,false⟩ :: post) (pre ++ ⟨k',false⟩ :: post')
      ∧ (Coalesced post → Coalesced post' ∧ ∀ c ∈ post'.head?, c.used = true)
      ∧ plugForward s (s.heap_ptr+extent pre) = { s with mem := (plugForward s (s.heap_ptr+extent pre)).mem } := by
  obtain ⟨room,inside⟩ := shape.inside
  have next := shape.next_eq
  dsimp only at room inside next
  unfold plugForward
  simp only [next]
  split
  next hole =>
    obtain ⟨-,unused,more⟩ := hole
    cases post with
    | nil =>
      have finish := shape.end_iff.mpr rfl
      rw [shape.at_end] at more
      exact absurd (congrArg _ finish) more
    | cons c post =>
      have shape2 : Shape s ((pre ++ [⟨k,false⟩]) ++ c :: post) := by simpa using shape
      have free := shape2.used_eq
      rw [extent_append,extent_cons,extent_nil] at free
      simp only [Nat.add_zero,unused] at free
      obtain ⟨j,_⟩ := c
      cases free
      have stays : (if s.lfree = s.heap_ptr+(extent pre+k) then s.heap_ptr+extent pre else s.lfree) = s.lfree :=
        if_neg (by omega)
      rw [stays]
      obtain ⟨joined,keeps⟩ := shape.combine
      refine ⟨k+j,post,joined,keeps,Coarser.join pre post k j,fun coalesced => ?_,rfl⟩
      obtain ⟨rest,used⟩ := coalesced_cons.mp coalesced
      exact ⟨rest,fun c first => (used c first).resolve_left (by simp)⟩
  next none =>
    refine ⟨k,post,shape,Keeps.refl s _,Coarser.refl _,fun coalesced => ⟨coalesced,?_⟩,rfl⟩
    intro c first
    cases post with
    | nil => cases first
    | cons d post =>
      cases first
      have shape2 : Shape s ((pre ++ [⟨k,false⟩]) ++ c :: post) := by simpa using shape
      have free := shape2.used_eq
      have behind := mt shape.end_iff.mp (List.cons_ne_nil c post)
      rw [extent_append,extent_cons,extent_nil] at free
      simp only [Nat.add_zero] at free
      rw [← free,bne_iff_ne]
      intro unused
      refine none ⟨by omega,unused,?_⟩
      rw [shape.at_end]
      simpa using behind

theorem plugBackward_spec (shape : Shape s (pre ++ ⟨k,false⟩ :: post))
    (low : s.lfree = s.heap_ptr+firstFree 0 (pre ++ ⟨k,false⟩ :: post)) :
    ∃ pre' k', Shape (plugBackward s (s.heap_ptr+extent pre)) (pre' ++ ⟨k',false⟩ :: post)
      ∧ Keeps s (plugBackward s (s.heap_ptr+extent pre)) (pre ++ ⟨k,false⟩ :: post)
      ∧ Coarser (pre ++ ⟨k,false⟩ :: post) (pre' ++ ⟨k',false⟩ :: post)
      ∧ (Coalesced pre → Coalesced pre' ∧ ∀ a ∈ pre'.getLast?, a.used = true)
      ∧ plugBackward s (s.heap_ptr+extent pre) = { s with mem := (plugBackward s (s.heap_ptr+extent pre)).mem } := by
  have prev := shape.prev_eq
  unfold plugBackward
  simp only [prev]
  rcases List.eq_nil_or_concat' pre with rfl | ⟨pre,a,rfl⟩
  · rw [if_neg (by simp [lastStart])]
    exact ⟨[],k,shape,Keeps.refl s _,Coarser.refl _,fun coalesced => ⟨coalesced,by simp⟩,rfl⟩
  · have shape2 : Shape s (pre ++ a :: ⟨k,false⟩ :: post) := by simpa using shape
    obtain ⟨room,-⟩ := shape2.inside
    have used := shape2.used_eq
    have apart : s.heap_ptr+extent pre ≠ s.heap_ptr+(extent pre+a.size) := by omega
    simp only [lastStart_append,extent_append,extent_cons,extent_nil,Nat.add_zero,Nat.zero_add]
    split
    next hole =>
      obtain ⟨-,unused⟩ := hole
      rw [unused] at used
      obtain ⟨j,_⟩ := a
      cases used
      have lower : firstFree 0 ((pre ++ [⟨j,false⟩]) ++ ⟨k,false⟩ :: post) ≤ extent pre := by
        simpa using firstFree_le 0 pre j (⟨k,false⟩ :: post)
      have stays : (if s.lfree = s.heap_ptr+(extent pre+j) then s.heap_ptr+extent pre else s.lfree) = s.lfree :=
        if_neg (by dsimp only at room; omega)
      rw [stays]
      obtain ⟨joined,keeps⟩ := shape2.combine
      refine ⟨pre,j+k,joined,by simpa using keeps,by simpa using Coarser.join pre post j k,fun coalesced => ?_,rfl⟩
      obtain ⟨rest,-,used,-⟩ := coalesced_middle.mp coalesced
      exact ⟨rest,fun c last => (used c last).resolve_right (by simp)⟩
    next none =>
      refine ⟨pre ++ [a],k,shape,Keeps.refl s _,Coarser.refl _,fun coalesced => ⟨coalesced,?_⟩,rfl⟩
      intro c last
      obtain rfl : a = c := by simpa using last
      rw [← used,bne_iff_ne]
      exact fun unused => none ⟨apart,unused⟩

/-- `plug_holes` leaves no hole around a block that has become free. -/
theorem plug_holes_spec (shape : Shape s (pre ++ ⟨k,false⟩ :: post))
    (low : s.lfree = s.heap_ptr+firstFree 0 (pre ++ ⟨k,false⟩ :: post)) (before : Coalesced pre)
    (behind : Coalesced post) : ∃ bs, Shape (plug_holes s (s.heap_ptr+extent pre)) bs
      ∧ Keeps s (plug_holes s (s.heap_ptr+extent pre)) (pre ++ ⟨k,false⟩ :: post)
      ∧ Coarser (pre ++ ⟨k,false⟩ :: post) bs ∧ Coalesced bs
      ∧ plug_holes s (s.heap_ptr+extent pre) = { s with mem := (plug_holes s (s.heap_ptr+extent pre)).mem } := by
  have lower : firstFree 0 (pre ++ ⟨k,false⟩ :: post) ≤ extent pre := by
    simpa using firstFree_le 0 pre k post
  obtain ⟨k',post',shape',keeps',coarser',rest,fields'⟩ := plugForward_spec shape (by omega)
  unfold plug_holes
  generalize plugForward s (s.heap_ptr+extent pre) = t at *
  have ptr : t.heap_ptr = s.heap_ptr := by rw [fields']
  have last : t.heap_end = s.heap_end := by rw [fields']
  have lfree : t.lfree = s.lfree := by rw [fields']
  obtain ⟨pre',k'',shape'',keeps'',coarser'',front,fields''⟩ :=
    plugBackward_spec shape' (by rw [ptr,lfree,low,coarser'.firstFree_eq])
  rw [ptr] at shape'' keeps'' fields''
  obtain ⟨before',ends⟩ := front before
  obtain ⟨behind',begins⟩ := rest behind
  refine ⟨_,shape'',keeps'.trans keeps'' coarser'.starts_subset ptr last,coarser'.trans coarser'',
    coalesced_middle.mpr ⟨before',behind',fun a last => .inl (ends a last),fun c first => .inr (begins c first)⟩,?_⟩
  rw [fields'']
  rw [fields']
end

/-! ### The loops of `rt_malloc` -/

section
variable {s : Heap} {pre bs : List Block}

theorem nextFree_eq (shape : Shape s (pre ++ bs)) {turns : Nat} (enough : bs.length < turns) :
    nextFree s turns (s.heap_ptr+extent pre) = some (s.heap_ptr+firstFree (extent pre) bs) := by
  induction bs generalizing pre turns with
  | nil =>
    obtain ⟨turns,rfl⟩ := Nat.exists_eq_succ_of_ne_zero (Nat.ne_of_gt enough)
    have covers := shape.covers
    rw [List.append_nil] at covers
    rw [nextFree,if_neg (by rw [shape.at_end,covers]; simp)]
    rfl
  | cons b bs ih =>
    obtain ⟨turns,rfl⟩ := Nat.exists_eq_succ_of_ne_zero (Nat.ne_of_gt (Nat.zero_lt_of_lt enough))
    obtain ⟨room,inside⟩ := shape.inside
    have used := shape.used_eq
    rw [nextFree,shape.next_eq,firstFree]
    cases free : b.used with
    | false =>
      rw [free,bne_eq_false_iff_eq] at used
      rw [if_neg fun both => both.1 used]
      rfl
    | true =>
      rw [free,bne_iff_ne] at used
      rw [if_pos ⟨used,by rw [shape.at_end]; omega⟩]
      have shape' : Shape s ((pre ++ [b]) ++ bs) := by simpa using shape
      have later := ih shape' (Nat.lt_of_succ_lt_succ enough)
      rw [extent_append,extent_cons,extent_nil,Nat.add_zero] at later
      exact later

/-- The search takes the first hole that is large enough and starts below the limit. -/
theorem firstFit_eq {size : Nat} (small : size ≤ s.mem_size_aligned) (shape : Shape s (pre ++ bs)) {turns : Nat}
    (enough : bs.length < turns) : firstFit s size turns (extent pre) = some (((holes (extent pre) bs).find? fun hole =>
      hole.1 < s.mem_size_aligned-size ∧ size+12 ≤ hole.2).map Prod.fst) := by
  have fits := shape.fits
  have limit : u32 (s.mem_size_aligned-size) = s.mem_size_aligned-size :=
    u32_eq (by omega) (by simp only [top] at fits; omega)
  induction bs generalizing pre turns with
  | nil =>
    obtain ⟨turns,rfl⟩ := Nat.exists_eq_succ_of_ne_zero (Nat.ne_of_gt enough)
    have covers := shape.covers
    simp only [List.append_nil,top] at covers
    rw [firstFit,limit,if_neg (by omega)]
    rfl
  | cons b bs ih =>
    obtain ⟨turns,rfl⟩ := Nat.exists_eq_succ_of_ne_zero (Nat.ne_of_gt (Nat.zero_lt_of_lt enough))
    obtain ⟨room,inside⟩ := shape.inside
    have used := shape.used_eq
    have shape' : Shape s ((pre ++ [b]) ++ bs) := by simpa using shape
    have later := ih shape' (Nat.lt_of_succ_lt_succ enough)
    rw [extent_append,extent_cons,extent_nil,Nat.add_zero] at later
    rw [firstFit,limit]
    dsimp only
    rw [shape.next_eq,later]
    have data : u32 (((extent pre+b.size : Nat) : Int)-((extent pre : Nat)+(SIZEOF_STRUCT_MEM : Nat))) = b.size-12 :=
      u32_eq (by simp only [SIZEOF_STRUCT_MEM]; omega) (by omega)
    rw [data]
    by_cases below : extent pre < s.mem_size_aligned-size
    · rw [if_pos below]
      obtain ⟨k,_ | _⟩ := b
      · rw [bne_eq_false_iff_eq] at used
        dsimp only at room
        simp only [used,true_and,holes_free,List.find?_cons,below]
        by_cases large : size+12 ≤ k
        · rw [if_pos (by omega),decide_eq_true large]
          rfl
        · rw [if_neg (by omega),decide_eq_false large]
      · rw [bne_iff_ne] at used
        rw [if_neg fun both => used both.1,holes_used]
    · rw [if_neg below,List.find?_eq_none.mpr]
      · rfl
      · rintro ⟨q,k⟩ free
        have := le_holes free
        simp only [decide_eq_true_eq]
        omega
end

/-! ### The heap between two calls -/

structure Tiled (s : Heap) (bs : List Block) : Prop extends Shape s bs where
  coalesced : Coalesced bs
  lowest : s.lfree = s.heap_ptr+firstFree 0 bs
  used : s.used_mem = volume (taken 0 bs)
  peak : s.used_mem ≤ s.max_mem ∧ s.max_mem ≤ top s

theorem Shape.of_fields {s s' : Heap} {bs : List Block} (shape : Shape s bs) (memory : s'.mem = s.mem)
    (ptr : s'.heap_ptr = s.heap_ptr) (last : s'.heap_end = s.heap_end)
    (size : s'.mem_size_aligned = s.mem_size_aligned) : Shape s' bs := by
  have header : s'.header = s.header := by
    funext a
    rw [Heap.header,Heap.header,memory]
  have tags : tag s' = tag s := by
    funext p
    rw [tag,tag,header,ptr]
  refine ⟨shape.toArea.of_fields ptr last size,by rw [tags]; exact shape.laid,by rw [header,last]; exact shape.ended,?_,
    shape.sizes,by rw [header,ptr]; exact shape.branded⟩
  rw [top,size]
  exact shape.covers

/-- The shape is in the headers alone. -/
theorem Shape.of_headers {s : Heap} {bs : List Block} (shape : Shape s bs) (m : Mem)
    (same : ∀ q ∈ starts 0 bs, heapMem m (s.heap_ptr+q) = s.header (s.heap_ptr+q))
    (last : heapMem m s.heap_end = s.header s.heap_end) : Shape { s with mem := m } bs := by
  have tags : ∀ q ∈ starts 0 bs, tag { s with mem := m } q = tag s q := fun q start =>
    @tag_of_header s { s with mem := m } q _ rfl (same q start)
  refine ⟨shape.toArea.of_fields rfl rfl rfl,laid_congr tags shape.laid,?_,shape.covers,shape.sizes,fun q start => ?_⟩
  · exact (congrArg HeapMem.used last).trans_ne shape.ended
  · exact (congrArg HeapMem.magic (same q start)).trans (shape.branded q start)

/-- The size that `rt_malloc` looks for. -/
def demand (size : Nat) : Nat := if RT_ALIGN size < MIN_SIZE_ALIGNED then MIN_SIZE_ALIGNED else RT_ALIGN size

theorem RT_ALIGN_eq {size : Nat} (small : size ≤ 4294967292) : RT_ALIGN size = (size+3)/4*4 := by
  rw [RT_ALIGN,u32_eq (n := size+3) (by simp only [RT_ALIGN_SIZE]; omega) (by omega)]
  rfl

theorem MIN_SIZE_ALIGNED_eq : MIN_SIZE_ALIGNED = 12 := RT_ALIGN_eq (by decide)

theorem RT_ALIGN_dvd (size : Nat) : 4 ∣ RT_ALIGN size := Nat.dvd_mul_left ..

theorem demand_facts (size : Nat) : 12 ≤ demand size ∧ 4 ∣ demand size ∧ RT_ALIGN size ≤ demand size := by
  have whole := RT_ALIGN_dvd size
  rw [demand,MIN_SIZE_ALIGNED_eq]
  split <;> omega

section
variable {s : Heap} {pre post : List Block} {k size : Nat}

/-- The part of a hole that `rt_malloc` takes: all of it, when the rest would be too small for a block. -/
def portion (size k : Nat) : Nat := if size+36 ≤ k then size+12 else k

/-- What is left behind the part that is taken. -/
def remainder (size k : Nat) (post : List Block) : List Block :=
  if size+36 ≤ k then ⟨k-(size+12),false⟩ :: post else post

theorem mark_spec (shape : Shape s (pre ++ ⟨k,false⟩ :: post)) (more : Nat) :
    Shape (((s.setUsed (s.heap_ptr+extent pre) 1).grow more).setMagic (s.heap_ptr+extent pre)) (pre ++ ⟨k,true⟩ :: post)
      ∧ Keeps s (((s.setUsed (s.heap_ptr+extent pre) 1).grow more).setMagic (s.heap_ptr+extent pre))
        (pre ++ ⟨k,true⟩ :: post) := by
  obtain ⟨marked,keeps⟩ := shape.setUsed 1
  have grown : Shape ((s.setUsed (s.heap_ptr+extent pre) 1).grow more) (pre ++ ⟨k,true⟩ :: post) :=
    marked.of_fields rfl rfl rfl rfl
  obtain ⟨stamped,keeps'⟩ := grown.setMagic
  exact ⟨stamped,(keeps.mono fun q => mem_starts_mark.mpr).trans keeps' (fun _ start => start) rfl rfl⟩

theorem occupy_spec (shape : Shape s (pre ++ ⟨k,false⟩ :: post)) (least : 12 ≤ size) (whole : 4 ∣ size)
    (large : size+12 ≤ k) : Shape (occupy s size (extent pre)) (pre ++ ⟨portion size k,true⟩ :: remainder size k post)
      ∧ Keeps s (occupy s size (extent pre)) (pre ++ ⟨portion size k,true⟩ :: remainder size k post)
      ∧ occupy s size (extent pre) = { s.grow (portion size k) with mem := (occupy s size (extent pre)).mem } := by
  have next := shape.next_eq
  have fits := shape.fits
  obtain ⟨-,inside⟩ := shape.inside
  dsimp only at inside next
  have data : u32 (((extent pre+k : Nat) : Int)-((extent pre : Nat)+(SIZEOF_STRUCT_MEM : Nat))) = k-12 :=
    u32_eq (by simp only [SIZEOF_STRUCT_MEM]; omega) (by omega)
  have most : u32 (size+SIZEOF_STRUCT_MEM+MIN_SIZE_ALIGNED) = size+24 :=
    u32_eq (by simp only [SIZEOF_STRUCT_MEM,MIN_SIZE_ALIGNED_eq]; omega) (by omega)
  have place : u32 (extent pre+SIZEOF_STRUCT_MEM+size) = extent pre+(size+12) :=
    u32_eq (by simp only [SIZEOF_STRUCT_MEM]; omega) (by omega)
  have part : u32 (size+SIZEOF_STRUCT_MEM) = size+12 := u32_eq (by simp only [SIZEOF_STRUCT_MEM]; omega) (by omega)
  have all : u32 (((extent pre+k : Nat) : Int)-(extent pre : Nat)) = k := u32_eq (by omega) (by omega)
  simp only [occupy,next,data,most,place,part,portion,remainder]
  by_cases rest : size+36 ≤ k
  · rw [if_pos rest,if_pos rest,if_pos (by omega)]
    obtain ⟨divided,keeps⟩ := shape.divide (size+12) (by omega) (by dsimp only; omega) (by omega)
    obtain ⟨m,fields⟩ : ∃ m, divide s (extent pre) (extent pre+(size+12)) = { s with mem := m } :=
      ⟨_,divide_fields s (extent pre) (extent pre+(size+12))⟩
    rw [fields] at divided keeps ⊢
    obtain ⟨taken,keeps'⟩ := mark_spec divided (size+12)
    exact ⟨taken,(keeps.mono fun q => mem_starts_mark.mpr).trans keeps' (fun _ start => start) rfl rfl,rfl⟩
  · rw [if_neg rest,if_neg rest,if_neg (by omega),all]
    obtain ⟨taken,keeps⟩ := mark_spec shape k
    exact ⟨taken,keeps,rfl⟩

theorem taken_remainder (p : Nat) :
    taken (p+portion size k) (remainder size k post) = taken (p+k) post := by
  unfold portion remainder
  split
  · rw [taken_free]
    congr 1
    omega
  · rfl

theorem coalesced_remainder (coalesced : Coalesced (pre ++ ⟨k,false⟩ :: post)) :
    Coalesced (pre ++ ⟨portion size k,true⟩ :: remainder size k post) := by
  obtain ⟨before,behind,-,used⟩ := coalesced_middle.mp coalesced
  refine coalesced_middle.mpr ⟨before,?_,fun _ _ => .inr rfl,fun _ _ => .inl rfl⟩
  unfold remainder
  split
  · exact coalesced_cons.mpr ⟨behind,used⟩
  · exact behind
end

theorem Shape.few {s : Heap} {bs : List Block} (shape : Shape s bs) : bs.length < top s := by
  have covers := shape.covers
  have roomy := shape.roomy
  have least : ∀ cs : List Block, Roomy 12 cs → 12*cs.length ≤ extent cs := by
    intro cs roomy
    induction cs with
    | nil => exact Nat.le_refl 0
    | cons c cs ih =>
      obtain ⟨room,rest⟩ := roomy_cons.mp roomy
      have := ih rest
      rw [List.length_cons,extent_cons]
      omega
  have := least bs roomy
  have := shape.room
  simp only [top] at *
  omega

/-- What `rt_malloc` leaves: one more used block, and all data as before. -/
structure Claimed (s s' : Heap) (bs bs' : List Block) (q k : Nat) : Prop where
  tiled : Tiled s' bs'
  keeps : Keeps s s' bs'
  ptr : s'.heap_ptr = s.heap_ptr
  last : s'.heap_end = s.heap_end
  size : s'.mem_size_aligned = s.mem_size_aligned
  claimed : ∃ before behind, taken 0 bs = before ++ behind ∧ taken 0 bs' = before ++ (q,k) :: behind

theorem Claimed.member {s s' : Heap} {bs bs' : List Block} {q k : Nat} (claimed : Claimed s s' bs bs' q k) :
    (q,k) ∈ taken 0 bs' := by
  obtain ⟨before,behind,-,new⟩ := claimed.claimed
  rw [new]
  simp

section
variable {s : Heap} {pre post : List Block} {k size turns : Nat}

theorem claim_spec (tiled : Tiled s (pre ++ ⟨k,false⟩ :: post)) (least : 12 ≤ size) (whole : 4 ∣ size)
    (large : size+12 ≤ k) (enough : top s ≤ turns) : ∃ s', claim turns s size (extent pre) = some s'
      ∧ Claimed s s' (pre ++ ⟨k,false⟩ :: post) (pre ++ ⟨portion size k,true⟩ :: remainder size k post) (extent pre)
        (portion size k) := by
  obtain ⟨shape,keeps,fields⟩ := occupy_spec tiled.toShape least whole large
  have coalesced : Coalesced (pre ++ ⟨portion size k,true⟩ :: remainder size k post) :=
    coalesced_remainder tiled.coalesced
  have behind : taken (extent pre+portion size k) (remainder size k post) = taken (extent pre+k) post :=
    taken_remainder (extent pre)
  have taken_new : taken 0 (pre ++ ⟨portion size k,true⟩ :: remainder size k post)
      = taken 0 pre ++ (extent pre,portion size k) :: taken (extent pre+k) post := by
    rw [taken_append,Nat.zero_add,taken_used,behind]
  have taken_old : taken 0 (pre ++ ⟨k,false⟩ :: post) = taken 0 pre ++ taken (extent pre+k) post := by
    rw [taken_append,Nat.zero_add,taken_free]
  have ptr : (occupy s size (extent pre)).heap_ptr = s.heap_ptr := by rw [fields]; rfl
  have last : (occupy s size (extent pre)).heap_end = s.heap_end := by rw [fields]; rfl
  have area : (occupy s size (extent pre)).mem_size_aligned = s.mem_size_aligned := by rw [fields]; rfl
  have lfree : (occupy s size (extent pre)).lfree = s.lfree := by rw [fields]; rfl
  have used : (occupy s size (extent pre)).used_mem = u32 (s.used_mem+portion size k) := by rw [fields]; rfl
  have peak : (occupy s size (extent pre)).max_mem
      = if s.max_mem < u32 (s.used_mem+portion size k) then u32 (s.used_mem+portion size k) else s.max_mem := by
    rw [fields]; rfl
  unfold claim
  dsimp only
  generalize occupy s size (extent pre) = t at *
  have topped : top t = top s := by rw [top,top,area]
  have most := volume_taken_le 0 (pre ++ ⟨portion size k,true⟩ :: remainder size k post)
  have old := tiled.used
  rw [shape.covers,taken_new,topped] at most
  rw [taken_old] at old
  simp only [volume_append,volume_cons] at old most
  have sum : u32 (s.used_mem+portion size k) = s.used_mem+portion size k := by
    have fits := tiled.fits
    exact u32_eq (by omega) (by omega)
  rw [sum] at used peak
  -- whatever `lfree` comes to, the rest of the invariant holds
  have result {l : Nat}
      (lowest : l = s.heap_ptr+firstFree 0 (pre ++ ⟨portion size k,true⟩ :: remainder size k post)) :
      Claimed s { t with lfree := l } (pre ++ ⟨k,false⟩ :: post)
        (pre ++ ⟨portion size k,true⟩ :: remainder size k post) (extent pre) (portion size k) := by
    refine ⟨⟨shape.of_fields rfl rfl rfl rfl,coalesced,by rw [ptr]; exact lowest,?_,?_⟩,keeps,ptr,last,area,_,_,taken_old,
      taken_new⟩
    · rw [taken_new,volume_append,volume_cons]
      dsimp only
      omega
    · have := tiled.peak
      change t.used_mem ≤ t.max_mem ∧ t.max_mem ≤ top t
      rw [topped,peak]
      split <;> omega
  have lowest := tiled.lowest
  rw [← lfree] at lowest
  rcases firstFree_cases (roomy_append.mp tiled.roomy).1 (by omega) 0 with first | ⟨q,lower,first⟩
  · rw [first,Nat.zero_add] at lowest
    change t.lfree = s.heap_ptr+extent pre at lowest
    have few := shape.few
    rw [List.length_append,topped] at few
    have found := nextFree_eq shape (Nat.lt_of_lt_of_le (Nat.lt_of_le_of_lt (Nat.le_add_left ..) few) enough)
    rw [ptr] at found
    rw [if_pos lowest.symm,lowest]
    exact ⟨_,congrArg (Option.map _) found,result (by rw [first,Nat.zero_add])⟩
  · rw [first] at lowest
    exact ⟨t,if_neg (by omega),result (l := t.lfree) (by rw [lowest,first])⟩

/-- The hole that `rt_malloc` takes: the first that is large enough, if it does not reach to the end of the heap
    just so. -/
def chosen (s : Heap) (bs : List Block) (size : Nat) : Option (Nat × Nat) :=
  (holes 0 bs).find? fun hole => hole.1 < s.mem_size_aligned-demand size ∧ demand size+12 ≤ hole.2

theorem rt_malloc_spec {bs : List Block} (tiled : Tiled s bs) (size : Nat) (enough : top s ≤ turns) :
    ((size = 0 ∨ s.mem_size_aligned < RT_ALIGN size ∨ chosen s bs size = none)
      ∧ rt_malloc turns s size = some (s,RT_NULL))
    ∨ ∃ q k s' bs', (0 < size ∧ RT_ALIGN size ≤ s.mem_size_aligned ∧ chosen s bs size = some (q,k))
      ∧ rt_malloc turns s size = some (s',s.heap_ptr+q+12) ∧ Claimed s s' bs bs' q (portion (demand size) k) := by
  by_cases empty : size = 0
  · exact .inl ⟨.inl empty,if_pos empty⟩
  by_cases huge : RT_ALIGN size > s.mem_size_aligned
  · refine .inl ⟨.inr (.inl huge),?_⟩
    rw [rt_malloc,if_neg empty]
    exact if_pos huge
  obtain ⟨least,whole,-⟩ := demand_facts size
  have small : demand size ≤ s.mem_size_aligned := by
    have := tiled.room
    rw [demand,MIN_SIZE_ALIGNED_eq]
    split <;> omega
  obtain ⟨front,behind,rfl,lowest,rest⟩ := exists_firstFree 0 bs
  rw [Nat.zero_add] at lowest rest
  have few := tiled.few
  rw [List.length_append] at few
  have search := firstFit_eq small tiled.toShape (show behind.length < turns by omega)
  have start : u32 (s.lfree-s.heap_ptr) = extent front := by
    have covers := tiled.covers
    have fits := tiled.fits
    rw [extent_append] at covers
    rw [tiled.lowest,lowest]
    exact u32_eq (by omega) (by omega)
  rw [← rest,← start] at search
  change _ = some ((chosen s (front ++ behind) size).map Prod.fst) at search
  have equal : rt_malloc turns s size = (firstFit s (demand size) turns (u32 (s.lfree-s.heap_ptr))).bind fun hole =>
      hole.elim (some (s,RT_NULL)) fun ptr =>
        (claim turns s (demand size) ptr).map fun t => (t,s.heap_ptr+ptr+SIZEOF_STRUCT_MEM) := by
    rw [rt_malloc,if_neg empty]
    refine (if_neg huge).trans ?_
    rw [← demand]
    dsimp only
    rcases firstFit s (demand size) turns (u32 (s.lfree-s.heap_ptr)) with _ | _ | ptr <;> rfl
  rw [equal,search]
  cases found : chosen s (front ++ behind) size with
  | none => exact .inl ⟨.inr (.inr rfl),rfl⟩
  | some hole =>
    obtain ⟨q,k⟩ := hole
    have free := List.mem_of_find?_eq_some found
    have fit := List.find?_some found
    obtain ⟨pre,post,same,rfl⟩ := holes_middle free
    rw [Nat.zero_add] at *
    simp only [decide_eq_true_eq] at fit
    rw [same] at tiled ⊢
    obtain ⟨s',taken,claimed⟩ := claim_spec tiled least whole fit.2 enough
    refine .inr ⟨extent pre,k,s',_,⟨Nat.pos_of_ne_zero empty,Nat.le_of_not_lt huge,rfl⟩,?_,claimed⟩
    simp only [Option.map_some,Option.bind_some,Option.elim_some,taken]
    rfl
end

/-! ### `rt_free` -/

/-- What `rt_free` leaves: one used block less, and the data of the others as before. -/
structure Released (s s' : Heap) (bs bs' : List Block) (q k : Nat) : Prop where
  tiled : Tiled s' bs'
  keeps : Keeps s s' bs
  ptr : s'.heap_ptr = s.heap_ptr
  last : s'.heap_end = s.heap_end
  size : s'.mem_size_aligned = s.mem_size_aligned
  released : ∃ before behind, taken 0 bs = before ++ (q,k) :: behind ∧ taken 0 bs' = before ++ behind

/-- A block that has become free is joined with the free ones around it. -/
theorem giveBack_spec {s : Heap} {pre post : List Block} {k : Nat} (shape : Shape s (pre ++ ⟨k,false⟩ :: post))
    (before : Coalesced pre) (behind : Coalesced post)
    (lowest : s.lfree = s.heap_ptr+firstFree 0 (pre ++ ⟨k,false⟩ :: post))
    (used : s.used_mem = volume (taken 0 (pre ++ ⟨k,false⟩ :: post))) (peak : s.used_mem ≤ s.max_mem ∧ s.max_mem ≤ top s) :
    ∃ bs, Tiled (plug_holes s (s.heap_ptr+extent pre)) bs
      ∧ Keeps s (plug_holes s (s.heap_ptr+extent pre)) (pre ++ ⟨k,false⟩ :: post)
      ∧ taken 0 bs = taken 0 (pre ++ ⟨k,false⟩ :: post)
      ∧ (plug_holes s (s.heap_ptr+extent pre)).heap_ptr = s.heap_ptr
      ∧ (plug_holes s (s.heap_ptr+extent pre)).heap_end = s.heap_end
      ∧ (plug_holes s (s.heap_ptr+extent pre)).mem_size_aligned = s.mem_size_aligned := by
  obtain ⟨bs,plugged,keeps,coarser,coalesced,fields⟩ := plug_holes_spec shape lowest before behind
  refine ⟨bs,⟨plugged,coalesced,?_,?_,?_⟩,keeps,coarser.taken_eq,by rw [fields],by rw [fields],by rw [fields]⟩
  · rw [fields,coarser.firstFree_eq]
    exact lowest
  · rw [fields,coarser.taken_eq]
    exact used
  · rw [fields]
    exact peak

theorem rt_free_spec {s : Heap} {bs : List Block} {q k : Nat} (tiled : Tiled s bs) (live : (q,k) ∈ taken 0 bs) :
    (∃ bs', Released s (rt_free s (s.heap_ptr+q+12)).1 bs bs' q k) ∧ (rt_free s (s.heap_ptr+q+12)).2 = false := by
  obtain ⟨pre,post,rfl,rfl⟩ := taken_middle live
  rw [Nat.zero_add] at *
  have used := tiled.used_eq
  have branded := tiled.branded _ (by simpa using start_mem 0 pre ⟨k,true⟩ post)
  have room := (tiled.sizes ⟨k,true⟩ (by simp)).2
  obtain ⟨-,inside⟩ := tiled.inside
  dsimp only at room inside
  rw [bne_iff_ne] at used
  have lower : s.heap_ptr+extent pre+12-SIZEOF_STRUCT_MEM = s.heap_ptr+extent pre := by simp [SIZEOF_STRUCT_MEM]
  rw [rt_free,if_neg (by simp [RT_NULL]),if_neg (by rw [tiled.at_end]; omega)]
  dsimp only
  rw [lower,branded]
  refine ⟨?_,by simp [used]⟩
  obtain ⟨marked,keeps⟩ := tiled.setUsed 0
  obtain ⟨freed,keeps'⟩ := marked.setMagic
  have keeps := keeps.trans keeps' (fun q => mem_starts_mark.mp) rfl rfl
  have next : (((s.setUsed (s.heap_ptr+extent pre) 0).setMagic (s.heap_ptr+extent pre)).header (s.heap_ptr+extent pre)).next
      = extent pre+k := freed.next_eq
  obtain ⟨before,behind,-,-⟩ := coalesced_middle.mp tiled.coalesced
  have old := tiled.used
  have taken_old : taken 0 (pre ++ ⟨k,true⟩ :: post) = taken 0 pre ++ (extent pre,k) :: taken (extent pre+k) post := by
    rw [taken_append,Nat.zero_add,taken_used]
  have taken_new : taken 0 (pre ++ ⟨k,false⟩ :: post) = taken 0 pre ++ taken (extent pre+k) post := by
    rw [taken_append,Nat.zero_add,taken_free]
  rw [taken_old,volume_append,volume_cons] at old
  have fits := tiled.fits
  have peak := tiled.peak
  have offset : u32 ((s.heap_ptr+extent pre : Nat)-s.heap_ptr) = extent pre := u32_eq (by omega) (by omega)
  have size : u32 ((extent pre+k : Nat)-(extent pre : Nat)) = k := u32_eq (by omega) (by omega)
  have less : u32 (s.used_mem-k) = s.used_mem-k := u32_eq (by dsimp only at old; omega) (by omega)
  have lowest : (if s.heap_ptr+extent pre < s.lfree then s.heap_ptr+extent pre else s.lfree)
      = s.heap_ptr+firstFree 0 (pre ++ ⟨k,false⟩ :: post) := by
    rw [firstFree_release (roomy_append.mp tiled.roomy).1 (by omega) 0 k k (by omega) post post,tiled.lowest]
    split <;> omega
  rw [next]
  change ∃ bs', Released s (plug_holes { (s.setUsed (s.heap_ptr+extent pre) 0).setMagic (s.heap_ptr+extent pre) with
      lfree := if s.heap_ptr+extent pre < s.lfree then s.heap_ptr+extent pre else s.lfree
      used_mem := u32 (s.used_mem-u32 ((extent pre+k : Nat)-u32 ((s.heap_ptr+extent pre : Nat)-s.heap_ptr))) }
    (s.heap_ptr+extent pre)) (pre ++ ⟨k,true⟩ :: post) bs' (extent pre) k
  rw [offset,size,less,lowest]
  have freed' : Shape { (s.setUsed (s.heap_ptr+extent pre) 0).setMagic (s.heap_ptr+extent pre) with
      lfree := s.heap_ptr+firstFree 0 (pre ++ ⟨k,false⟩ :: post), used_mem := s.used_mem-k } (pre ++ ⟨k,false⟩ :: post) :=
    freed.of_fields rfl rfl rfl rfl
  obtain ⟨bs',tiled',keeps'',same,ptr,last,area⟩ := giveBack_spec freed' before behind rfl
    (by rw [taken_new,volume_append]; dsimp only at old ⊢; omega) ⟨Nat.le_trans (Nat.sub_le ..) peak.1,peak.2⟩
  refine ⟨bs',tiled',?_,ptr,last,area,_,_,taken_old,same.trans taken_new⟩
  refine keeps.trans keeps'' ?_ rfl rfl
  simp only [starts_append,starts]
  exact fun _ start => start

/-! ### `rt_realloc` on a smaller size -/

/-- What `shrink` leaves: the block with a smaller size, and the data of all blocks as far as they go. -/
structure Shrunk (s s' : Heap) (bs bs' : List Block) (q k k' : Nat) : Prop where
  tiled : Tiled s' bs'
  keeps : ∃ fine, Keeps s s' fine ∧ Roomy 12 fine ∧ extent fine = top s ∧ taken 0 fine = taken 0 bs'
  ptr : s'.heap_ptr = s.heap_ptr
  last : s'.heap_end = s.heap_end
  size : s'.mem_size_aligned = s.mem_size_aligned
  shrunk : ∃ before behind, taken 0 bs = before ++ (q,k) :: behind ∧ taken 0 bs' = before ++ (q,k') :: behind

theorem shrink_spec {s : Heap} {bs : List Block} {q k newsize : Nat} (tiled : Tiled s bs) (live : (q,k) ∈ taken 0 bs)
    (some_size : 0 < newsize) (whole : 4 ∣ newsize) (smaller : newsize+24 < k-12) :
    ∃ bs', Shrunk s (shrink s q (k-12) newsize) bs bs' q k (newsize+12) := by
  obtain ⟨pre,post,rfl,rfl⟩ := taken_middle live
  obtain ⟨rest,rfl⟩ : ∃ rest, k = newsize+12+rest := ⟨k-(newsize+12),by omega⟩
  rw [Nat.zero_add] at *
  obtain ⟨-,inside⟩ := tiled.inside
  have fits := tiled.fits
  have peak := tiled.peak
  have old := tiled.used
  have taken_old : taken 0 (pre ++ ⟨newsize+12+rest,true⟩ :: post)
      = taken 0 pre ++ (extent pre,newsize+12+rest) :: taken (extent pre+(newsize+12)+rest) post := by
    rw [taken_append,Nat.zero_add,taken_used,Nat.add_assoc (extent pre)]
  have taken_new : taken 0 ((pre ++ [⟨newsize+12,true⟩]) ++ ⟨rest,false⟩ :: post)
      = taken 0 pre ++ (extent pre,newsize+12) :: taken (extent pre+(newsize+12)+rest) post := by
    rw [List.append_assoc,taken_append,Nat.zero_add]
    rfl
  rw [taken_old,volume_append,volume_cons] at old
  dsimp only at inside old
  have place : u32 (extent pre+SIZEOF_STRUCT_MEM+newsize) = extent pre+(newsize+12) :=
    u32_eq (by simp only [SIZEOF_STRUCT_MEM]; omega) (by omega)
  have less : u32 (s.used_mem-((newsize+12+rest-12 : Nat)-(newsize : Int))) = s.used_mem-rest :=
    u32_eq (by omega) (by omega)
  have start : Shape { s with used_mem := s.used_mem-rest } (pre ++ ⟨newsize+12+rest,true⟩ :: post) :=
    tiled.toShape.of_fields rfl rfl rfl rfl
  obtain ⟨divided,keeps⟩ := start.divide (newsize+12) (by omega) (by dsimp only; omega) (by omega)
  obtain ⟨m,fields⟩ : ∃ m, divide { s with used_mem := s.used_mem-rest } (extent pre) (extent pre+(newsize+12))
      = { s with mem := m, used_mem := s.used_mem-rest } := ⟨_,divide_fields _ (extent pre) (extent pre+(newsize+12))⟩
  simp only [fields,Nat.add_sub_cancel_left] at divided keeps
  rw [← List.singleton_append,← List.append_assoc] at divided keeps
  obtain ⟨before,behind,-,-⟩ := coalesced_middle.mp tiled.coalesced
  have front : Coalesced (pre ++ [⟨newsize+12,true⟩]) :=
    coalesced_middle.mpr ⟨before,.nil,fun _ _ => .inr rfl,fun _ none => by cases none⟩
  have lowest : (if s.heap_ptr+(extent pre+(newsize+12)) < s.lfree then s.heap_ptr+(extent pre+(newsize+12)) else s.lfree)
      = s.heap_ptr+firstFree 0 ((pre ++ [⟨newsize+12,true⟩]) ++ ⟨rest,false⟩ :: post) := by
    rw [firstFree_release (roomy_append.mp divided.roomy).1 (by omega) 0 rest rest (by omega) post post,
      ← firstFree_divided,tiled.lowest,extent_append,extent_cons,extent_nil]
    dsimp only
    split <;> omega
  have divided' : Shape { s with
      mem := m, lfree := s.heap_ptr+firstFree 0 ((pre ++ [⟨newsize+12,true⟩]) ++ ⟨rest,false⟩ :: post),
      used_mem := s.used_mem-rest } ((pre ++ [⟨newsize+12,true⟩]) ++ ⟨rest,false⟩ :: post) :=
    divided.of_fields rfl rfl rfl rfl
  obtain ⟨bs',tiled',keeps',same,ptr,last,area⟩ := giveBack_spec divided' front behind rfl
    (by rw [taken_new,volume_append,volume_cons]; dsimp only; omega) ⟨Nat.le_trans (Nat.sub_le ..) peak.1,peak.2⟩
  simp only [extent_append,extent_cons,extent_nil,Nat.add_zero] at tiled' keeps' ptr last area
  unfold shrink
  dsimp only
  rw [place,less,fields]
  dsimp only
  rw [lowest]
  exact ⟨bs',tiled',⟨_,keeps.trans keeps' (fun _ start => start) rfl rfl,divided'.roomy,divided'.covers,same.symm⟩,
    ptr,last,area,_,_,taken_old,same.trans taken_new⟩

end Ucm108e.HeapShape
