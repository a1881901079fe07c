import Mathlib
import Ucm108e.Words
import Ucm108e.Tiling

/-!
`mem.c`: the system heap. Each block of the heap starts with a `heap_mem` that says whether
the block is used and gives the offsets of the next block and of the one before; what a
caller gets is what follows it. The headers lie in the same bytes as the callers' data.
-/
namespace Ucm108e.SmallMem
open Ucm108e.Bytes Ucm108e.Words Ucm108e.Tiling
set_option linter.unusedSimpArgs false

def HEAP_MAGIC : UInt16 := 0x1ea0
def RT_ALIGN_SIZE : Nat := 4
def MIN_SIZE : Nat := 12
def SIZEOF_STRUCT_MEM : Nat := 12
def RT_NULL : Nat := 0

/-- `RT_ALIGN(size, RT_ALIGN_SIZE)`, which has come round to 0 above `0xfffffffc`. -/
def RT_ALIGN (size : Nat) : Nat := u32 (size+RT_ALIGN_SIZE-1) / RT_ALIGN_SIZE * RT_ALIGN_SIZE
def RT_ALIGN_DOWN (size : Nat) : Nat := size / RT_ALIGN_SIZE * RT_ALIGN_SIZE
def MIN_SIZE_ALIGNED : Nat := RT_ALIGN MIN_SIZE

structure HeapMem where
  magic : UInt16
  used : UInt16
  next : Nat
  prev : Nat
  deriving DecidableEq

def HeapMem.bytes (h : HeapMem) : List UInt8 := bytes16 h.magic ++ bytes16 h.used ++ bytes32 h.next ++ bytes32 h.prev

/-- The `struct heap_mem` at an address. -/
def heapMem (m : Mem) (a : Nat) : HeapMem := ⟨load16 m a,load16 m (a+2),load32 m (a+4),load32 m (a+8)⟩

/-- The memory and the variables of `mem.c`; `heap_ptr`, `heap_end` and `lfree` are addresses. -/
structure Heap where
  mem : Mem
  heap_ptr : Nat
  heap_end : Nat
  lfree : Nat
  mem_size_aligned : Nat
  used_mem : Nat
  max_mem : Nat

namespace Heap
variable (s : Heap)

/-- `*mem` of a `struct heap_mem *mem`. -/
def header (mem : Nat) : HeapMem := heapMem s.mem mem
def setHeader (mem : Nat) (h : HeapMem) : Heap := { s with mem := store s.mem mem h.bytes }

def setUsed (mem : Nat) (used : UInt16) : Heap := s.setHeader mem { s.header mem with used := used }
def setMagic (mem : Nat) : Heap := s.setHeader mem { s.header mem with magic := HEAP_MAGIC }
def setNext (mem next : Nat) : Heap := s.setHeader mem { s.header mem with next := next }
def setPrev (mem prev : Nat) : Heap := s.setHeader mem { s.header mem with prev := prev }
end Heap

/-- `mem->next = nmem->next` and the way back. -/
def combine (s : Heap) (mem nmem : Nat) : Heap :=
  let s := s.setNext mem (s.header nmem).next
  s.setPrev (s.heap_ptr+(s.header nmem).next) (u32 (mem-s.heap_ptr))

/-- "plug hole forward" -/
def plugForward (s : Heap) (mem : Nat) : Heap :=
  let nmem := s.heap_ptr+(s.header mem).next
  if mem ≠ nmem ∧ (s.header nmem).used = 0 ∧ nmem ≠ s.heap_end then
    combine { s with lfree := if s.lfree = nmem then mem else s.lfree } mem nmem
  else s

/-- "plug hole backward" -/
def plugBackward (s : Heap) (mem : Nat) : Heap :=
  let pmem := s.heap_ptr+(s.header mem).prev
  if pmem ≠ mem ∧ (s.header pmem).used = 0 then
    combine { s with lfree := if s.lfree = mem then pmem else s.lfree } pmem mem
  else s

def plug_holes (s : Heap) (mem : Nat) : Heap := plugBackward (plugForward s mem) mem

/-- The heap of one free block, and the block behind its end. -/
def oneBlock (mem : Mem) (heap_ptr mem_size_aligned : Nat) : Heap :=
  let next := mem_size_aligned+SIZEOF_STRUCT_MEM
  let s : Heap := ⟨mem,heap_ptr,heap_ptr+next,heap_ptr,mem_size_aligned,0,0⟩
  (s.setHeader heap_ptr ⟨HEAP_MAGIC,0,next,0⟩).setHeader (heap_ptr+next) ⟨HEAP_MAGIC,1,next,next⟩

/-- `rt_system_heap_init` on the memory of the machine; `none` is its complaint about the two
    addresses, after which there is no heap. -/
def rt_system_heap_init (mem : Mem) (begin_addr end_addr : Nat) : Option Heap :=
  let begin_align := RT_ALIGN begin_addr
  let end_align := RT_ALIGN_DOWN end_addr
  if end_align > 2*SIZEOF_STRUCT_MEM ∧ end_align-2*SIZEOF_STRUCT_MEM ≥ begin_align then
    some (oneBlock mem begin_align (end_align-begin_align-2*SIZEOF_STRUCT_MEM))
  else none

/-- The `for` of `rt_malloc` up to the block that it takes; `none` when it does not come to
    an end within so many turns. -/
def firstFit (s : Heap) (size : Nat) : (turns ptr : Nat) → Option (Option Nat)
  | 0, _ => none
  | turns+1, ptr =>
    if ptr < u32 (s.mem_size_aligned-size) then
      let mem := s.header (s.heap_ptr+ptr)
      if mem.used = 0 ∧ u32 (mem.next-(ptr+SIZEOF_STRUCT_MEM)) ≥ size then some (some ptr)
      else firstFit s size turns mem.next
    else some none

/-- `used_mem` grows, and `max_mem` with it. -/
def Heap.grow (s : Heap) (size : Nat) : Heap :=
  let used_mem := u32 (s.used_mem+size)
  { s with used_mem := used_mem, max_mem := if s.max_mem < used_mem then used_mem else s.max_mem }

/-- The block `mem2` is made of the end of `mem`, from the offset `ptr2` on. -/
def divide (s : Heap) (ptr ptr2 : Nat) : Heap :=
  let mem := s.heap_ptr+ptr
  let mem2 := s.heap_ptr+ptr2
  let s := s.setHeader mem2 ⟨HEAP_MAGIC,0,(s.header mem).next,ptr⟩
  let s := s.setNext mem ptr2
  if (s.header mem2).next ≠ s.mem_size_aligned+SIZEOF_STRUCT_MEM then
    s.setPrev (s.heap_ptr+(s.header mem2).next) ptr2
  else s

/-- What `rt_malloc` does with the block that it has found at `ptr`. -/
def occupy (s : Heap) (size ptr : Nat) : Heap :=
  let mem := s.heap_ptr+ptr
  let s :=
    if u32 ((s.header mem).next-(ptr+SIZEOF_STRUCT_MEM)) ≥ u32 (size+SIZEOF_STRUCT_MEM+MIN_SIZE_ALIGNED) then
      ((divide s ptr (u32 (ptr+SIZEOF_STRUCT_MEM+size))).setUsed mem 1).grow (u32 (size+SIZEOF_STRUCT_MEM))
    else (s.setUsed mem 1).grow (u32 ((s.header mem).next-ptr))
  s.setMagic mem

/-- "Find next free block after mem" -/
def nextFree (s : Heap) : (turns lfree : Nat) → Option Nat
  | 0, _ => none
  | turns+1, lfree =>
    if (s.header lfree).used ≠ 0 ∧ lfree ≠ s.heap_end then nextFree s turns (s.heap_ptr+(s.header lfree).next)
    else some lfree

/-- The block at `ptr` is taken, and `lfree` moves on when it was that block. -/
def claim (turns : Nat) (s : Heap) (size ptr : Nat) : Option Heap :=
  let mem := s.heap_ptr+ptr
  let s := occupy s size ptr
  if mem = s.lfree then (nextFree s turns s.lfree).map fun lfree => { s with lfree := lfree } else some s

/-- `rt_malloc`, with the address that it returns. Each of its loops is given so many turns. -/
def rt_malloc (turns : Nat) (s : Heap) (size : Nat) : Option (Heap × Nat) :=
  if size = 0 then some (s,RT_NULL)
  else
    let size := RT_ALIGN size
    if size > s.mem_size_aligned then some (s,RT_NULL)
    else
      let size := if size < MIN_SIZE_ALIGNED then MIN_SIZE_ALIGNED else size
      match firstFit s size turns (u32 (s.lfree-s.heap_ptr)) with
      | none => none
      | some none => some (s,RT_NULL)
      | some (some ptr) => (claim turns s size ptr).map fun t => (t,s.heap_ptr+ptr+SIZEOF_STRUCT_MEM)

/-- `rt_free`, and whether it has complained about "a bad data block". -/
def rt_free (s : Heap) (rmem : Nat) : Heap × Bool :=
  if rmem = RT_NULL then (s,false)
  else if rmem < s.heap_ptr ∨ rmem ≥ s.heap_end then (s,false)
  else
    let mem := rmem-SIZEOF_STRUCT_MEM
    let bad := (s.header mem).used = 0 ∨ (s.header mem).magic ≠ HEAP_MAGIC
    let s := (s.setUsed mem 0).setMagic mem
    let s := { s with
      lfree := if mem < s.lfree then mem else s.lfree
      used_mem := u32 (s.used_mem-u32 ((s.header mem).next-u32 (mem-s.heap_ptr))) }
    (plug_holes s mem,bad)

/-- `rt_realloc` on a block of this heap that is made smaller: the end of the block is given
    back. -/
def shrink (s : Heap) (ptr size newsize : Nat) : Heap :=
  let ptr2 := u32 (ptr+SIZEOF_STRUCT_MEM+newsize)
  let mem2 := s.heap_ptr+ptr2
  let s := { s with used_mem := u32 (s.used_mem-(size-newsize)) }
  let s := divide s ptr ptr2
  plug_holes { s with lfree := if mem2 < s.lfree then mem2 else s.lfree } mem2

def rt_realloc (turns : Nat) (s : Heap) (rmem newsize : Nat) : Option (Heap × Nat) :=
  let newsize := RT_ALIGN newsize
  if newsize > s.mem_size_aligned then some (s,RT_NULL)
  else if newsize = 0 then some ((rt_free s rmem).1,RT_NULL)
  else if rmem = RT_NULL then rt_malloc turns s newsize
  else if rmem < s.heap_ptr ∨ rmem ≥ s.heap_end then some (s,rmem)
  else
    let mem := rmem-SIZEOF_STRUCT_MEM
    let ptr := u32 (mem-s.heap_ptr)
    let size := u32 ((s.header mem).next-ptr-SIZEOF_STRUCT_MEM)
    if size = newsize then some (s,rmem)
    else if u32 (newsize+SIZEOF_STRUCT_MEM+MIN_SIZE) < size then some (shrink s ptr size newsize,rmem)
    else do
      let (s,nmem) ← rt_malloc turns s newsize
      if nmem ≠ RT_NULL then
        let s := { s with mem := store s.mem nmem (window s.mem rmem (if size < newsize then size else newsize)) }
        some ((rt_free s rmem).1,nmem)
      else some (s,nmem)

def rt_calloc (turns : Nat) (s : Heap) (count size : Nat) : Option (Heap × Nat) := do
  let (s,p) ← rt_malloc turns s (u32 (count*size))
  some (if p ≠ RT_NULL then { s with mem := store s.mem p (List.replicate (u32 (count*size)) 0) } else s,p)

/-! ### Headers -/

@[simp] theorem HeapMem.bytes_length (h : HeapMem) : h.bytes.length = 12 := by simp [HeapMem.bytes]

theorem window_store_part (m : Mem) (a : Nat) (front bs back : List UInt8) {n : Nat} (size : n = bs.length) :
    window (store m a (front ++ bs ++ back)) (a+front.length) n = bs := by
  subst size
  refine (window_eq_iff _ _ _).mpr fun i inside => ?_
  rw [Nat.add_assoc,store_at m a (by simp; omega)]
  simp [List.getElem_append,inside]

theorem heapMem_store (m : Mem) (a : Nat) {h : HeapMem} (next_fits : h.next < 2^32) (prev_fits : h.prev < 2^32) :
    heapMem (store m a h.bytes) a = h := by
  have magic := window_store_part m a [] (bytes16 h.magic) (bytes16 h.used ++ bytes32 h.next ++ bytes32 h.prev) rfl
  have used := window_store_part m a (bytes16 h.magic) (bytes16 h.used) (bytes32 h.next ++ bytes32 h.prev) rfl
  have next := window_store_part m a (bytes16 h.magic ++ bytes16 h.used) (bytes32 h.next) (bytes32 h.prev) rfl
  have prev := window_store_part m a (bytes16 h.magic ++ bytes16 h.used ++ bytes32 h.next) (bytes32 h.prev) [] rfl
  simp only [List.nil_append,List.append_nil,← List.append_assoc,List.length_append,List.length_nil,bytes16_length,
    bytes32_length,Nat.add_zero,Nat.reduceAdd] at magic used next prev
  rw [heapMem,HeapMem.bytes,load16_of_window magic,load16_of_window used,load32_of_window next next_fits,
    load32_of_window prev prev_fits]

theorem heapMem_congr {m m' : Mem} {a : Nat} (same : ∀ i < 12, m (a+i) = m' (a+i)) : heapMem m a = heapMem m' a := by
  have part : ∀ {k n : Nat}, k+n ≤ 12 → window m (a+k) n = window m' (a+k) n := fun {k n} inside =>
    window_congr fun i small => by rw [Nat.add_assoc,same (k+i) (by omega)]
  rw [heapMem,heapMem,load16_congr (a := a) (part (k := 0) (by omega)),load16_congr (part (by omega)),
    load32_congr (part (by omega)),load32_congr (part (by omega))]

namespace Heap
variable {s : Heap} {a b : Nat} {h : HeapMem}

@[simp] theorem setHeader_heap_ptr : (s.setHeader a h).heap_ptr = s.heap_ptr := rfl
@[simp] theorem setHeader_heap_end : (s.setHeader a h).heap_end = s.heap_end := rfl
@[simp] theorem setHeader_mem_size_aligned : (s.setHeader a h).mem_size_aligned = s.mem_size_aligned := rfl

theorem header_setHeader (next_fits : h.next < 2^32) (prev_fits : h.prev < 2^32) : (s.setHeader a h).header a = h :=
  heapMem_store _ _ next_fits prev_fits

theorem setHeader_mem {i : Nat} (outside : i < a ∨ a+12 ≤ i) : (s.setHeader a h).mem i = s.mem i := by
  rcases outside with below | behind
  · exact store_below _ below
  · exact store_behind (by simpa using behind)

theorem header_setHeader_apart (apart : a+12 ≤ b ∨ b+12 ≤ a) : (s.setHeader a h).header b = s.header b :=
  heapMem_congr fun i small => setHeader_mem (by omega)

theorem header_fits (s : Heap) (a : Nat) : (s.header a).next < 2^32 ∧ (s.header a).prev < 2^32 :=
  ⟨BitVec.isLt _,BitVec.isLt _⟩

/-- One field of a header is set, and the others stay. -/
theorem header_setNext {next : Nat} (fits : next < 2^32) :
    (s.setNext a next).header a = { s.header a with next := next } := header_setHeader fits (s.header_fits a).2

theorem header_setPrev {prev : Nat} (fits : prev < 2^32) :
    (s.setPrev a prev).header a = { s.header a with prev := prev } := header_setHeader (s.header_fits a).1 fits
end Heap

end Ucm108e.SmallMem
