import Mathlib
import Ucm108e.Access
import Ucm108e.WgPhase

/-!
The report that `wg_plc_node_info_upload` of `wg_phase.c` builds, with the stores it
makes on the way. Its block has room for twelve records of sixteen bytes behind the
count, while the loop goes on to twenty nodes.
-/
namespace Ucm108e.UploadReport
open Ucm108e.Bytes Ucm108e.Access Ucm108e.WgPhase
set_option linter.unusedSimpArgs false

/-- The loop of `wg_plc_node_info_upload`, with its stores to `nodeinfo`. -/
def uploadLoop : List SWgPhase → (pos node_cnt : Nat) → Mem → Traced Unit (Mem × Nat × Nat)
  | [], pos, node_cnt, nodeinfo => pure (nodeinfo,pos,node_cnt)
  | p :: rest, pos, node_cnt, nodeinfo =>
    if p.refresh = 1 then do
      stored () pos 6
      let nodeinfo := store nodeinfo pos (List.ofFn p.node_id)
      let pos := u8 (pos+6)
      stored () pos 1
      let nodeinfo := store nodeinfo pos [p.phase]
      let pos := u8 (pos+1)
      stored () pos 1
      let nodeinfo := store nodeinfo pos [p.loop]
      let pos := u8 (u8 (pos+1)+8)
      let node_cnt := u8 (node_cnt+1)
      if node_cnt ≥ 20 then pure (nodeinfo,pos,node_cnt) else uploadLoop rest pos node_cnt nodeinfo
    else uploadLoop rest pos node_cnt nodeinfo

/-- `rt_memset(nodeinfo, 0, 200)`. -/
def cleared (block : Mem) : Mem := fun i => if i < 200 then 0 else block i

/-- `wg_plc_node_info_upload`, for the block that `rt_malloc` returns. -/
def wg_plc_node_info_upload (heap : Option Mem) (nodes : List SWgPhase) : Traced Unit (Option (Mem × Nat)) :=
  match heap with
  | none => pure none
  | some block => do
    stored () 0 200
    let (nodeinfo,pos,node_cnt) ← uploadLoop nodes 1 0 (cleared block)
    if node_cnt > 0 then do
      stored () 0 1
      pure (some (store nodeinfo 0 [UInt8.ofNat node_cnt],pos))
    else pure none

theorem uploadLoop_val (nodes : List SWgPhase) (pos node_cnt : Nat) (nodeinfo : Mem) :
    (uploadLoop nodes pos node_cnt nodeinfo).val = WgPhase.uploadLoop nodes pos node_cnt nodeinfo := by
  induction nodes generalizing pos node_cnt nodeinfo with
  | nil => rfl
  | cons p rest ih =>
    rw [uploadLoop,WgPhase.uploadLoop]
    simp only [val_ite,val_bind,val_pure,ih]

/-- What is handed over is what the function without the stores hands over. -/
theorem upload_val (heap : Option Mem) (nodes : Nodes) :
    (wg_plc_node_info_upload heap nodes.entries).val = WgPhase.wg_plc_node_info_upload heap nodes := by
  cases heap with
  | none => rfl
  | some block =>
    simp only [wg_plc_node_info_upload,WgPhase.wg_plc_node_info_upload,val_bind,uploadLoop_val,val_ite,val_pure]
    rfl

/-! ### The report -/

def marked (nodes : List SWgPhase) : List SWgPhase := nodes.filter fun p => p.refresh = 1

/-- The sixteen bytes for a node. -/
def record (p : SWgPhase) : List UInt8 := List.ofFn p.node_id ++ [p.phase,p.loop] ++ List.replicate 8 0

/-- The number of nodes, and the records of the first twenty that are marked. -/
def report (nodes : List SWgPhase) : List UInt8 :=
  UInt8.ofNat (min 20 (marked nodes).length) :: ((marked nodes).take 20).flatMap record

structure WellFormed (nodes : List SWgPhase) (upload : Traced Unit (Option (Mem × Nat))) : Prop where
  contents : ∀ nodeinfo len, upload.val = some (nodeinfo,len) →
    len = 1+16*min 20 (marked nodes).length ∧ window nodeinfo 0 len = report nodes
  inside : StoresWithin upload fun _ => 200

@[simp] theorem marked_nil : marked [] = [] := rfl

theorem marked_cons (p : SWgPhase) (rest : List SWgPhase) :
    marked (p :: rest) = if p.refresh = 1 then p :: marked rest else marked rest := by
  simp [marked,List.filter_cons]

/-- After `k` records: the bytes of them, and cleared ones behind. -/
structure Filling (k : Nat) (nodeinfo : Mem) (bytes : List UInt8) : Prop where
  done : window nodeinfo 1 (16*k) = bytes
  clear : ∀ i, 1+16*k ≤ i → i < 200 → nodeinfo i = 0

theorem filling_store {k : Nat} (room : k < 12) {nodeinfo : Mem} {bytes : List UInt8} (filling : Filling k nodeinfo bytes)
    (p : SWgPhase) : Filling (k+1) (store nodeinfo (1+16*k) (recordBytes p)) (bytes ++ record p) := by
  have size : (recordBytes p).length = 8 := by simp [recordBytes]
  have behind : ∀ i, 1+16*k+8 ≤ i → i < 200 → store nodeinfo (1+16*k) (recordBytes p) i = 0 := by
    intro i after inside
    rw [store_behind (by omega)]
    exact filling.clear i (by omega) inside
  constructor
  · have grown := window_store_grow nodeinfo 1 (16*k) (recordBytes p)
    have zeros : window (store nodeinfo (1+16*k) (recordBytes p)) (1+(16*k+8)) 8 = List.replicate 8 0 := by
      refine (window_eq_iff _ _ (List.replicate 8 0)).mpr fun i inside => ?_
      have small : i < 8 := inside
      rw [behind _ (by omega) (by omega),List.getElem_replicate]
    rw [size,filling.done] at grown
    rw [show 16*(k+1) = 16*k+8+8 by omega,window_add,grown,zeros,List.append_assoc]
    rfl
  · intro i after inside
    exact behind i (by omega) inside

section
variable {p : SWgPhase} {rest : List SWgPhase} {k : Nat} {nodeinfo : Mem}

/-- A marked node among the first thirteen takes a record, and the loop goes on. -/
theorem uploadLoop_marked (mark : p.refresh = 1) (few : k ≤ 12) :
    (uploadLoop (p :: rest) (1+16*k) k nodeinfo).val
        = (uploadLoop rest (1+16*(k+1)) (k+1) (store nodeinfo (1+16*k) (recordBytes p))).val
      ∧ ∀ a, a ∈ (uploadLoop (p :: rest) (1+16*k) k nodeinfo).stores
        ↔ (∃ i < 8, ((),1+16*k+i) = a)
          ∨ a ∈ (uploadLoop rest (1+16*(k+1)) (k+1) (store nodeinfo (1+16*k) (recordBytes p))).stores := by
  have first : u8 (((1+16*k : Nat) : Int)+6) = 1+16*k+6 := u8_eq (by omega) (by omega)
  have second : u8 (((1+16*k+6 : Nat) : Int)+1) = 1+16*k+7 := u8_eq (by omega) (by omega)
  have place : u8 (u8 (((1+16*k+7 : Nat) : Int)+1)+8) = 1+16*(k+1) := by
    unfold u8
    omega
  have count : u8 ((k : Int)+1) = k+1 := u8_eq (by omega) (by omega)
  have bytes := upload_store nodeinfo p (1+16*k) (by omega)
  rw [first,second] at bytes
  rw [uploadLoop,if_pos mark]
  simp only [first,second,place,count,bytes,if_neg (show ¬k+1 ≥ 20 by omega)]
  refine ⟨rfl,fun a => ?_⟩
  simp only [stores_bind,List.mem_append,mem_stored]
  constructor
  · rintro (⟨i,small,rfl⟩ | ⟨i,small,rfl⟩ | ⟨i,small,rfl⟩ | later)
    · exact .inl ⟨i,by omega,rfl⟩
    · exact .inl ⟨6,by omega,by congr 1; omega⟩
    · exact .inl ⟨7,by omega,by congr 1; omega⟩
    · exact .inr later
  · rintro (⟨i,small,rfl⟩ | later)
    · rcases Nat.lt_or_ge i 6 with id | behind
      · exact .inl ⟨i,id,rfl⟩
      · rcases Nat.lt_or_ge i 7 with phase | loop
        · exact .inr (.inl ⟨0,by omega,by congr 1; omega⟩)
        · exact .inr (.inr (.inl ⟨0,by omega,by congr 1; omega⟩))
    · exact .inr (.inr (.inr later))

theorem uploadLoop_other (other : p.refresh ≠ 1) (pos : Nat) :
    uploadLoop (p :: rest) pos k nodeinfo = uploadLoop rest pos k nodeinfo := by
  rw [uploadLoop,if_neg other]
end

/-- Up to twelve records the loop fills the block as it should. -/
theorem uploadLoop_few (nodes : List SWgPhase) :
    ∀ {k : Nat} {nodeinfo : Mem} {bytes : List UInt8}, Filling k nodeinfo bytes → k+(marked nodes).length ≤ 12 →
    ∃ nodeinfo', (uploadLoop nodes (1+16*k) k nodeinfo).val
        = (nodeinfo',1+16*(k+(marked nodes).length),k+(marked nodes).length)
      ∧ Filling (k+(marked nodes).length) nodeinfo' (bytes ++ (marked nodes).flatMap record)
      ∧ ∀ a ∈ (uploadLoop nodes (1+16*k) k nodeinfo).stores, a.2 < 200 := by
  induction nodes with
  | nil =>
    intro k nodeinfo bytes filling few
    refine ⟨nodeinfo,rfl,?_,fun a none => absurd none List.not_mem_nil⟩
    rw [marked_nil,List.flatMap_nil,List.append_nil]
    exact filling
  | cons p rest ih =>
    intro k nodeinfo bytes filling few
    rw [marked_cons] at few ⊢
    by_cases mark : p.refresh = 1
    · rw [if_pos mark,List.length_cons] at few ⊢
      obtain ⟨nodeinfo',value,filled,inside⟩ := ih (filling_store (by omega) filling p) (by omega)
      obtain ⟨same,stores⟩ := @uploadLoop_marked p rest k nodeinfo mark (by omega)
      have count : k+1+(marked rest).length = k+((marked rest).length+1) := by omega
      rw [count] at value filled
      refine ⟨nodeinfo',same.trans value,?_,fun a member => ?_⟩
      · rw [List.flatMap_cons,← List.append_assoc]
        exact filled
      · rcases (stores a).mp member with ⟨i,small,rfl⟩ | later
        · simp only
          omega
        · exact inside a later
    · rw [if_neg mark] at few ⊢
      rw [uploadLoop_other mark]
      exact ih filling few

/-- The thirteenth record ends behind the block. -/
theorem uploadLoop_many (nodes : List SWgPhase) :
    ∀ {k : Nat} (nodeinfo : Mem), k ≤ 12 → 12 < k+(marked nodes).length →
    ((),200) ∈ (uploadLoop nodes (1+16*k) k nodeinfo).stores := by
  induction nodes with
  | nil =>
    intro k nodeinfo few many
    rw [marked_nil,List.length_nil] at many
    omega
  | cons p rest ih =>
    intro k nodeinfo few many
    rw [marked_cons] at many
    by_cases mark : p.refresh = 1
    · rw [if_pos mark,List.length_cons] at many
      obtain ⟨-,stores⟩ := @uploadLoop_marked p rest k nodeinfo mark few
      rcases Nat.lt_or_eq_of_le few with before | rfl
      · exact (stores _).mpr (.inr (ih _ (by omega) (by omega)))
      · exact (stores _).mpr (.inl ⟨7,by decide,rfl⟩)
    · rw [if_neg mark] at many
      rw [uploadLoop_other mark]
      exact ih nodeinfo few many

theorem uploadLoop_count (nodes : List SWgPhase) :
    ∀ {k : Nat} (pos : Nat) (nodeinfo : Mem), k < 20 →
    (uploadLoop nodes pos k nodeinfo).val.2.2 = min 20 (k+(marked nodes).length) := by
  induction nodes with
  | nil =>
    intro k pos nodeinfo few
    rw [marked_nil,List.length_nil,Nat.add_zero,Nat.min_eq_right (by omega)]
    rfl
  | cons p rest ih =>
    intro k pos nodeinfo few
    have count : u8 ((k : Int)+1) = k+1 := u8_eq (by omega) (by omega)
    rw [marked_cons]
    by_cases mark : p.refresh = 1
    · rw [if_pos mark,uploadLoop,if_pos mark,List.length_cons]
      simp only [val_bind,val_ite,val_pure,count]
      split
      · simp only
        omega
      · rw [ih _ _ (by omega)]
        omega
    · rw [if_neg mark,uploadLoop_other mark]
      exact ih pos nodeinfo few

theorem filling_cleared (block : Mem) : Filling 0 (cleared block) [] :=
  ⟨rfl,fun _ _ inside => if_pos inside⟩

theorem upload_some (block : Mem) (nodes : List SWgPhase) :
    (wg_plc_node_info_upload (some block) nodes).val
      = if marked nodes = [] then none else some (store (uploadLoop nodes 1 0 (cleared block)).val.1 0
          [UInt8.ofNat (min 20 (marked nodes).length)],(uploadLoop nodes 1 0 (cleared block)).val.2.1) := by
  have count := uploadLoop_count nodes 1 (cleared block) (show 0 < 20 by decide)
  rw [Nat.zero_add] at count
  simp only [wg_plc_node_info_upload,val_bind,val_ite,val_pure,count]
  by_cases none : marked nodes = []
  · rw [if_pos none,if_neg (by simp [none])]
  · have some_marked := List.length_pos_iff.mpr none
    rw [if_neg none,if_pos (by omega)]

theorem upload_stores (block : Mem) (nodes : List SWgPhase) (a : Unit × Nat) :
    a ∈ (wg_plc_node_info_upload (some block) nodes).stores
      ↔ a.2 < 200 ∨ a ∈ (uploadLoop nodes 1 0 (cleared block)).stores := by
  simp only [wg_plc_node_info_upload,stores_bind,stores_ite,stores_pure,List.mem_append,mem_stored]
  constructor
  · rintro (⟨i,small,rfl⟩ | member | last)
    · exact .inl (by simp only; omega)
    · exact .inr member
    · split at last
      · obtain ⟨i,small,rfl⟩ := mem_stored.mp ((List.mem_append.mp last).resolve_right List.not_mem_nil)
        exact .inl (by simp only; omega)
      · exact absurd last List.not_mem_nil
  · rintro (small | member)
    · exact .inl ⟨a.2,small,by rw [Nat.zero_add]⟩
    · exact .inr (.inl member)

theorem wellFormed_few {block : Mem} {nodes : List SWgPhase} (few : (marked nodes).length ≤ 12) :
    WellFormed nodes (wg_plc_node_info_upload (some block) nodes) := by
  obtain ⟨nodeinfo,value,filled,inside⟩ := uploadLoop_few nodes (filling_cleared block) (by omega)
  have count : min 20 (marked nodes).length = (marked nodes).length := by omega
  rw [Nat.zero_add,List.nil_append] at filled
  constructor
  · intro nodeinfo' len handed
    rw [upload_some,show uploadLoop nodes 1 0 (cleared block) = uploadLoop nodes (1+16*0) 0 (cleared block) from rfl,
      value] at handed
    split at handed
    · cases handed
    · cases handed
      rw [Nat.zero_add,count,report,List.take_of_length_le (by omega),count,← filled.done]
      refine ⟨rfl,?_⟩
      have first := window_store nodeinfo 0 [UInt8.ofNat (marked nodes).length]
      have behind : window (store nodeinfo 0 [UInt8.ofNat (marked nodes).length]) (0+1) (16*(marked nodes).length)
          = window nodeinfo 1 (16*(marked nodes).length) :=
        window_congr fun i small => store_behind (by simp)
      simp only [List.length_singleton] at first
      simp only [window_add,first,behind,List.singleton_append]
  · intro a member
    rcases (upload_stores block nodes a).mp member with small | loop
    · exact small
    · exact inside a loop

/-- With a block and a marked node a report is handed over. It is well formed, and only
    the block is written, exactly when at most twelve nodes are marked, or there is no
    block. -/
theorem upload_wellFormed_iff (heap : Option Mem) (nodes : List SWgPhase) :
    ((wg_plc_node_info_upload heap nodes).val.isSome ↔ heap.isSome ∧ marked nodes ≠ [])
      ∧ (WellFormed nodes (wg_plc_node_info_upload heap nodes) ↔ heap = none ∨ (marked nodes).length ≤ 12) := by
  cases heap with
  | none =>
    refine ⟨by simp [wg_plc_node_info_upload],iff_of_true ⟨?_,?_⟩ (.inl rfl)⟩
    · rintro nodeinfo len ⟨⟩
    · exact fun a none => absurd none List.not_mem_nil
  | some block =>
    constructor
    · rw [upload_some]
      split
      next none => simp [none]
      next some_marked => simp [some_marked]
    · refine ⟨fun wellFormed => .inr ?_,fun cases => ?_⟩
      · by_contra many
        have outside := uploadLoop_many nodes (cleared block) (show 0 ≤ 12 by decide) (by omega)
        exact absurd (wellFormed.inside _ ((upload_stores block nodes _).mpr (.inr outside))) (by decide)
      · rcases cases with none | few
        · cases none
        · exact wellFormed_few few

/-- With thirteen marked nodes, each with an id of its own, the last byte of the thirteenth record is
    stored behind the block. -/
theorem thirteenth_outside :
    ((),200) ∈ (wg_plc_node_info_upload (some fun _ => 0)
      ((List.range 13).map fun i => ⟨![UInt8.ofNat (i+1),0,0,0,0,0],1,0,1⟩)).stores := by
  rw [upload_stores]
  right
  exact uploadLoop_many (k := 0) _ _ (by decide) (by decide)

end Ucm108e.UploadReport
