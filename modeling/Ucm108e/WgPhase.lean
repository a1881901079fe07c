import Ucm108e.Bytes
import Ucm108e.Keyed

/-!
The node list of `wg_phase.c`: nodes reported by the carrier module are entered
or updated, nodes whose phase is news to the platform are uploaded, and the
platform's acknowledgements mark nodes as reported. The list is a `Keyed.Table`
by node id, behind the header node that `wg_node_init` allocates.
-/
namespace Ucm108e.WgPhase
open Ucm108e.Bytes Ucm108e.Keyed
set_option linter.unusedSimpArgs false

abbrev NodeId := Fin 6 → UInt8

/-- `s_wg_phase`, without the link. -/
structure SWgPhase where
  node_id : NodeId
  phase : UInt8
  loop : UInt8
  refresh : UInt8
  deriving DecidableEq

structure SWgNodeInfo where
  total : UInt16
  index : UInt16
  ack_num : UInt16
  module_test_flag : UInt8
  deriving DecidableEq, Repr

abbrev Nodes := Table SWgPhase.node_id

structure WgState where
  nodes : Nodes
  wg_node_info : SWgNodeInfo

/-- The variables after `wg_node_init` has found memory for the header. -/
def wgInit : WgState := ⟨Table.empty,⟨0,0,0,0⟩⟩

def FN (n : Nat) : UInt16 := UInt16.ofNat (((n-1)/8) <<< 8 ||| 1 <<< ((n-1) % 8))

/-- The six bytes from `pos` on, as a node id. -/
def nodeIdAt (m : Mem) (pos : Nat) : NodeId := fun i => m (pos+i)

/-- `wg_node_create`; `heap` says whether `rt_malloc` finds memory. -/
def wg_node_create (heap : Bool) (id : NodeId) (ph : UInt8) : Option SWgPhase :=
  if heap = false then none
  else if id = fun _ => 0 then none
  else some (if 0 ≠ ph then ⟨id,ph,0,1⟩ else ⟨id,0,0,0⟩)

theorem create_id {heap : Bool} {id : NodeId} {ph : UInt8} {p : SWgPhase} (created : wg_node_create heap id ph = some p) :
    p.node_id = id := by
  unfold wg_node_create at created
  split_ifs at created <;> cases created <;> rfl

/-- `p->phase = phase; p->refresh = 1;` -/
def setPhase (phase : UInt8) (p : SWgPhase) : SWgPhase := { p with phase := phase, refresh := 1 }

/-- `p->refresh = 0;` -/
def clearRefresh (p : SWgPhase) : SWgPhase := { p with refresh := 0 }

theorem setPhase_id (phase : UInt8) (p : SWgPhase) : (setPhase phase p).node_id = p.node_id := rfl

theorem clearRefresh_id (p : SWgPhase) : (clearRefresh p).node_id = p.node_id := rfl

/-- What `wg_plc_recv_node_info` does for one reported node. -/
def recvNode (heap : Bool) (nodes : Nodes) (nodeid : NodeId) (phase : UInt8) : Nodes :=
  match absent : nodes.find nodeid with
  | some p2 => if p2.phase ≠ phase then nodes.modify nodeid (setPhase phase) (setPhase_id phase) else nodes
  | none =>
    match created : wg_node_create heap nodeid phase with
    | some p1 => nodes.insert p1 (by rw [create_id created]; exact absent)
    | none => nodes

/-- The loop over the reported nodes, `left` of them to go; `pos` is 8 bits wide. -/
def recvLoop (heap : Nat → Bool) (data : Mem) : (left i pos : Nat) → Nodes → Nodes
  | 0, _, _, nodes => nodes
  | left+1, i, pos, nodes =>
    let nodeid := nodeIdAt data pos
    let pos := u8 (u8 (pos+6)+1)
    let phase := data pos &&& 0x07
    recvLoop heap data left (i+1) (u8 (pos+1)) (recvNode (heap i) nodes nodeid phase)

/-- `wg_plc_recv_node_info`; `heap` says for each reported node whether memory
    for it is found. -/
def wg_plc_recv_node_info (heap : Nat → Bool) (fn : UInt16) (data : Mem) (s : WgState) : WgState :=
  if fn = FN 9 then
    let total := le16 (data 0) (data 1)
    { s with wg_node_info := { s.wg_node_info with
        total := total
        module_test_flag := if total > 0 then 1 else s.wg_node_info.module_test_flag } }
  else
    let ack_num := (data 2).toUInt16
    if ack_num > 0 then
      { nodes := recvLoop heap data ack_num.toNat 0 3 s.nodes
        wg_node_info := { s.wg_node_info with ack_num := ack_num, index := s.wg_node_info.index+ack_num } }
    else { s with wg_node_info := { s.wg_node_info with ack_num := ack_num } }

def ackLoop (nodeinfo : Mem) : (left pos : Nat) → Nodes → Nodes
  | 0, _, nodes => nodes
  | left+1, pos, nodes =>
    ackLoop nodeinfo left (u16 (pos+6)) (nodes.modify (nodeIdAt nodeinfo pos) clearRefresh clearRefresh_id)

def recv_node_belong_info_ack (nodeinfo : Mem) (nodes : Nodes) : Nodes :=
  ackLoop nodeinfo (nodeinfo 0).toNat 1 nodes

/-- The loop of `wg_plc_node_info_upload`: what `nodeinfo` holds then, `pos` and
    `node_cnt`, both 8 bits wide. -/
def uploadLoop : List SWgPhase → (pos node_cnt : Nat) → Mem → Mem × Nat × Nat
  | [], pos, node_cnt, nodeinfo => (nodeinfo,pos,node_cnt)
  | p :: rest, pos, node_cnt, nodeinfo =>
    if p.refresh = 1 then
      let nodeinfo := store nodeinfo pos (List.ofFn p.node_id)
      let pos := u8 (pos+6)
      let nodeinfo := store nodeinfo pos [p.phase]
      let pos := u8 (pos+1)
      let nodeinfo := store nodeinfo pos [p.loop]
      let pos := u8 (u8 (pos+1)+8)
      let node_cnt := u8 (node_cnt+1)
      if node_cnt ≥ 20 then (nodeinfo,pos,node_cnt) else uploadLoop rest pos node_cnt nodeinfo
    else uploadLoop rest pos node_cnt nodeinfo

/-- `wg_plc_node_info_upload`, for the block that `rt_malloc` returns: what
    `report_node_belong_info` is called with, if it is called. -/
def wg_plc_node_info_upload (heap : Option Mem) (nodes : Nodes) : Option (Mem × Nat) :=
  match heap with
  | none => none
  | some block =>
    let nodeinfo : Mem := fun i => if i < 200 then 0 else block i
    let (nodeinfo,pos,node_cnt) := uploadLoop nodes.entries 1 0 nodeinfo
    if node_cnt > 0 then some (store nodeinfo 0 [UInt8.ofNat node_cnt],pos) else none

/-! ### Acknowledgements -/

def acked (nodeinfo : Mem) : List NodeId := (List.range (nodeinfo 0).toNat).map fun j => nodeIdAt nodeinfo (1+6*j)

theorem ackLoop_entries (nodeinfo : Mem) {left j : Nat} (few : j+left < 256) (nodes : Nodes) :
    (ackLoop nodeinfo left (1+6*j) nodes).entries = nodes.entries.map fun x =>
      if x.node_id ∈ (List.range left).map fun i => nodeIdAt nodeinfo (1+6*(j+i)) then clearRefresh x else x := by
  induction left generalizing j nodes with
  | zero => simp [ackLoop]
  | succ left ih =>
    have next : u16 ((1+6*j : Nat)+6) = 1+6*(j+1) := u16_eq (by omega) (by omega)
    have shifted : ∀ i, j+1+i = j+(i+1) := by omega
    rw [ackLoop,next,ih (by omega)]
    simp only [Table.modify,List.map_map,List.range_succ_eq_map,List.map_cons,List.mem_cons,Nat.add_zero,shifted]
    apply List.map_congr_left
    intro x _
    simp only [Function.comp_apply]
    by_cases first : x.node_id = nodeIdAt nodeinfo (1+6*j)
    · simp [first,clearRefresh]
    · simp [first]

/-- The nodes that are named are marked as reported, all others stay. -/
theorem mem_ack {nodeinfo : Mem} {nodes : Nodes} {y : SWgPhase} :
    y ∈ (recv_node_belong_info_ack nodeinfo nodes).entries ↔ ∃ x ∈ nodes.entries,
      (if x.node_id ∈ acked nodeinfo then clearRefresh x else x) = y := by
  have few := (nodeinfo 0).toNat_lt
  have entries := @ackLoop_entries nodeinfo (nodeinfo 0).toNat 0 (by omega) nodes
  simp only [Nat.mul_zero,Nat.add_zero,Nat.zero_add] at entries
  rw [recv_node_belong_info_ack,entries]
  exact List.mem_map

theorem keys_ack (nodeinfo : Mem) (nodes : Nodes) : (recv_node_belong_info_ack nodeinfo nodes).keys = nodes.keys := by
  have loop : ∀ left pos, (ackLoop nodeinfo left pos nodes).keys = nodes.keys := by
    intro left
    induction left generalizing nodes with
    | zero => intro pos; rfl
    | succ left ih => intro pos; rw [ackLoop,ih,Table.keys_modify]
  exact loop _ _

/-! ### Node information -/

/-- A node after a report was there before, is marked for the next upload, or is
    new and of unknown phase. -/
def Accounted (nodes : Nodes) (y : SWgPhase) : Prop :=
  y ∈ nodes.entries ∨ y.refresh = 1 ∨ (y.node_id ∉ nodes.keys ∧ y.phase = 0)

theorem create_accounted {heap : Bool} {id : NodeId} {ph : UInt8} {p : SWgPhase}
    (created : wg_node_create heap id ph = some p) : p.refresh = 1 ∨ p.phase = 0 := by
  unfold wg_node_create at created
  split_ifs at created <;> cases created
  · exact .inl rfl
  · exact .inr rfl

theorem recvNode_accounted {heap : Bool} {nodes : Nodes} {nodeid : NodeId} {phase : UInt8} {y : SWgPhase}
    (member : y ∈ (recvNode heap nodes nodeid phase).entries) : Accounted nodes y := by
  unfold recvNode at member
  split at member
  next p2 found =>
    split at member
    · obtain ⟨x,old,rfl⟩ := Table.mem_modify.mp member
      split
      · exact .inr (.inl rfl)
      · exact .inl old
    · exact .inl member
  next absent =>
    split at member
    next p1 created =>
      rcases Table.mem_insert.mp member with old | rfl
      · exact .inl old
      · rcases create_accounted created with marked | unknown
        · exact .inr (.inl marked)
        · refine .inr (.inr ⟨?_,unknown⟩)
          rw [create_id created]
          exact Table.find_none.mp absent
    next => exact .inl member

/-- The nodes that are there stay, in their order; a new one comes behind them. -/
theorem recvNode_keys_grow (heap : Bool) (nodes : Nodes) (nodeid : NodeId) (phase : UInt8) :
    nodes.keys <+: (recvNode heap nodes nodeid phase).keys := by
  unfold recvNode
  split
  · split
    · rw [Table.keys_modify]
    · exact List.prefix_refl _
  · split
    · rw [Table.keys_insert]
      exact List.prefix_append _ _
    · exact List.prefix_refl _

theorem recvNode_keys {heap : Bool} {nodes : Nodes} {nodeid : NodeId} {phase : UInt8} {k : NodeId}
    (member : k ∈ nodes.keys) : k ∈ (recvNode heap nodes nodeid phase).keys :=
  (recvNode_keys_grow heap nodes nodeid phase).subset member

theorem recvLoop_keys_grow (heap : Nat → Bool) (data : Mem) (left i pos : Nat) (nodes : Nodes) :
    nodes.keys <+: (recvLoop heap data left i pos nodes).keys := by
  induction left generalizing i pos nodes with
  | zero => exact List.prefix_refl _
  | succ left ih => exact (recvNode_keys_grow _ _ _ _).trans (ih _ _ _)

theorem recvLoop_keys {heap : Nat → Bool} {data : Mem} {left i pos : Nat} {nodes : Nodes} {k : NodeId}
    (member : k ∈ nodes.keys) : k ∈ (recvLoop heap data left i pos nodes).keys :=
  (recvLoop_keys_grow heap data left i pos nodes).subset member

theorem recvLoop_accounted {heap : Nat → Bool} {data : Mem} {left i pos : Nat} {nodes : Nodes} {y : SWgPhase}
    (member : y ∈ (recvLoop heap data left i pos nodes).entries) : Accounted nodes y := by
  induction left generalizing i pos nodes with
  | zero => exact .inl member
  | succ left ih =>
    rcases ih member with old | marked | ⟨unknown,zero⟩
    · exact recvNode_accounted old
    · exact .inr (.inl marked)
    · exact .inr (.inr ⟨fun known => unknown (recvNode_keys known),zero⟩)

theorem count_pos {b : UInt8} : b.toUInt16 > 0 ↔ 0 < b.toNat := by
  rw [gt_iff_lt,UInt16.lt_iff_toNat_lt,UInt8.toNat_toUInt16]
  rfl

theorem count_zero {b : UInt8} (none : ¬b.toUInt16 > 0) : b = 0 := by
  apply UInt8.toNat_inj.mp
  have few := mt count_pos.mpr none
  simp only [UInt8.toNat_zero]
  omega

/-- The nodes after a report; the answer to `FN(9)` reports none. -/
theorem recv_nodes (heap : Nat → Bool) (fn : UInt16) (data : Mem) (s : WgState) :
    (wg_plc_recv_node_info heap fn data s).nodes =
      if fn = FN 9 then s.nodes else recvLoop heap data (data 2).toNat 0 3 s.nodes := by
  unfold wg_plc_recv_node_info
  split
  · rfl
  · simp only
    split
    · simp
    next none =>
      rw [count_zero none]
      rfl

theorem recv_accounted {heap : Nat → Bool} {fn : UInt16} {data : Mem} {s : WgState} {y : SWgPhase}
    (member : y ∈ (wg_plc_recv_node_info heap fn data s).nodes.entries) : Accounted s.nodes y := by
  rw [recv_nodes] at member
  split at member
  · exact .inl member
  · exact recvLoop_accounted member

theorem recv_keys_grow (heap : Nat → Bool) (fn : UInt16) (data : Mem) (s : WgState) :
    s.nodes.keys <+: (wg_plc_recv_node_info heap fn data s).nodes.keys := by
  rw [recv_nodes]
  split
  · exact List.prefix_refl _
  · exact recvLoop_keys_grow _ _ _ _ _ _

theorem recv_keys {heap : Nat → Bool} {fn : UInt16} {data : Mem} {s : WgState} {k : NodeId} (member : k ∈ s.nodes.keys) :
    k ∈ (wg_plc_recv_node_info heap fn data s).nodes.keys :=
  (recv_keys_grow heap fn data s).subset member

/-! ### Uploads -/

/-- The id and the phase at a place of an upload. There are sixteen places; a
    seventeenth node is written over the first. -/
def recordAt (nodeinfo : Mem) (i : Nat) : NodeId × UInt8 := (nodeIdAt nodeinfo (1+16*i),nodeinfo (7+16*i))

/-- The nodes that an upload contains, with the phases it carries for them. -/
def records (nodeinfo : Mem) : List (NodeId × UInt8) :=
  (List.range (min (nodeinfo 0).toNat 16)).map (recordAt nodeinfo)

def recordBytes (p : SWgPhase) : List UInt8 := List.ofFn p.node_id ++ [p.phase,p.loop]

theorem recordAt_same (m : Mem) (i : Nat) (p : SWgPhase) :
    recordAt (store m (1+16*i) (recordBytes p)) i = (p.node_id,p.phase) := by
  have byte : ∀ k (inside : k < (recordBytes p).length), store m (1+16*i) (recordBytes p) (1+16*i+k) = (recordBytes p)[k] :=
    fun k inside => store_at m (1+16*i) inside
  refine Prod.ext (funext fun k => ?_) ?_
  · simp only [recordAt,nodeIdAt]
    rw [byte k (by simp [recordBytes]; omega)]
    fin_cases k <;> simp [recordBytes]
  · have place : 7+16*i = 1+16*i+6 := by omega
    simp only [recordAt,place]
    rw [byte 6 (by simp [recordBytes])]
    simp [recordBytes]

theorem recordAt_other (m : Mem) {i j : Nat} (other : i ≠ j) (p : SWgPhase) :
    recordAt (store m (1+16*j) (recordBytes p)) i = recordAt m i := by
  have length : (recordBytes p).length = 8 := by simp [recordBytes]
  have outside : ∀ k < 8, store m (1+16*j) (recordBytes p) (1+16*i+k) = m (1+16*i+k) := by
    intro k lt
    rcases Nat.lt_or_ge i j with before | after
    · exact store_below _ (by omega)
    · exact store_behind (by omega)
  refine Prod.ext (funext fun k => ?_) ?_
  · exact outside k (by omega)
  · have place : 7+16*i = 1+16*i+6 := by omega
    simp only [recordAt,place]
    exact outside 6 (by omega)

/-- The places filled so far hold nodes that were marked. -/
def Filled (nodes : List SWgPhase) (nodeinfo : Mem) (node_cnt : Nat) : Prop :=
  ∀ i < min node_cnt 16, ∃ p ∈ nodes, p.refresh = 1 ∧ recordAt nodeinfo i = (p.node_id,p.phase)

theorem filled_store {nodes : List SWgPhase} {nodeinfo : Mem} {node_cnt : Nat} (filled : Filled nodes nodeinfo node_cnt)
    {p : SWgPhase} (member : p ∈ nodes) (marked : p.refresh = 1) :
    Filled nodes (store nodeinfo (1+16*(node_cnt % 16)) (recordBytes p)) (node_cnt+1) := by
  intro i lt
  by_cases here : i = node_cnt % 16
  · subst here
    exact ⟨p,member,marked,recordAt_same nodeinfo _ p⟩
  · rw [recordAt_other nodeinfo here]
    exact filled i (by omega)

/-- One node of the upload: three stores, and `pos` moves on by a place. -/
theorem upload_store (nodeinfo : Mem) (p : SWgPhase) (pos : Nat) (small : pos+7 < 256) :
    store (store (store nodeinfo pos (List.ofFn p.node_id)) (u8 (pos+6)) [p.phase]) (u8 (u8 (pos+6)+1)) [p.loop] =
      store nodeinfo pos (recordBytes p) := by
  have first : u8 ((pos : Int)+6) = pos+6 := u8_eq (by omega) (by omega)
  have second : u8 (((pos+6 : Nat) : Int)+1) = pos+6+1 := u8_eq (by omega) (by omega)
  rw [first,second,store_adjacent _ _ _ _ (by simp),store_adjacent _ _ _ _ (by simp)]
  rfl

theorem uploadLoop_filled {nodes rest : List SWgPhase} (inside : ∀ p ∈ rest, p ∈ nodes) {node_cnt : Nat} (few : node_cnt < 20)
    {nodeinfo : Mem} (filled : Filled nodes nodeinfo node_cnt) :
    let result := uploadLoop rest (1+16*(node_cnt % 16)) node_cnt nodeinfo
    Filled nodes result.1 result.2.2 ∧ result.2.2 ≤ 20 := by
  induction rest generalizing node_cnt nodeinfo with
  | nil => exact ⟨filled,by simp only [uploadLoop]; omega⟩
  | cons p rest ih =>
    have tail : ∀ q ∈ rest, q ∈ nodes := fun q member => inside q (List.mem_cons_of_mem _ member)
    by_cases marked : p.refresh = 1
    · have next := filled_store filled (inside p (List.mem_cons_self ..)) marked
      have count : u8 ((node_cnt : Int)+1) = node_cnt+1 := u8_eq (by omega) (by omega)
      have place : u8 (u8 (u8 (u8 (((1+16*(node_cnt % 16) : Nat) : Int)+6)+1)+1)+8) = 1+16*((node_cnt+1) % 16) := by
        unfold u8
        omega
      simp only [uploadLoop,marked,if_true,upload_store nodeinfo p (1+16*(node_cnt % 16)) (by omega),count,place]
      split
      · exact ⟨next,by simp only; omega⟩
      · exact ih tail (by omega) next
    · simp only [uploadLoop,marked,if_false]
      exact ih tail few filled

theorem records_count {nodeinfo : Mem} {node_cnt : Nat} (few : node_cnt ≤ 20) :
    records (store nodeinfo 0 [UInt8.ofNat node_cnt]) = (List.range (min node_cnt 16)).map (recordAt nodeinfo) := by
  have count : (store nodeinfo 0 [UInt8.ofNat node_cnt] 0).toNat = node_cnt := by
    simp [store]
    omega
  have behind : ∀ k, 1 ≤ k → store nodeinfo 0 [UInt8.ofNat node_cnt] k = nodeinfo k :=
    fun k le => store_behind (by simpa using le)
  rw [records,count]
  apply List.map_congr_left
  intro i _
  exact Prod.ext (funext fun k => behind _ (by omega)) (behind _ (by omega))

/-- An upload contains marked nodes only, each with the phase it has then. -/
theorem upload_records {heap : Option Mem} {nodes : Nodes} {nodeinfo : Mem} {len : Nat}
    (uploaded : wg_plc_node_info_upload heap nodes = some (nodeinfo,len)) :
    ∀ r ∈ records nodeinfo, ∃ p ∈ nodes.entries, p.refresh = 1 ∧ r = (p.node_id,p.phase) := by
  unfold wg_plc_node_info_upload at uploaded
  cases heap with
  | none => cases uploaded
  | some block =>
    obtain ⟨filled,few⟩ := @uploadLoop_filled nodes.entries nodes.entries (fun p member => member) 0 (by omega)
      (fun i => if i < 200 then 0 else block i) (fun i lt => by omega)
    simp only [Nat.zero_mod,Nat.mul_zero,Nat.add_zero] at filled few
    simp only at uploaded
    split at uploaded
    · cases uploaded
      intro r member
      rw [records_count few] at member
      obtain ⟨i,inside,rfl⟩ := List.mem_map.mp member
      exact filled i (List.mem_range.mp inside)
    · cases uploaded

end Ucm108e.WgPhase
