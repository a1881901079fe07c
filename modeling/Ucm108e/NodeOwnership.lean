import Mathlib
import Ucm108e.Machine
import Ucm108e.NodeHeap

/-!
Which blocks the node table owns. The functions with pointers do to the nodes
what those of `WgPhase` do to the list of nodes, and every block that they take
is linked into the list or lost: the block of an upload, and that of a node with
an all-zero id.
-/
namespace Ucm108e.NodeOwnership
open Ucm108e.Bytes Ucm108e.Keyed Ucm108e.Linked Ucm108e.WgPhase Ucm108e.NodeHeap Ucm108e.Machine
set_option linter.unusedSimpArgs false

/-- The header is at `p`, the cells `as` behind it hold the nodes of a table, and
    `lost` are the other blocks that were taken. -/
structure Owned (h : Heap) (nodes : Nodes) (p : Addr) (as lost : List Addr) : Prop where
  header : h.node_header = some p
  chain : Chain h.node p as
  data : nodes.entries = as.map fun a => (h.node a).data
  live : h.live.Perm (p :: as ++ lost)
  distinct : h.live.Nodup
  nonzero : (fun _ => 0) ∉ nodes.keys

section
variable {h : Heap} {nodes : Nodes} {p : Addr} {as lost : List Addr}

theorem malloc_fresh {malloc : Option Addr} {a : Addr} (taken : rt_malloc h malloc = some a) : a ∉ h.live := by
  cases malloc with
  | none => cases taken
  | some b =>
    simp only [rt_malloc,Option.map_some,Option.some.injEq] at taken
    by_cases used : b ∈ h.live
    · rw [if_pos used] at taken
      subst taken
      intro member
      have bound : ∀ (l : List Nat) (x : Nat), x ∈ l → x ≤ l.foldr max 0 := by
        intro l x inside
        induction l with
        | nil => cases inside
        | cons y rest ih =>
          rcases List.mem_cons.mp inside with rfl | later
          · exact le_max_left _ _
          · exact le_trans (ih later) (le_max_right _ _)
      have := bound _ _ member
      omega
    · rw [if_neg used] at taken
      exact taken ▸ used

namespace Owned

theorem steps (owned : Owned h nodes p as lost) : as.length < h.live.length := by
  have length := owned.live.length_eq
  simp only [List.length_append,List.length_cons] at length
  omega

theorem header_ok (owned : Owned h nodes p as lost) : h.header = .ok p := by
  simp only [Heap.header,owned.header]

theorem member_live (owned : Owned h nodes p as lost) {a : Addr} (member : a ∈ p :: as ++ lost) : a ∈ h.live :=
  owned.live.mem_iff.mpr member

theorem chain_distinct (owned : Owned h nodes p as lost) : (p :: as).Nodup :=
  (List.nodup_append.mp (owned.live.nodup_iff.mp owned.distinct)).1

theorem find (owned : Owned h nodes p as lost) (id : NodeId) :
    wg_node_find_base_id h id = .ok (as.find? fun a => (h.node a).data.node_id = id) := by
  rw [wg_node_find_base_id,owned.header_ok]
  change walked _ = _
  rw [findFrom_chain _ owned.chain owned.steps]
  rfl

theorem table_find (owned : Owned h nodes p as lost) (id : NodeId) :
    nodes.find id = (as.find? fun a => (h.node a).data.node_id = id).map fun a => (h.node a).data := by
  rw [Table.find,owned.data,List.find?_map]
  rfl

/-- A node is told by its id. -/
theorem same_id (owned : Owned h nodes p as lost) {a b : Addr} (first : a ∈ as) (second : b ∈ as)
    (same : (h.node a).data.node_id = (h.node b).data.node_id) : a = b := by
  have keys := nodes.distinct
  rw [owned.data,List.map_map] at keys
  exact List.inj_on_of_nodup_map keys first second same

/-- Changing the entry of one node changes it in the table. -/
theorem change (owned : Owned h nodes p as lost) {q : Addr} (member : q ∈ as) {f : SWgPhase → SWgPhase}
    (keeps : ∀ x, (f x).node_id = x.node_id) :
    Owned { h with node := setData h.node q (f (h.node q).data) }
      (nodes.modify (h.node q).data.node_id f keeps) p as lost where
  header := owned.header
  chain := chain_congr (fun a _ => setData_next h.node q a _) owned.chain
  data := by
    change nodes.entries.map _ = _
    rw [owned.data,List.map_map]
    refine List.map_congr_left fun a inside => ?_
    simp only [Function.comp_apply,setData_data]
    by_cases here : a = q
    · subst here
      rw [if_pos rfl,if_pos rfl]
    · rw [if_neg here,if_neg fun same => here (owned.same_id inside member same)]
  live := owned.live
  distinct := owned.distinct
  nonzero := by
    rw [Table.keys_modify]
    exact owned.nonzero

/-- A block that is taken and linked nowhere is lost. -/
theorem lose (owned : Owned h nodes p as lost) {a : Addr} (fresh : a ∉ h.live) (node : Addr → Cell Addr SWgPhase)
    (same : ∀ b, b ≠ a → node b = h.node b) : Owned (h.take a node) nodes p as (a :: lost) := by
  have outside : ∀ b ∈ p :: as, node b = h.node b := by
    intro b member
    refine same b fun here => fresh ?_
    rw [← here]
    exact owned.member_live (List.mem_append_left _ member)
  refine ⟨owned.header,?_,?_,?_,List.nodup_cons.mpr ⟨fresh,owned.distinct⟩,owned.nonzero⟩
  · exact chain_congr (fun b member => congrArg Cell.next (outside b member)) owned.chain
  · rw [owned.data]
    exact List.map_congr_left fun b member => (congrArg Cell.data (outside b (List.mem_cons_of_mem _ member))).symm
  · exact (owned.live.cons a).trans List.perm_middle.symm

/-- A new node that is linked behind the last one is appended to the table. -/
theorem append (owned : Owned h nodes p as lost) {a : Addr} (fresh : a ∉ h.live) {x : SWgPhase}
    (absent : nodes.find x.node_id = none) (named : x.node_id ≠ fun _ => 0) :
    ∃ h', wg_node_insert (h.take a (Function.update h.node a ⟨x,none⟩)) a = .ok h'
      ∧ Owned h' (nodes.insert x absent) p (as ++ [a]) lost := by
  have taken := owned.lose fresh (Function.update h.node a ⟨x,none⟩)
    fun b other => Function.update_of_ne other _ _
  have outside : a ∉ p :: as := fun member => fresh (owned.member_live (List.mem_append_left _ member))
  have ends : ((h.take a (Function.update h.node a ⟨x,none⟩)).node a) = ⟨x,none⟩ := Function.update_self ..
  generalize h.take a (Function.update h.node a ⟨x,none⟩) = h₁ at taken ends
  have linked := chain_append taken.chain taken.chain_distinct outside (by rw [ends])
  refine ⟨{ h₁ with node := setNext h₁.node ((p :: as).getLast (List.cons_ne_nil _ _)) (some a) },?_,
    ⟨taken.header,linked,?_,?_,taken.distinct,?_⟩⟩
  · rw [wg_node_insert,taken.header_ok]
    change (walked (lastFrom _ _ p)).bind _ = _
    rw [lastFrom_chain taken.chain taken.steps]
    rfl
  · change nodes.entries ++ [x] = _
    simp only [List.map_append,List.map_cons,List.map_nil,setNext_data,ends,taken.data]
  · refine taken.live.trans ?_
    simp only [List.cons_append,List.append_assoc,List.nil_append]
    exact List.Perm.refl _
  · rw [Table.keys_insert,List.mem_append,List.mem_singleton]
    rintro (old | new)
    · exact owned.nonzero old
    · exact named new.symm

/-- The blocks in use are those that can be reached exactly when none is lost. -/
theorem reachable_iff_none_lost (owned : Owned h nodes p as lost) :
    (∀ a, a ∈ h.live ↔ Reachable h.node p a) ↔ lost = [] := by
  constructor
  · intro exact_
    refine List.eq_nil_iff_forall_not_mem.mpr fun a member => ?_
    have inChain := (reachable_iff owned.chain a).mp
      ((exact_ a).mp (owned.member_live (List.mem_append_right _ member)))
    exact (List.nodup_append.mp (owned.live.nodup_iff.mp owned.distinct)).2.2 a inChain a member rfl
  · rintro rfl a
    rw [reachable_iff owned.chain,owned.live.mem_iff,List.append_nil]

end Owned
end

/-! ### Node information -/

section
variable {heap : Bool} {nodes : Nodes} {nodeid : NodeId} {phase : UInt8}

theorem recvNode_known {p2 : SWgPhase} (found : nodes.find nodeid = some p2) :
    WgPhase.recvNode heap nodes nodeid phase
      = if p2.phase ≠ phase then nodes.modify nodeid (setPhase phase) (setPhase_id phase) else nodes := by
  unfold WgPhase.recvNode
  split
  next q found' =>
    rw [found] at found'
    cases found'
    rfl
  next absent =>
    rw [found] at absent
    cases absent

theorem recvNode_refused (absent : nodes.find nodeid = none) (refused : WgPhase.wg_node_create heap nodeid phase = none) :
    WgPhase.recvNode heap nodes nodeid phase = nodes := by
  unfold WgPhase.recvNode
  split
  next q found =>
    rw [absent] at found
    cases found
  next =>
    split
    next q created =>
      rw [refused] at created
      cases created
    next => rfl

theorem recvNode_new {p1 : SWgPhase} (absent : nodes.find nodeid = none)
    (created : WgPhase.wg_node_create heap nodeid phase = some p1) (absent' : nodes.find p1.node_id = none) :
    WgPhase.recvNode heap nodes nodeid phase = nodes.insert p1 absent' := by
  unfold WgPhase.recvNode
  split
  next q found =>
    rw [absent] at found
    cases found
  next =>
    split
    next q created' =>
      rw [created] at created'
      cases created'
      rfl
    next refused =>
      rw [created] at refused
      cases refused
end

section
variable {h : Heap} {nodes : Nodes} {p : Addr} {as lost : List Addr}

/-- A node that is in the table is only changed. -/
theorem recvNode_owned_known (owned : Owned h nodes p as lost) (malloc : Option Addr) {id : NodeId} (ph : UInt8) {q : Addr}
    (found : as.find? (fun a => (h.node a).data.node_id = id) = some q) :
    id ≠ (fun _ => 0) ∧ ∃ h', NodeHeap.recvNode malloc h id ph = .ok h'
      ∧ Owned h' (WgPhase.recvNode malloc.isSome nodes id ph) p as lost := by
  have search := owned.find id
  have table := owned.table_find id
  rw [found] at search table
  have member : q ∈ as := List.mem_of_find?_eq_some found
  have named : (h.node q).data.node_id = id := by simpa using List.find?_some found
  constructor
  · rintro rfl
    refine owned.nonzero ?_
    rw [← named]
    exact Table.mem_keys (by rw [owned.data]; exact List.mem_map_of_mem member)
  · rw [recvNode_known table]
    by_cases changed : (h.node q).data.phase ≠ ph
    · have kept := owned.change member (setPhase_id ph)
      rw [named] at kept
      refine ⟨{ h with node := setData h.node q (setPhase ph (h.node q).data) },?_,?_⟩
      · simp only [NodeHeap.recvNode,search]
        exact if_pos changed
      · rw [if_pos changed]
        exact kept
    · refine ⟨h,?_,?_⟩
      · simp only [NodeHeap.recvNode,search]
        exact if_neg changed
      · rw [if_neg changed]
        exact owned

/-- The block taken for a node that is not in the table is linked behind the
    last one, or lost when the id is all zero. -/
theorem recvNode_owned_new (owned : Owned h nodes p as lost) (malloc : Option Addr) {id : NodeId} (ph : UInt8)
    (absent : as.find? (fun a => (h.node a).data.node_id = id) = none) {a : Addr} (taken : rt_malloc h malloc = some a) :
    ∃ h' more new, NodeHeap.recvNode malloc h id ph = .ok h'
      ∧ Owned h' (WgPhase.recvNode true nodes id ph) p (as ++ more) (new ++ lost) ∧ (new = [] ↔ id ≠ fun _ => 0) := by
  have search := owned.find id
  have table := owned.table_find id
  rw [absent] at search table
  have fresh := malloc_fresh taken
  by_cases zero : id = fun _ => 0
  · have refused : WgPhase.wg_node_create true id ph = none := by simp [WgPhase.wg_node_create,zero]
    refine ⟨h.take a (Function.update h.node a ⟨⟨id,0,0,0⟩,none⟩),[],[a],?_,?_,
      iff_of_false (List.cons_ne_nil _ _) fun nonzero => nonzero zero⟩
    · simp only [NodeHeap.recvNode,search,NodeHeap.wg_node_create,taken,if_pos zero]
      rfl
    · rw [recvNode_refused table refused,List.append_nil]
      exact owned.lose fresh _ fun b other => Function.update_of_ne other _ _
  · have created : WgPhase.wg_node_create true id ph = some (if 0 ≠ ph then ⟨id,ph,0,1⟩ else ⟨id,0,0,0⟩) := by
      simp [WgPhase.wg_node_create,zero]
    have named := create_id created
    obtain ⟨h',run,after⟩ := owned.append fresh (x := if 0 ≠ ph then ⟨id,ph,0,1⟩ else ⟨id,0,0,0⟩)
      (by rw [named]; exact table) (by rw [named]; exact zero)
    refine ⟨h',[a],[],?_,?_,iff_of_true rfl zero⟩
    · simp only [NodeHeap.recvNode,search,NodeHeap.wg_node_create,taken,if_neg zero]
      exact run
    · rw [recvNode_new table created]
      exact after

/-- One reported node: its block is lost when memory is found for an all-zero id. -/
theorem recvNode_owned (owned : Owned h nodes p as lost) (malloc : Option Addr) (id : NodeId) (ph : UInt8) :
    ∃ h' more new, NodeHeap.recvNode malloc h id ph = .ok h'
      ∧ Owned h' (WgPhase.recvNode malloc.isSome nodes id ph) p (as ++ more) (new ++ lost)
      ∧ (new = [] ↔ (id = (fun _ => 0) → malloc = none)) := by
  cases found : as.find? fun a => (h.node a).data.node_id = id with
  | some q =>
    obtain ⟨nonzero,h',run,after⟩ := recvNode_owned_known owned malloc ph found
    refine ⟨h',[],[],run,?_,iff_of_true rfl fun zero => absurd zero nonzero⟩
    rw [List.append_nil]
    exact after
  | none =>
    cases malloc with
    | none =>
      have search := owned.find id
      have table := owned.table_find id
      rw [found] at search table
      have same : WgPhase.recvNode false nodes id ph = nodes := recvNode_refused table (if_pos rfl)
      refine ⟨h,[],[],?_,?_,iff_of_true rfl fun _ => rfl⟩
      · simp only [NodeHeap.recvNode,search]
        rfl
      · rw [Option.isSome_none,same,List.append_nil]
        exact owned
    | some seed =>
      obtain ⟨h',more,new,run,after,none_lost⟩ := recvNode_owned_new owned (some seed) ph found rfl
      refine ⟨h',more,new,run,after,none_lost.trans ?_⟩
      simp

/-- The place of a reported node in the data; `pos` is 8 bits wide. -/
def entryAt (data : Mem) (j : Nat) : NodeId := nodeIdAt data ((3+8*j) % 256)

theorem entry_next (j : Nat) : u8 (u8 (u8 (((3+8*j) % 256 : Nat)+6)+1)+1) = (3+8*(j+1)) % 256 := by
  unfold u8
  omega

theorem recvLoop_owned (malloc : Nat → Option Addr) (data : Mem) (left : Nat) :
    ∀ {h : Heap} {nodes : Nodes} {as lost : List Addr} (i : Nat), Owned h nodes p as lost →
    ∃ h' more new, NodeHeap.recvLoop malloc data left i ((3+8*i) % 256) h = .ok h'
      ∧ Owned h' (WgPhase.recvLoop (fun j => (malloc j).isSome) data left i ((3+8*i) % 256) nodes) p (as ++ more)
        (new ++ lost)
      ∧ (new = [] ↔ ∀ j, i ≤ j → j < i+left → entryAt data j = (fun _ => 0) → malloc j = none) := by
  induction left with
  | zero =>
    intro h nodes as lost i owned
    refine ⟨h,[],[],rfl,?_,iff_of_true rfl fun j low high => by omega⟩
    rw [List.append_nil]
    exact owned
  | succ left ih =>
    intro h nodes as lost i owned
    obtain ⟨h₁,more₁,new₁,run₁,owned₁,kept₁⟩ := recvNode_owned owned (malloc i) (nodeIdAt data ((3+8*i) % 256))
      (data (u8 (u8 (((3+8*i) % 256 : Nat)+6)+1)) &&& 0x07)
    obtain ⟨h',more₂,new₂,run₂,owned₂,kept₂⟩ := ih (i+1) owned₁
    refine ⟨h',more₁ ++ more₂,new₂ ++ new₁,?_,?_,?_⟩
    · simp only [NodeHeap.recvLoop,run₁,entry_next]
      exact run₂
    · simp only [List.append_assoc] at owned₂
      simp only [WgPhase.recvLoop,entry_next,List.append_assoc]
      exact owned₂
    · rw [List.append_eq_nil_iff,kept₁,kept₂]
      constructor
      · rintro ⟨rest,here⟩ j low high zero
        by_cases first : j = i
        · subst first
          exact here zero
        · exact rest j (by omega) (by omega) zero
      · intro all
        exact ⟨fun j low high => all j (by omega) (by omega),all i (by omega) (by omega)⟩

/-- A report does to the nodes and to `wg_node_info` what it does without pointers,
    and the nodes that were there stay where they are. -/
theorem recv_owned {s : State} (owned : Owned s.heap nodes p as lost) (malloc : Nat → Option Addr) (fn : UInt16)
    (data : Mem) :
    let after := WgPhase.wg_plc_recv_node_info (fun j => (malloc j).isSome) fn data ⟨nodes,s.wg_node_info⟩
    ∃ s' more new, NodeHeap.wg_plc_recv_node_info malloc fn data s = .ok s' ∧ s'.wg_node_info = after.wg_node_info
      ∧ Owned s'.heap after.nodes p (as ++ more) (new ++ lost)
      ∧ (new = [] ↔ (fn ≠ FN 9 → ∀ j < (data 2).toNat, entryAt data j = (fun _ => 0) → malloc j = none)) := by
  intro after
  by_cases total : fn = FN 9
  · refine ⟨{ s with wg_node_info := after.wg_node_info },[],[],?_,rfl,?_,iff_of_true rfl fun other => absurd total other⟩
    · simp only [NodeHeap.wg_plc_recv_node_info,WgPhase.wg_plc_recv_node_info,after,if_pos total]
    · simp only [WgPhase.wg_plc_recv_node_info,after,if_pos total,List.append_nil]
      exact owned
  · obtain ⟨h',more,new,run,owned',kept⟩ := recvLoop_owned malloc data (data 2).toNat 0 owned
    refine ⟨⟨h',after.wg_node_info⟩,more,new,?_,rfl,?_,?_⟩
    · by_cases any : (data 2).toUInt16 > 0
      · simp only [NodeHeap.wg_plc_recv_node_info,WgPhase.wg_plc_recv_node_info,after,if_neg total,if_pos any,
          UInt8.toNat_toUInt16]
        change (NodeHeap.recvLoop malloc data (data 2).toNat 0 3 s.heap).bind _ = _
        rw [show NodeHeap.recvLoop malloc data (data 2).toNat 0 3 s.heap = .ok h' from run]
        rfl
      · have zero : (data 2).toNat = 0 := by
          have := mt count_pos.mpr any
          omega
        rw [zero] at run
        cases run
        simp only [NodeHeap.wg_plc_recv_node_info,WgPhase.wg_plc_recv_node_info,after,if_neg total,if_neg any]
    · simp only [after,recv_nodes,if_neg total]
      exact owned'
    · rw [kept]
      exact ⟨fun all _ j small => all j (by omega) (by omega),fun all j _ small => all total j (by omega)⟩

/-! ### Acknowledgements and uploads -/

theorem ackLoop_owned (nodeinfo : Mem) (left : Nat) :
    ∀ {h : Heap} {nodes : Nodes} (pos : Nat), Owned h nodes p as lost →
    ∃ h', NodeHeap.ackLoop nodeinfo left pos h = .ok h' ∧ Owned h' (WgPhase.ackLoop nodeinfo left pos nodes) p as lost := by
  induction left with
  | zero =>
    intro h nodes pos owned
    exact ⟨h,rfl,owned⟩
  | succ left ih =>
    intro h nodes pos owned
    have search := owned.find (nodeIdAt nodeinfo pos)
    have table := owned.table_find (nodeIdAt nodeinfo pos)
    cases found : as.find? fun a => (h.node a).data.node_id = nodeIdAt nodeinfo pos with
    | some q =>
      rw [found] at search
      have named : (h.node q).data.node_id = nodeIdAt nodeinfo pos := by simpa using List.find?_some found
      have kept := owned.change (List.mem_of_find?_eq_some found) clearRefresh_id
      rw [named] at kept
      obtain ⟨h',run,after⟩ := ih (u16 (pos+6)) kept
      refine ⟨h',?_,after⟩
      simp only [NodeHeap.ackLoop,search]
      exact run
    | none =>
      rw [found] at search table
      have same := Table.modify_absent clearRefresh_id table
      obtain ⟨h',run,after⟩ := ih (u16 (pos+6)) owned
      refine ⟨h',?_,?_⟩
      · simp only [NodeHeap.ackLoop,search]
        exact run
      · rw [WgPhase.ackLoop,same]
        exact after

theorem uploadWalk_chain {node : Addr → Cell Addr SWgPhase} {p : Addr} {as : List Addr} (chain : Chain node p as)
    {steps : Nat} (enough : as.length < steps) (pos node_cnt : Nat) (nodeinfo : Mem) :
    uploadWalk node steps p pos node_cnt nodeinfo
      = some (uploadLoop (as.map fun a => (node a).data) pos node_cnt nodeinfo) := by
  induction as generalizing p steps pos node_cnt nodeinfo with
  | nil =>
    obtain ⟨steps,rfl⟩ : ∃ n, steps = n+1 := ⟨steps-1,by simp at enough; omega⟩
    simp only [uploadWalk,show (node p).next = none from chain,List.map_nil,uploadLoop]
  | cons q rest ih =>
    obtain ⟨link,tail⟩ := chain
    obtain ⟨steps,rfl⟩ : ∃ n, steps = n+1 := ⟨steps-1,by omega⟩
    have enough' : rest.length < steps := by simpa using enough
    by_cases marked : (node q).data.refresh = 1
    · simp only [uploadWalk,link,List.map_cons,uploadLoop,marked,if_true]
      by_cases full : u8 ((node_cnt : Int)+1) ≥ 20
      · rw [if_pos full,if_pos full]
      · rw [if_neg full,if_neg full,ih tail enough']
    · simp only [uploadWalk,link,List.map_cons,uploadLoop,marked,if_false]
      exact ih tail enough' pos node_cnt nodeinfo

/-- An upload carries what that of the list does, and its block is lost. -/
theorem upload_owned (owned : Owned h nodes p as lost) (malloc : Option Addr) (block : Mem) :
    ∃ h' new, NodeHeap.wg_plc_node_info_upload malloc block h
        = .ok (h',WgPhase.wg_plc_node_info_upload (malloc.map fun _ => block) nodes)
      ∧ Owned h' nodes p as (new ++ lost) ∧ (new = [] ↔ malloc = none) := by
  cases malloc with
  | none => exact ⟨h,[],rfl,owned,iff_of_true rfl rfl⟩
  | some seed =>
    obtain ⟨a,taken⟩ : ∃ a, rt_malloc h (some seed) = some a := ⟨_,rfl⟩
    have walk := uploadWalk_chain owned.chain owned.steps 1 0 (fun i => if i < 200 then 0 else block i)
    refine ⟨h.take a h.node,[a],?_,owned.lose (malloc_fresh taken) _ fun _ _ => rfl,
      iff_of_false (List.cons_ne_nil _ _) (Option.some_ne_none _)⟩
    rw [← owned.data] at walk
    simp only [NodeHeap.wg_plc_node_info_upload,taken,owned.header_ok]
    change (walked (uploadWalk h.node h.live.length p 1 0 _)).bind _ = _
    rw [walk]
    rfl
end

/-! ### Sequences of calls -/

/-- The calls, with what `rt_malloc` does in each. -/
inductive Call where
  | recv (malloc : Nat → Option Addr) (fn : UInt16) (data : Mem)
  | ack (nodeinfo : Mem)
  | upload (malloc : Option Addr) (block : Mem)

def call (s : State) : Call → Except Fault State
  | .recv malloc fn data => NodeHeap.wg_plc_recv_node_info malloc fn data s
  | .ack nodeinfo => (NodeHeap.recv_node_belong_info_ack nodeinfo s.heap).map fun h => { s with heap := h }
  | .upload malloc block => (NodeHeap.wg_plc_node_info_upload malloc block s.heap).map fun (h,_) => { s with heap := h }

/-- A run that has gone wrong stays so. -/
def step (s : Except Fault State) (c : Call) : Except Fault State × Option Unit := (s.bind fun s => call s c,none)

/-- After `wg_node_init` has found the block `a`. -/
def init (a : Addr) : Except Fault State := .ok ⟨wg_node_init NodeHeap.empty (some a),⟨0,0,0,0⟩⟩

/-- The blocks in use are the header and the nodes that can be reached from it. -/
def Exact (s : Except Fault State) : Prop :=
  ∃ t p, s = .ok t ∧ t.heap.node_header = some p ∧ ∀ a, a ∈ t.heap.live ↔ Reachable t.heap.node p a

def NoneLost (s : Except Fault State) (c : Call) : Prop := Exact (step s c).1

/-- No memory is found for a node with an all-zero id nor for an upload. -/
def Releases : Call → Prop
  | .recv malloc fn data => fn ≠ FN 9 → ∀ j < (data 2).toNat, entryAt data j = (fun _ => 0) → malloc j = none
  | .ack _ => True
  | .upload malloc _ => malloc = none

/-- The blocks after a call: those it has linked, and those it has lost. -/
theorem call_owned {s : State} {nodes : Nodes} {p : Addr} {as lost : List Addr} (owned : Owned s.heap nodes p as lost)
    (c : Call) :
    ∃ s' nodes' as' new, call s c = .ok s' ∧ Owned s'.heap nodes' p as' (new ++ lost) ∧ (new = [] ↔ Releases c) := by
  cases c with
  | recv malloc fn data =>
    obtain ⟨s',more,new,run,-,after,kept⟩ := recv_owned owned malloc fn data
    exact ⟨s',_,as ++ more,new,run,after,kept⟩
  | ack nodeinfo =>
    obtain ⟨h',run,after⟩ := ackLoop_owned nodeinfo (nodeinfo 0).toNat 1 owned
    refine ⟨{ s with heap := h' },_,as,[],?_,after,iff_of_true rfl trivial⟩
    simp only [call,NodeHeap.recv_node_belong_info_ack,run]
    rfl
  | upload malloc block =>
    obtain ⟨h',new,run,after,kept⟩ := upload_owned owned malloc block
    refine ⟨{ s with heap := h' },nodes,as,new,?_,after,kept⟩
    simp only [call,run]
    rfl

/-- A table that has lost nothing so far. -/
def Whole (s : Except Fault State) : Prop := ∃ t nodes p as, s = .ok t ∧ Owned t.heap nodes p as []

theorem owned_init (a : Addr) : Owned (wg_node_init NodeHeap.empty (some a)) Table.empty a [] [] where
  header := rfl
  chain := by simp [Chain,wg_node_init,rt_malloc,NodeHeap.empty,Heap.take]
  data := rfl
  live := List.Perm.refl _
  distinct := List.nodup_singleton a
  nonzero := List.not_mem_nil

theorem whole_init (a : Addr) : Whole (init a) := ⟨_,_,a,[],rfl,owned_init a⟩

theorem none_lost_iff (s : Except Fault State) (c : Call) (whole : Whole s) :
    (NoneLost s c ↔ Releases c) ∧ (NoneLost s c → Whole (step s c).1) := by
  obtain ⟨t,nodes,p,as,rfl,owned⟩ := whole
  obtain ⟨t',nodes',as',new,run,after,kept⟩ := call_owned owned c
  rw [List.append_nil] at after
  have next : (step (.ok t) c).1 = .ok t' := run
  have exact_iff : NoneLost (.ok t) c ↔ new = [] := by
    rw [NoneLost,Exact,next,← after.reachable_iff_none_lost]
    constructor
    · rintro ⟨u,q,same,header,all⟩
      cases same
      rw [after.header] at header
      cases header
      exact all
    · intro all
      exact ⟨t',p,rfl,after.header,all⟩
  refine ⟨exact_iff.trans kept,?_⟩
  intro none_lost
  rw [exact_iff.mp none_lost] at after
  exact ⟨t',nodes',p,as',next,after⟩

/-- No call loses a block exactly when no call finds memory for an upload or for
    a node with an all-zero id. -/
theorem blocks_owned_iff (a : Addr) (calls : List Call) :
    Along step NoneLost (init a) calls ↔ ∀ c ∈ calls, Releases c := by
  rw [← along_inputs step Releases (init a)]
  refine along_iff_of_invariant (I := Whole) ?_ ?_ (whole_init a) calls
  · intro s c whole kept
    exact (none_lost_iff s c whole).2 kept
  · intro s c whole
    exact (none_lost_iff s c whole).1

/-- One upload for which memory is found loses a block, and so does one node
    with an all-zero id. -/
theorem blocks_lost :
    ¬ Along step NoneLost (init 0) [.upload (some 1) fun _ => 0]
    ∧ ¬ Along step NoneLost (init 0) [.recv (fun _ => some 1) (FN 23) fun i => if i = 2 then 1 else 0] := by
  constructor
  · rintro ⟨kept,-⟩
    exact Option.some_ne_none 1 ((none_lost_iff _ _ (whole_init 0)).1.mp kept)
  · rintro ⟨kept,-⟩
    have zero : entryAt (fun i => if i = 2 then 1 else 0) 0 = fun _ => 0 := by decide
    exact Option.some_ne_none 1 ((none_lost_iff _ _ (whole_init 0)).1.mp kept (by decide) 0 (by decide) zero)

end Ucm108e.NodeOwnership
