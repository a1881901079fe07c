import Mathlib
import Ucm108e.NodeOwnership

/-!
What the list behind `node_header` is after any sequence of reports. The nodes
are distinct and have ids, new ones are only linked behind the others, and each
has the phase that the last turn of a loop over the reported nodes had for its
id, whatever memory `rt_malloc` finds.
-/
namespace Ucm108e.NodeTable
open Ucm108e.Bytes Ucm108e.Keyed Ucm108e.Linked Ucm108e.WgPhase Ucm108e.NodeHeap Ucm108e.Machine
open Ucm108e.NodeOwnership (Owned owned_init recv_owned recvNode_known recvNode_refused recvNode_new step init call)
set_option linter.unusedSimpArgs false

/-! ### The turns of the loop -/

/-- The ids and phases that the loop of `wg_plc_recv_node_info` goes through. -/
def turns (data : Mem) : (left pos : Nat) → List (NodeId × UInt8)
  | 0, _ => []
  | left+1, pos =>
    (nodeIdAt data pos,data (u8 (u8 (pos+6)+1)) &&& 0x07) :: turns data left (u8 (u8 (u8 (pos+6)+1)+1))

/-- A call of `wg_plc_recv_node_info`, with what `rt_malloc` does in it. -/
structure Report where
  malloc : Nat → Option Addr
  fn : UInt16
  data : Mem

def Report.turns (r : Report) : List (NodeId × UInt8) :=
  if r.fn = FN 9 then [] else NodeTable.turns r.data (r.data 2).toNat 3

/-- The last turn for an id had this phase. -/
def LastPhase (history : List (NodeId × UInt8)) (id : NodeId) (phase : UInt8) : Prop :=
  ∃ before after, history = before ++ (id,phase) :: after ∧ ∀ turn ∈ after, turn.1 ≠ id

theorem lastPhase_new (history : List (NodeId × UInt8)) (id : NodeId) (phase : UInt8) :
    LastPhase (history ++ [(id,phase)]) id phase :=
  ⟨history,[],rfl,nofun⟩

theorem LastPhase.other {history : List (NodeId × UInt8)} {id id' : NodeId} {phase phase' : UInt8}
    (last : LastPhase history id' phase') (other : id' ≠ id) : LastPhase (history ++ [(id,phase)]) id' phase' := by
  obtain ⟨before,after,rfl,none⟩ := last
  refine ⟨before,after ++ [(id,phase)],by simp,?_⟩
  intro turn member
  rcases List.mem_append.mp member with old | new
  · exact none turn old
  · rw [List.mem_singleton.mp new]
    exact other.symm

/-- Every node has the phase of the last turn for its id. -/
def Phased (nodes : Nodes) (history : List (NodeId × UInt8)) : Prop :=
  ∀ x ∈ nodes.entries, LastPhase history x.node_id x.phase

theorem create_phase {heap : Bool} {id : NodeId} {ph : UInt8} {p : SWgPhase}
    (created : WgPhase.wg_node_create heap id ph = some p) : p.phase = ph := by
  unfold WgPhase.wg_node_create at created
  split_ifs at created with _ _ known
  · cases created
    rfl
  · cases created
    exact not_not.mp known

/-- One turn, whether the node is known, new or refused. -/
theorem recvNode_phased {nodes : Nodes} {history : List (NodeId × UInt8)} (phased : Phased nodes history) (heap : Bool)
    (id : NodeId) (ph : UInt8) : Phased (WgPhase.recvNode heap nodes id ph) (history ++ [(id,ph)]) := by
  -- the nodes with other ids are as they were
  have others : ∀ x ∈ nodes.entries, x.node_id ≠ id → LastPhase (history ++ [(id,ph)]) x.node_id x.phase :=
    fun x member other => (phased x member).other other
  cases found : nodes.find id with
  | some p2 =>
    have named : p2.node_id = id := by simpa using List.find?_some found
    rw [recvNode_known found]
    intro x member
    split at member
    · obtain ⟨y,old,rfl⟩ := Table.mem_modify.mp member
      split
      next same =>
        rw [setPhase_id,same]
        exact lastPhase_new history id ph
      next other => exact others y old other
    next known =>
      by_cases same : x.node_id = id
      · obtain rfl := Table.eq_of_key member (List.mem_of_find?_eq_some found) (same.trans named.symm)
        rw [same,not_not.mp known]
        exact lastPhase_new history id ph
      · exact others x member same
  | none =>
    have unknown : ∀ x ∈ nodes.entries, x.node_id ≠ id :=
      fun x member same => Table.find_none.mp found (same ▸ Table.mem_keys member)
    cases created : WgPhase.wg_node_create heap id ph with
    | none =>
      rw [recvNode_refused found created]
      exact fun x member => others x member (unknown x member)
    | some p1 =>
      have named := create_id created
      rw [recvNode_new found created (by rw [named]; exact found)]
      intro x member
      rcases Table.mem_insert.mp member with old | rfl
      · exact others x old (unknown x old)
      · rw [named,create_phase created]
        exact lastPhase_new history id ph

theorem recvLoop_phased (heap : Nat → Bool) (data : Mem) (left : Nat) :
    ∀ {nodes : Nodes} {history : List (NodeId × UInt8)} (i pos : Nat), Phased nodes history →
    Phased (WgPhase.recvLoop heap data left i pos nodes) (history ++ turns data left pos) := by
  induction left with
  | zero =>
    intro nodes history i pos phased
    rw [turns,List.append_nil]
    exact phased
  | succ left ih =>
    intro nodes history i pos phased
    have later := ih (i+1) (u8 (u8 (u8 (pos+6)+1)+1)) (recvNode_phased phased (heap i) (nodeIdAt data pos)
      (data (u8 (u8 (pos+6)+1)) &&& 0x07))
    rw [List.append_assoc] at later
    exact later

/-! ### Runs of reports -/

/-- The list behind the header at `p` runs through the cells `as` and ends there,
    as the turns in `history` have left it. -/
structure WellFormed (h : Heap) (p : Addr) (as : List Addr) (history : List (NodeId × UInt8)) : Prop where
  header : h.node_header = some p
  finite : Chain h.node p as
  distinct : (as.map fun a => (h.node a).data.node_id).Nodup
  nonzero : ∀ a ∈ as, (h.node a).data.node_id ≠ fun _ => 0
  find : ∀ id, ∃ result, wg_node_find_base_id h id = .ok result
    ∧ ∀ a, result = some a ↔ a ∈ as ∧ (h.node a).data.node_id = id
  phase : ∀ a ∈ as, LastPhase history (h.node a).data.node_id (h.node a).data.phase

section
variable {h : Heap} {nodes : Nodes} {p : Addr} {as lost : List Addr} {history : List (NodeId × UInt8)}

theorem keys_eq (owned : Owned h nodes p as lost) : nodes.keys = as.map fun a => (h.node a).data.node_id := by
  rw [Table.keys,owned.data,List.map_map]
  rfl

theorem wellFormed (owned : Owned h nodes p as lost) (phased : Phased nodes history) : WellFormed h p as history where
  header := owned.header
  finite := owned.chain
  distinct := by
    rw [← keys_eq owned]
    exact nodes.distinct
  nonzero := by
    intro a member zero
    refine owned.nonzero ?_
    rw [keys_eq owned,← zero]
    exact List.mem_map_of_mem member
  find := by
    intro id
    refine ⟨_,owned.find id,fun a => ?_⟩
    constructor
    · intro found
      exact ⟨List.mem_of_find?_eq_some found,by simpa using List.find?_some found⟩
    · rintro ⟨member,named⟩
      have any : (as.find? fun b => (h.node b).data.node_id = id).isSome :=
        List.find?_isSome.mpr ⟨a,member,decide_eq_true named⟩
      obtain ⟨b,found⟩ := Option.isSome_iff_exists.mp any
      have named' : (h.node b).data.node_id = id := by simpa using List.find?_some found
      rw [found,owned.same_id (List.mem_of_find?_eq_some found) member (named'.trans named.symm)]
  phase := by
    intro a member
    refine phased _ ?_
    rw [owned.data]
    exact List.mem_map_of_mem member

/-- Where the ids of a table begin with those of another, the cells they share
    have kept theirs. -/
theorem ids_kept {h' : Heap} {nodes' : Nodes} {more lost' : List Addr} (owned : Owned h nodes p as lost)
    (owned' : Owned h' nodes' p (as ++ more) lost') (kept : nodes.keys <+: nodes'.keys) :
    ∀ a ∈ as, (h'.node a).data.node_id = (h.node a).data.node_id := by
  rw [keys_eq owned,keys_eq owned',List.map_append] at kept
  have same : (as.map fun a => (h.node a).data.node_id) = as.map fun a => (h'.node a).data.node_id :=
    List.prefix_of_prefix_length_le kept (List.prefix_append _ _) (by simp) |>.eq_of_length (by simp)
  intro a member
  exact (List.map_inj_left.mp same a member).symm
end

def Report.call (r : Report) : NodeOwnership.Call := .recv r.malloc r.fn r.data

/-- One report, and with it every run of them, keeps the cells and their ids, and
    links new cells behind them. -/
theorem reports_owned (reports : List Report) :
    ∀ {s : NodeHeap.State} {nodes : Nodes} {p : Addr} {as lost : List Addr} {history : List (NodeId × UInt8)},
    Owned s.heap nodes p as lost → Phased nodes history →
    ∃ s' nodes' more lost', final step (.ok s) (reports.map Report.call) = .ok s'
      ∧ Owned s'.heap nodes' p (as ++ more) lost' ∧ Phased nodes' (history ++ reports.flatMap Report.turns)
      ∧ nodes.keys <+: nodes'.keys := by
  induction reports with
  | nil =>
    intro s nodes p as lost history owned phased
    refine ⟨s,nodes,[],lost,rfl,?_,?_,List.prefix_refl _⟩
    · rw [List.append_nil]
      exact owned
    · rw [List.flatMap_nil,List.append_nil]
      exact phased
  | cons r rest ih =>
    intro s nodes p as lost history owned phased
    obtain ⟨s₁,more₁,new,run,-,owned₁,-⟩ := recv_owned owned r.malloc r.fn r.data
    have keys₁ := recv_keys_grow (fun j => (r.malloc j).isSome) r.fn r.data ⟨nodes,s.wg_node_info⟩
    have phased₁ : Phased (WgPhase.wg_plc_recv_node_info (fun j => (r.malloc j).isSome) r.fn r.data
        ⟨nodes,s.wg_node_info⟩).nodes (history ++ r.turns) := by
      rw [recv_nodes,Report.turns]
      split
      · rw [List.append_nil]
        exact phased
      · exact recvLoop_phased _ _ _ 0 3 phased
    obtain ⟨s',nodes',more₂,lost',run',owned',phased',keys'⟩ := ih owned₁ phased₁
    refine ⟨s',nodes',more₁ ++ more₂,lost',?_,?_,?_,keys₁.trans keys'⟩
    · have first : (step (.ok s) r.call).1 = .ok s₁ := run
      rw [List.map_cons,final,first]
      exact run'
    · rw [← List.append_assoc]
      exact owned'
    · rw [List.flatMap_cons,← List.append_assoc]
      exact phased'

/-- After a successful `wg_node_init` every sequence of reports leaves the list
    well formed, and the nodes that a part of it has entered stay in their place
    and order: later reports only link nodes behind them. -/
theorem node_table (a : Addr) (earlier later : List Report) :
    ∃ s s' as more, final step (init a) (earlier.map Report.call) = .ok s
      ∧ final step (init a) ((earlier ++ later).map Report.call) = .ok s'
      ∧ WellFormed s.heap a as (earlier.flatMap Report.turns)
      ∧ WellFormed s'.heap a (as ++ more) ((earlier ++ later).flatMap Report.turns)
      ∧ ∀ b ∈ as, (s'.heap.node b).data.node_id = (s.heap.node b).data.node_id := by
  have start : Owned (⟨wg_node_init NodeHeap.empty (some a),⟨0,0,0,0⟩⟩ : NodeHeap.State).heap Table.empty a [] [] :=
    owned_init a
  have none : Phased Table.empty [] := fun x member => absurd member List.not_mem_nil
  obtain ⟨s,nodes,as,lost,run,owned,phased,-⟩ := reports_owned earlier start none
  rw [List.nil_append] at owned phased
  obtain ⟨s',nodes',more,lost',run',owned',phased',keys⟩ := reports_owned later owned phased
  refine ⟨s,s',as,more,run,?_,wellFormed owned phased,?_,ids_kept owned owned' keys⟩
  · rw [List.map_append,final_append]
    exact (congrArg (fun t => final step t _) run).trans run'
  · rw [List.flatMap_append]
    exact wellFormed owned' phased'

end Ucm108e.NodeTable
