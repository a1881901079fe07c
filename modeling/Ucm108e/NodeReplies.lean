import Mathlib
import Ucm108e.Cco
import Ucm108e.NodeTable

/-!
What the replies of the carrier module do to the nodes. `wg_plc_recv_node_info` takes
every reply but the one to `FN(9)` for a page of nodes, and goes through the page with
a cursor of 8 bits, which starts over behind the 31st node.
-/
namespace Ucm108e.NodeReplies
open Ucm108e.Bytes Ucm108e.Keyed Ucm108e.WgPhase Ucm108e.Gdw13762 Ucm108e.Cco
open Ucm108e.NodeHeap (Addr Fault)
open Ucm108e.NodeOwnership (entryAt entry_next recvNode_known recvNode_refused recvNode_new)
set_option linter.unusedSimpArgs false

/-! ### Pages of nodes -/

/-- Entry `i` of a page: eight bytes, of which the first six are the id and the last
    one has the phase. -/
def reported (data : Mem) (i : Nat) : NodeId × UInt8 := (nodeIdAt data (3+8*i),data (3+8*i+7) &&& 0x07)

/-- The list of nodes with an entry of a page in it: a known node takes a new phase
    and is marked, an unknown one comes behind the others, unless its id is zero. -/
def enter (nodes : List SWgPhase) (e : NodeId × UInt8) : List SWgPhase :=
  if e.1 ∈ nodes.map SWgPhase.node_id then
    nodes.map fun x => if x.node_id = e.1 ∧ x.phase ≠ e.2 then { x with phase := e.2, refresh := 1 } else x
  else if e.1 = fun _ => 0 then nodes
  else nodes ++ [⟨e.1,e.2,0,if e.2 = 0 then 0 else 1⟩]

/-- What the loop reads in turn `i`. -/
def turnAt (data : Mem) (i : Nat) : NodeId × UInt8 := (entryAt data i,data ((10+8*i) % 256) &&& 0x07)

theorem created (id : NodeId) (ph : UInt8) : WgPhase.wg_node_create true id ph
    = if id = fun _ => 0 then none else some ⟨id,ph,0,if ph = 0 then 0 else 1⟩ := by
  unfold WgPhase.wg_node_create
  by_cases zero : id = fun _ => 0
  · simp [zero]
  · by_cases unknown : ph = 0
    · simp [zero,unknown]
    · simp [zero,unknown,Ne.symm unknown]

/-- One turn of the loop is one entry. -/
theorem recvNode_enter (nodes : Nodes) (id : NodeId) (ph : UInt8) :
    (WgPhase.recvNode true nodes id ph).entries = enter nodes.entries (id,ph) := by
  cases found : nodes.find id with
  | some p2 =>
    have member := List.mem_of_find?_eq_some found
    have named : p2.node_id = id := by simpa using List.find?_some found
    have known : id ∈ nodes.entries.map SWgPhase.node_id := named ▸ Table.mem_keys member
    rw [recvNode_known found,enter,if_pos known]
    -- ids are distinct, so that only the phase of the node that was found counts
    have only : ∀ x ∈ nodes.entries, x.node_id = id → x.phase = p2.phase :=
      fun x inside same => by rw [Table.eq_of_key inside member (same.trans named.symm)]
    by_cases changed : p2.phase ≠ ph
    · rw [if_pos changed]
      refine List.map_congr_left fun x inside => ?_
      by_cases same : x.node_id = id
      · rw [if_pos same,if_pos ⟨same,by rw [only x inside same]; exact changed⟩]
        rfl
      · rw [if_neg same,if_neg fun both => same both.1]
    · rw [if_neg changed]
      refine ((List.map_congr_left fun x inside => ?_).trans (List.map_id _)).symm
      exact if_neg fun both => changed (by rw [← only x inside both.1]; exact both.2)
  | none =>
    have unknown : id ∉ nodes.entries.map SWgPhase.node_id := Table.find_none.mp found
    rw [enter,if_neg unknown]
    by_cases zero : id = fun _ => 0
    · rw [if_pos zero,recvNode_refused found (by rw [created,if_pos zero])]
    · rw [if_neg zero,recvNode_new found (by rw [created,if_neg zero]) found]
      rfl

theorem recvLoop_enter (data : Mem) (left : Nat) (i : Nat) (nodes : Nodes) :
    (WgPhase.recvLoop (fun _ => true) data left i ((3+8*i) % 256) nodes).entries
      = ((List.range' i left).map (turnAt data)).foldl enter nodes.entries := by
  induction left generalizing i nodes with
  | zero => rfl
  | succ left ih =>
    have phase : u8 (u8 (((3+8*i) % 256 : Nat)+6)+1) = (10+8*i) % 256 := by
      unfold u8
      omega
    rw [WgPhase.recvLoop,entry_next,phase,ih,recvNode_enter]
    rfl

/-- The node list after a page, whatever the number of its entries. -/
theorem recv_turns (data : Mem) (s : WgState) {fn : UInt16} (page : fn ≠ FN 9) :
    (WgPhase.wg_plc_recv_node_info (fun _ => true) fn data s).nodes.entries
      = ((List.range (data 2).toNat).map (turnAt data)).foldl enter s.nodes.entries := by
  rw [recv_nodes,if_neg page,List.range_eq_range']
  exact recvLoop_enter data _ 0 s.nodes

theorem recv_index (heap : Nat → Bool) (data : Mem) (s : WgState) {fn : UInt16} (page : fn ≠ FN 9) :
    (WgPhase.wg_plc_recv_node_info heap fn data s).wg_node_info.index = s.wg_node_info.index+(data 2).toUInt16 := by
  unfold WgPhase.wg_plc_recv_node_info
  rw [if_neg page]
  simp only
  split
  · rfl
  next none =>
    rw [count_zero none]
    exact (UInt16.add_zero _).symm

/-- The cursor is at the right place up to the phase of the 32nd entry. -/
theorem turnAt_eq {i : Nat} (early : i < 31) (data : Mem) : turnAt data i = reported data i := by
  have id : (3+8*i) % 256 = 3+8*i := by omega
  have phase : (10+8*i) % 256 = 3+8*i+7 := by omega
  rw [turnAt,reported,entryAt,id,phase]

theorem foldl_enter_idle {nodes : List SWgPhase} {es : List (NodeId × UInt8)} (idle : ∀ e ∈ es, enter nodes e = nodes) :
    es.foldl enter nodes = nodes := by
  induction es with
  | nil => rfl
  | cons e es ih =>
    rw [List.foldl_cons,idle e List.mem_cons_self]
    exact ih fun e member => idle e (List.mem_cons_of_mem _ member)

/-! A page whose 32nd entry is its only one with an id. -/

def lateId : NodeId := ![1,0,0,0,0,0]

def latePage (n : UInt8) : Mem := fun i => if i = 2 then n else if i = 251 then 1 else if i = 258 then n+1 else 0

theorem enter_zero {nodes : List SWgPhase} (ids : ∀ x ∈ nodes, x.node_id = lateId) (ph : UInt8) :
    enter nodes (fun _ => 0,ph) = nodes := by
  have unknown : (fun _ => 0) ∉ nodes.map SWgPhase.node_id := by
    intro member
    obtain ⟨x,inside,zero⟩ := List.mem_map.mp member
    have late : lateId = fun _ => 0 := (ids x inside).symm.trans zero
    exact absurd late (by decide)
  rw [enter,if_neg unknown,if_pos rfl]

/-- A walk through the page that comes to the late entry finds nothing else, and has
    its phase from there. -/
theorem late_walk {n : Nat} (late : 31 < n) {ph : UInt8} {f : Nat → NodeId × UInt8}
    (first : ∀ i < 31, (f i).1 = fun _ => 0) (entry : f 31 = (lateId,ph))
    (others : ∀ i < n, (f i).1 = (fun _ => 0) ∨ f i = (lateId,ph)) :
    ((List.range n).map f).foldl enter [] = [⟨lateId,ph,0,if ph = 0 then 0 else 1⟩] := by
  obtain ⟨rest,rfl⟩ : ∃ rest, n = 31+1+rest := ⟨n-32,by omega⟩
  have start : ((List.range 31).map f).foldl enter [] = [] := by
    refine foldl_enter_idle fun e member => ?_
    obtain ⟨i,inside,rfl⟩ := List.mem_map.mp member
    rw [show f i = (fun _ => 0,(f i).2) from Prod.ext (first i (List.mem_range.mp inside)) rfl]
    exact enter_zero (fun x none => absurd none List.not_mem_nil) _
  have here : enter [] (lateId,ph) = [⟨lateId,ph,0,if ph = 0 then 0 else 1⟩] := by
    rw [enter,if_neg (by simp),if_neg (by simp only; decide)]
    rfl
  rw [List.range_add,List.map_append,List.foldl_append,List.range_succ,List.map_append,List.foldl_append,start]
  simp only [List.map_cons,List.map_nil,List.foldl_cons,List.foldl_nil,entry,here]
  refine foldl_enter_idle fun e member => ?_
  simp only [List.map_map] at member
  obtain ⟨i,inside,rfl⟩ := List.mem_map.mp member
  have small := List.mem_range.mp inside
  simp only [Function.comp_apply]
  rcases others (31+1+i) (by omega) with zero | again
  · rw [show f (31+1+i) = (fun _ => 0,(f (31+1+i)).2) from Prod.ext zero rfl]
    refine enter_zero (fun x member => ?_) _
    rw [List.mem_singleton.mp member]
  · rw [again,enter,if_pos (by simp)]
    simp

theorem late_id (n : UInt8) {p : Nat} (place : p % 8 = 3) :
    nodeIdAt (latePage n) p = if p = 251 then lateId else fun _ => 0 := by
  funext k
  split
  next here =>
    subst here
    fin_cases k <;> rfl
  next other =>
    rw [nodeIdAt,latePage,if_neg (by omega),if_neg (by omega),if_neg (by omega)]

/-- The list after the late page, as the loop leaves it. -/
theorem late_turns {n : UInt8} (late : 31 < n.toNat) :
    ((List.range n.toNat).map (turnAt (latePage n))).foldl enter []
      = [⟨lateId,n &&& 0x07,0,if n &&& 0x07 = 0 then 0 else 1⟩] := by
  have turn : ∀ i, turnAt (latePage n) i
      = (if i % 32 = 31 then lateId else fun _ => 0,latePage n ((10+8*i) % 256) &&& 0x07) := by
    intro i
    have place : (3+8*i) % 256 = 251 ↔ i % 32 = 31 := by omega
    rw [turnAt,entryAt,late_id n (by omega),if_congr place rfl rfl]
  have again : ∀ i, i % 32 = 31 → turnAt (latePage n) i = (lateId,n &&& 0x07) := by
    intro i last
    have cursor : (10+8*i) % 256 = 2 := by omega
    rw [turn,if_pos last,cursor]
    rfl
  refine late_walk late (fun i early => ?_) (again 31 rfl) fun i _ => ?_
  · rw [turn,if_neg (by omega)]
  · by_cases last : i % 32 = 31
    · exact .inr (again i last)
    · exact .inl (by rw [turn,if_neg last])

/-- The list after the late page, as its entries have it. -/
theorem late_reported {n : UInt8} (late : 31 < n.toNat) :
    ((List.range n.toNat).map (reported (latePage n))).foldl enter []
      = [⟨lateId,n+1 &&& 0x07,0,if n+1 &&& 0x07 = 0 then 0 else 1⟩] := by
  have id : ∀ i, (reported (latePage n) i).1 = if i = 31 then lateId else fun _ => 0 := by
    intro i
    have place : 3+8*i = 251 ↔ i = 31 := by omega
    rw [reported,late_id n (by omega),if_congr place rfl rfl]
  have entry : reported (latePage n) 31 = (lateId,n+1 &&& 0x07) := Prod.ext (id 31) rfl
  refine late_walk late (fun i early => ?_) entry fun i _ => ?_
  · rw [id,if_neg (by omega)]
  · by_cases last : i = 31
    · exact .inr (last ▸ entry)
    · exact .inl (by rw [id,if_neg last])

theorem phase_differs (n : UInt8) : n &&& 0x07 ≠ n+1 &&& 0x07 := by
  intro same
  have bits := congrArg UInt8.toNat same
  simp only [UInt8.toNat_and,UInt8.toNat_add] at bits
  have low : ∀ x, x &&& (0x07 : UInt8).toNat = x % 8 := fun x => Nat.and_two_pow_sub_one_eq_mod x 3
  rw [low,low] at bits
  simp only [UInt8.toNat_one] at bits
  omega

/-- A page of `n` nodes changes the table as its entries say, whatever they are, exactly
    when it has at most 31 of them. -/
theorem pages_entered_iff (n : UInt8) :
    (∀ data, data 2 = n → ∀ s : WgState,
        (WgPhase.wg_plc_recv_node_info (fun _ => true) (FN 23) data s).nodes.entries
            = ((List.range n.toNat).map (reported data)).foldl enter s.nodes.entries
          ∧ (WgPhase.wg_plc_recv_node_info (fun _ => true) (FN 23) data s).wg_node_info.index
            = s.wg_node_info.index+n.toUInt16)
      ↔ n.toNat ≤ 31 := by
  have page : FN 23 ≠ FN 9 := by decide
  constructor
  · intro all
    by_contra late
    have entered := (all (latePage n) rfl wgInit).1
    rw [recv_turns _ _ page,wgInit] at entered
    have differs := (late_turns (Nat.lt_of_not_le late)).symm.trans (entered.trans (late_reported (Nat.lt_of_not_le late)))
    injection differs with node _
    exact phase_differs n (congrArg SWgPhase.phase node)
  · rintro few data rfl s
    refine ⟨?_,recv_index _ data s page⟩
    rw [recv_turns data s page]
    congr 1
    refine List.map_congr_left fun i inside => ?_
    have small := List.mem_range.mp inside
    exact turnAt_eq (by omega) data

/-- The phase of the 32nd node of a page is taken from the number of nodes. -/
theorem late_phase :
    (WgPhase.wg_plc_recv_node_info (fun _ => true) (FN 23) (latePage 32) wgInit).nodes.entries = [⟨lateId,0,0,0⟩]
      ∧ ((List.range 32).map (reported (latePage 32))).foldl enter wgInit.nodes.entries = [⟨lateId,1,0,1⟩] := by
  refine ⟨?_,late_reported (n := 32) (by decide)⟩
  rw [recv_turns _ _ (by decide)]
  exact late_turns (n := 32) (by decide)

/-! ### Other replies -/

theorem recv_unchanged_iff (malloc : Nat → Option Addr) {fn : UInt16} (other : fn ≠ FN 9) (data : Mem)
    (s : NodeHeap.State) : NodeHeap.wg_plc_recv_node_info malloc fn data s = .ok s
      ↔ data 2 = 0 ∧ s.wg_node_info.ack_num = 0 := by
  rw [NodeHeap.wg_plc_recv_node_info,if_neg other]
  simp only
  split
  next some =>
    have counted := count_pos.mp some
    refine iff_of_false (fun same => ?_) fun both => absurd counted (by rw [both.1]; decide)
    cases run : NodeHeap.recvLoop malloc data (data 2).toUInt16.toNat 0 3 s.heap with
    | error fault =>
      rw [run] at same
      cases same
    | ok h =>
      -- the index has moved on by a number below 256
      rw [run] at same
      injection same with nodes
      have index := congrArg (fun n => n.wg_node_info.index.toNat) nodes
      have small := (data 2).toNat_lt
      have wide := s.wg_node_info.index.toNat_lt
      simp only [UInt16.toNat_add,UInt8.toNat_toUInt16] at index
      omega
  next none =>
    have zero := count_zero none
    constructor
    · intro same
      injection same with nodes
      have kept := congrArg (fun n => n.wg_node_info.ack_num) nodes
      simp only [zero] at kept
      exact ⟨zero,kept.symm⟩
    · rintro ⟨-,kept⟩
      rw [zero]
      change Except.ok (⟨s.heap,{ s.wg_node_info with ack_num := 0 }⟩ : NodeHeap.State) = .ok s
      rw [← kept]

theorem recv_test (malloc : Nat → Option Addr) {datain : S13762Format} (test : datain.afn = GDW1376_2_AFN_TEST_0xF0)
    (s : App) : (elec_cco_recv malloc datain s).map App.nodes
      = NodeHeap.wg_plc_recv_node_info malloc datain.fn datain.data s.nodes := by
  have entry : (elec_cco_recvfn.find? fun entry => datain.afn = entry.1)
      = some (GDW1376_2_AFN_TEST_0xF0,some .elec_cco_recv_test) := by
    rw [test]
    rfl
  rw [elec_cco_recv,entry]
  simp only [handle]
  cases NodeHeap.wg_plc_recv_node_info malloc datain.fn datain.data s.nodes with
  | ok nodes => rfl
  | error fault => rfl

/-- A reply for the function `0xF0` that is none to `FN(9)` or `FN(23)` leaves the nodes
    and the variables of the reading exactly when the byte that is taken for a number of
    nodes is zero, as the number kept so far is. -/
theorem reply_unchanged_iff {datain : S13762Format} (test : datain.afn = GDW1376_2_AFN_TEST_0xF0)
    (other : datain.fn ≠ FN 9 ∧ datain.fn ≠ FN 23) (malloc : Nat → Option Addr) (s : App) :
    (elec_cco_recv malloc datain s).map App.nodes = .ok s.nodes
      ↔ datain.data 2 = 0 ∧ s.nodes.wg_node_info.ack_num = 0 := by
  rw [recv_test malloc test]
  exact recv_unchanged_iff malloc other.1 datain.data s.nodes

def whitelistReply (count : UInt8) : S13762Format :=
  ⟨0,fun _ => 0,GDW1376_2_AFN_TEST_0xF0,FN 4,18,fun i => if i = 2 then count else 0⟩

theorem whitelistReply_zero :
    (elec_cco_recv (fun _ => none) (whitelistReply 0) (elec_cco_init (some 0))).map App.nodes
      = .ok (elec_cco_init (some 0)).nodes :=
  (@reply_unchanged_iff (whitelistReply 0) rfl (by decide) (fun _ => none) (elec_cco_init (some 0))).mpr
    ⟨rfl,rfl⟩

/-- A reply to the whitelist command moves the index on. -/
theorem whitelistReply_counted :
    (elec_cco_recv (fun _ => none) (whitelistReply 1) (elec_cco_init (some 0))).map (fun s => s.nodes.wg_node_info)
      = .ok ⟨0,1,1,0⟩ := by
  rfl

end Ucm108e.NodeReplies
