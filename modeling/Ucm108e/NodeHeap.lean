import Mathlib
import Ucm108e.Linked
import Ucm108e.WgPhase

/-!
`wg_phase.c` with its pointers: the node list as blocks of the heap that are
linked behind `node_header`. `WgPhase` has the same functions over a list of
nodes; here they also take blocks from the heap, and they go through
`node_header` whether `wg_node_init` has found memory for it or not.
-/
namespace Ucm108e.NodeHeap
open Ucm108e.Bytes Ucm108e.Keyed Ucm108e.Linked Ucm108e.WgPhase
set_option linter.unusedSimpArgs false

/-- What ends a run for good; `endless` stands for links that run in a circle. -/
inductive Fault where
  | nullDereference
  | nullCall
  | endless
  deriving DecidableEq

abbrev Addr := Nat

/-- The blocks that `wg_phase.c` has taken and not given back, the nodes in
    them, and `node_header`. -/
structure Heap where
  live : List Addr
  node : Addr → Cell Addr SWgPhase
  node_header : Option Addr

/-- Before `wg_node_init`. -/
def empty : Heap := ⟨[],fun _ => ⟨⟨fun _ => 0,0,0,0⟩,none⟩,none⟩

/-- `rt_malloc`: `none` when no memory is found, otherwise any block that is not
    in use; `malloc` says which. -/
def rt_malloc (h : Heap) (malloc : Option Addr) : Option Addr :=
  malloc.map fun a => if a ∈ h.live then h.live.foldr max 0+1 else a

/-- The block `a` is taken, and the nodes are then as given. -/
def Heap.take (h : Heap) (a : Addr) (node : Addr → Cell Addr SWgPhase) : Heap := ⟨a :: h.live,node,h.node_header⟩

def wg_node_init (h : Heap) (malloc : Option Addr) : Heap :=
  match rt_malloc h malloc with
  | none => { h with node_header := none }
  | some a =>
    { h.take a (Function.update h.node a ⟨⟨fun _ => 0,0,0,0⟩,none⟩) with node_header := some a }

/-- An all-zero id is refused when the block is already taken. -/
def wg_node_create (h : Heap) (malloc : Option Addr) (id : NodeId) (ph : UInt8) : Heap × Option Addr :=
  match rt_malloc h malloc with
  | none => (h,none)
  | some a =>
    if id = fun _ => 0 then (h.take a (Function.update h.node a ⟨⟨id,0,0,0⟩,none⟩),none)
    else
      let p : SWgPhase := if 0 ≠ ph then ⟨id,ph,0,1⟩ else ⟨id,0,0,0⟩
      (h.take a (Function.update h.node a ⟨p,none⟩),some a)

/-- `p = node_header`, where `p->next` follows. -/
def Heap.header (h : Heap) : Except Fault Addr :=
  match h.node_header with
  | none => .error .nullDereference
  | some p => .ok p

/-- The result of a walk along the links. -/
def walked {α : Type} : Option α → Except Fault α
  | none => .error .endless
  | some a => .ok a

def wg_node_insert (h : Heap) (new_p : Addr) : Except Fault Heap := do
  let p ← h.header
  let p ← walked (lastFrom h.node h.live.length p)
  .ok { h with node := setNext h.node p (some new_p) }

def wg_node_find_base_id (h : Heap) (id : NodeId) : Except Fault (Option Addr) := do
  let p ← h.header
  walked (findFrom h.node (fun x => x.node_id = id) h.live.length p)

/-- What `wg_plc_recv_node_info` does for one reported node. -/
def recvNode (malloc : Option Addr) (h : Heap) (nodeid : NodeId) (phase : UInt8) : Except Fault Heap := do
  match ← wg_node_find_base_id h nodeid with
  | some p2 =>
    if (h.node p2).data.phase ≠ phase then .ok { h with node := setData h.node p2 (setPhase phase (h.node p2).data) }
    else .ok h
  | none =>
    match wg_node_create h malloc nodeid phase with
    | (h,some p1) => wg_node_insert h p1
    | (h,none) => .ok h

def recvLoop (malloc : Nat → Option Addr) (data : Mem) : (left i pos : Nat) → Heap → Except Fault Heap
  | 0, _, _, h => .ok h
  | left+1, i, pos, h => do
    let nodeid := nodeIdAt data pos
    let pos := u8 (u8 (pos+6)+1)
    let phase := data pos &&& 0x07
    let h ← recvNode (malloc i) h nodeid phase
    recvLoop malloc data left (i+1) (u8 (pos+1)) h

/-- The variables of `wg_phase.c` that the node functions use. -/
structure State where
  heap : Heap
  wg_node_info : SWgNodeInfo

def wg_plc_recv_node_info (malloc : Nat → Option Addr) (fn : UInt16) (data : Mem) (s : State) : Except Fault State :=
  if fn = FN 9 then
    let total := le16 (data 0) (data 1)
    .ok { s with wg_node_info := { s.wg_node_info with
        total := total
        module_test_flag := if total > 0 then 1 else s.wg_node_info.module_test_flag } }
  else
    let ack_num := (data 2).toUInt16
    if ack_num > 0 then do
      let h ← recvLoop malloc data ack_num.toNat 0 3 s.heap
      .ok ⟨h,{ s.wg_node_info with ack_num := ack_num, index := s.wg_node_info.index+ack_num }⟩
    else .ok { s with wg_node_info := { s.wg_node_info with ack_num := ack_num } }

def ackLoop (nodeinfo : Mem) : (left pos : Nat) → Heap → Except Fault Heap
  | 0, _, h => .ok h
  | left+1, pos, h => do
    match ← wg_node_find_base_id h (nodeIdAt nodeinfo pos) with
    | some p => ackLoop nodeinfo left (u16 (pos+6)) { h with node := setData h.node p (clearRefresh (h.node p).data) }
    | none => ackLoop nodeinfo left (u16 (pos+6)) h

def recv_node_belong_info_ack (nodeinfo : Mem) (h : Heap) : Except Fault Heap :=
  ackLoop nodeinfo (nodeinfo 0).toNat 1 h

/-- The loop of `wg_plc_node_info_upload` along the links. -/
def uploadWalk (node : Addr → Cell Addr SWgPhase) : Nat → Addr → (pos node_cnt : Nat) → Mem → Option (Mem × Nat × Nat)
  | 0, _, _, _, _ => none
  | steps+1, p, pos, node_cnt, nodeinfo =>
    match (node p).next with
    | none => some (nodeinfo,pos,node_cnt)
    | some q =>
      let p := (node q).data
      if p.refresh = 1 then
        let nodeinfo := store nodeinfo pos (List.ofFn p.node_id)
        let pos := u8 (pos+6)
        let nodeinfo := store nodeinfo pos [p.phase]
        let pos := u8 (pos+1)
        let nodeinfo := store nodeinfo pos [p.loop]
        let pos := u8 (u8 (pos+1)+8)
        let node_cnt := u8 (node_cnt+1)
        if node_cnt ≥ 20 then some (nodeinfo,pos,node_cnt) else uploadWalk node steps q pos node_cnt nodeinfo
      else uploadWalk node steps q pos node_cnt nodeinfo

/-- `wg_plc_node_info_upload`: the block for the upload is not given back.
    `block` is what the block holds. -/
def wg_plc_node_info_upload (malloc : Option Addr) (block : Mem) (h : Heap) : Except Fault (Heap × Option (Mem × Nat)) :=
  match rt_malloc h malloc with
  | none => .ok (h,none)
  | some a => do
    let p ← h.header
    let nodeinfo : Mem := fun i => if i < 200 then 0 else block i
    let (nodeinfo,pos,node_cnt) ← walked (uploadWalk h.node h.live.length p 1 0 nodeinfo)
    .ok (h.take a h.node,if node_cnt > 0 then some (store nodeinfo 0 [UInt8.ofNat node_cnt],pos) else none)

end Ucm108e.NodeHeap
