import Mathlib
import Ucm108e.CcoSafety

/-!
Reading the nodes page by page. The carrier module answers a query for a page
with the nodes from the start that the query names, but the answer does not say
which start that was, and the application adds the number of nodes to `index`
whatever it had asked for. A page that comes in late, after the query was sent
again, is counted twice, and the last nodes are never asked for.
-/
namespace Ucm108e.Paging
open Ucm108e.Bytes Ucm108e.Keyed Ucm108e.Linked Ucm108e.WgPhase Ucm108e.NodeHeap Ucm108e.Machine
open Ucm108e.NodeOwnership (Owned owned_init recv_owned upload_owned entryAt entry_next recvNode_known recvNode_new)
open Ucm108e.Gdw13762 Ucm108e.Cco Ucm108e.CcoSafety
set_option linter.unusedSimpArgs false

/-- The carrier module with its nodes; their number fits the answer to `FN(9)`. -/
structure Master where
  ids : List NodeId
  some_ : 1 ≤ ids.length
  small : ids.length < 65536
  distinct : ids.Nodup
  nonzero : ∀ id ∈ ids, id ≠ fun _ => 0

/-- A query that the module has not answered yet. -/
inductive Query where
  | total
  | page (start : UInt16)
  deriving DecidableEq

/-- The queries among the frames that are sent. -/
def query (s : Send) : Option Query :=
  if s.afn = GDW1376_2_AFN_TEST_0xF0 then
    if s.fn = FN 9 then some .total
    else if s.fn = FN 23 then some (.page (le16 (s.data.getD 0 0) (s.data.getD 1 0)))
    else none
  else none

/-- The data of an answer: the number of nodes, or a page with up to twenty nodes
    from the start on, their phases being what they are. -/
def Answers (m : Master) (data : Mem) : Query → Prop
  | .total => le16 (data 0) (data 1) = UInt16.ofNat m.ids.length
  | .page start =>
    (data 2).toNat = min 20 (m.ids.length-start.toNat)
      ∧ ∀ j < (data 2).toNat, m.ids[start.toNat+j]? = some (nodeIdAt data (3+8*j))

/-- The application, the queries on their way and back, and the nodes received
    since the last cycle ended. -/
structure Net where
  app : Except Fault App
  pending : List Query
  gathered : List NodeId

/-- What can happen; memory is always found. Answers to the pending queries come in
    any order, and those that are lost never do. -/
inductive Event where
  | poll (malloc : Addr) (block : Mem)
  | detect
  | moduleInit
  | detected
  | answer (k : Nat) (malloc : Nat → Addr) (data : Mem)

/-- `wg_plc_read_and_load_node_info` goes into the branch that ends a cycle. -/
def Ends (s : App) : Prop :=
  s.plc_detect_flag = 1 ∧ ¬ s.read_cycle+1 < 20000 ∧ s.nodes.wg_node_info.total ≠ 0
    ∧ ¬ s.nodes.wg_node_info.index < s.nodes.wg_node_info.total

instance (s : App) : Decidable (Ends s) := by
  unfold Ends
  infer_instance

/-- A frame of the carrier module. -/
def frame (afn : UInt8) (fn : UInt16) (data : Mem) : S13762Format := ⟨0,fun _ => 0,afn,fn,0,data⟩

def poll (malloc : Addr) (block : Mem) (s : Net) (app : App) : Net :=
  match wg_plc_read_and_load_node_info (some malloc) block app with
  | .ok (app',sends) => ⟨.ok app',s.pending ++ sends.filterMap query,if Ends app then [] else s.gathered⟩
  | .error fault => { s with app := .error fault }

def answer (k : Nat) (malloc : Nat → Addr) (data : Mem) (s : Net) (app : App) : Net :=
  match s.pending[k]? with
  | none => s
  | some .total =>
    ⟨elec_cco_recv (fun i => some (malloc i)) (frame 0xf0 (FN 9) data) app,s.pending.eraseIdx k,s.gathered⟩
  | some (.page _) =>
    ⟨elec_cco_recv (fun i => some (malloc i)) (frame 0xf0 (FN 23) data) app,s.pending.eraseIdx k,
      s.gathered ++ (List.range (data 2).toNat).map (entryAt data)⟩

def step (s : Net) (e : Event) : Net × Option Unit :=
  match s.app with
  | .error _ => (s,none)
  | .ok app => match e with
    | .poll malloc block => (poll malloc block s app,none)
    | .detect => ({ s with app := .ok (wg_plc_mudule_detect app).1 },none)
    | .moduleInit => ({ s with app := .ok (wg_plc_mudule_init app).1 },none)
    | .detected => ({ s with app := elec_cco_recv (fun _ => none) (frame 0x03 (FN 10) fun _ => 0) app },none)
    | .answer k malloc data => (answer k malloc data s app,none)

def init (a : Addr) : Net := ⟨.ok (elec_cco_init (some a)),[],[]⟩

/-- An answer is one to a query that is pending. -/
def Answered (m : Master) (s : Net) : Event → Prop
  | .answer k _ data => ∃ q, s.pending[k]? = some q ∧ Answers m data q
  | _ => True

/-- A cycle that ends has received every node, and the list has them. -/
def Complete (m : Master) (s : Net) : Event → Prop
  | .poll _ _ => ∀ app, s.app = .ok app → Ends app → ∀ id ∈ m.ids,
    id ∈ s.gathered ∧ ∃ a, wg_node_find_base_id app.nodes.heap id = .ok (some a)
  | _ => True

/-- A page that comes in is the one that starts at `index`. -/
def InStep (s : Net) : Event → Prop
  | .answer k _ _ => ∀ app start, s.app = .ok app → s.pending[k]? = some (.page start) →
    start = app.nodes.wg_node_info.index
  | _ => True

/-! ### Nodes of a page -/

theorem recvNode_received {nodes : Nodes} {id : NodeId} (nonzero : id ≠ fun _ => 0) (ph : UInt8) :
    id ∈ (WgPhase.recvNode true nodes id ph).keys := by
  cases found : nodes.find id with
  | some p2 =>
    have known : id ∈ nodes.keys := by
      by_contra absent
      rw [Table.find_none.mpr absent] at found
      cases found
    exact recvNode_keys known
  | none =>
    have created : WgPhase.wg_node_create true id ph = some (if 0 ≠ ph then ⟨id,ph,0,1⟩ else ⟨id,0,0,0⟩) := by
      simp [WgPhase.wg_node_create,nonzero]
    have named := create_id created
    rw [recvNode_new found created (by rw [named]; exact found),Table.keys_insert,named]
    exact List.mem_append_right _ (List.mem_singleton_self id)

/-- Every node of a report is in the table then. -/
theorem recvLoop_received (data : Mem) (left : Nat) :
    ∀ (i : Nat) (nodes : Nodes), (∀ j, i ≤ j → j < i+left → entryAt data j ≠ fun _ => 0) →
    ∀ j, i ≤ j → j < i+left →
      entryAt data j ∈ (WgPhase.recvLoop (fun _ => true) data left i ((3+8*i) % 256) nodes).keys := by
  induction left with
  | zero =>
    intro i nodes _ j low high
    omega
  | succ left ih =>
    intro i nodes nonzero j low high
    simp only [WgPhase.recvLoop,entry_next]
    by_cases first : j = i
    · subst first
      exact recvLoop_keys (recvNode_received (nonzero j (by omega) (by omega)) _)
    · exact ih (i+1) _ (fun k low' high' => nonzero k (by omega) (by omega)) j (by omega) (by omega)

theorem owned_found {h : Heap} {nodes : Nodes} {p : Addr} {as lost : List Addr} (owned : Owned h nodes p as lost) {id : NodeId}
    (member : id ∈ nodes.keys) : ∃ a, wg_node_find_base_id h id = .ok (some a) := by
  rw [owned.find]
  cases found : as.find? fun a => (h.node a).data.node_id = id with
  | some a => exact ⟨a,rfl⟩
  | none =>
    have absent : nodes.find id = none := by rw [owned.table_find,found]; rfl
    exact absurd member (Table.find_none.mp absent)

/-! ### The invariant -/

/-- The nodes received since the last cycle are the first `index` ones, and the
    list has them. -/
structure Synced (m : Master) (s : Net) (app : App) : Prop where
  running : s.app = .ok app
  owned : ∃ nodes p as lost, Owned app.nodes.heap nodes p as lost ∧ ∀ id ∈ s.gathered, id ∈ nodes.keys
  total : app.nodes.wg_node_info.total = 0 ∨ app.nodes.wg_node_info.total = UInt16.ofNat m.ids.length
  counted : app.nodes.wg_node_info.index.toNat ≤ m.ids.length
  gathered : s.gathered = m.ids.take app.nodes.wg_node_info.index.toNat
  starts : ∀ start, .page start ∈ s.pending → start.toNat < m.ids.length

theorem synced_init (m : Master) (a : Addr) : Synced m (init a) (elec_cco_init (some a)) where
  running := rfl
  owned := ⟨_,a,[],[],owned_init a,fun _ member => by cases member⟩
  total := .inl rfl
  counted := Nat.zero_le _
  gathered := rfl
  starts := fun _ member => by cases member

/-- Where the nodes and the queries stay, nothing is lost. -/
theorem Synced.congr {m : Master} {s : Net} {app app' : App} (synced : Synced m s app) (same : app'.nodes = app.nodes) :
    Synced m { s with app := .ok app' } app' := by
  obtain ⟨-,owned,total,counted,gathered,starts⟩ := synced
  rw [← same] at owned total counted gathered
  exact ⟨rfl,owned,total,counted,gathered,starts⟩

theorem total_toNat (m : Master) : (UInt16.ofNat m.ids.length).toNat = m.ids.length :=
  UInt16.toNat_ofNat_of_lt' m.small

/-- A cycle that ends has received every node. -/
theorem Synced.complete {m : Master} {s : Net} {app : App} (synced : Synced m s app) (ends : Ends app) :
    s.gathered = m.ids := by
  obtain ⟨-,-,known,all⟩ := ends
  have total := synced.total.resolve_left known
  have counted := synced.counted
  rw [UInt16.lt_iff_toNat_lt,total,total_toNat] at all
  rw [synced.gathered,List.take_of_length_le (by omega)]

/-! ### One event -/

theorem recv_test (malloc : Nat → Option Addr) (fn : UInt16) (data : Mem) (app : App) :
    elec_cco_recv malloc (frame 0xf0 fn data) app
      = (NodeHeap.wg_plc_recv_node_info malloc fn data app.nodes).map fun nodes => { app with nodes := nodes } := rfl

theorem recv_detected (app : App) :
    elec_cco_recv (fun _ => none) (frame 0x03 (FN 10) fun _ => 0) app = .ok (plc_detect_flag_set app) := rfl

theorem query_total : query ⟨GDW1376_2_AFN_TEST_0xF0,FN 9,U16ToBuf_little_endian 1 ++ [15]⟩ = some .total := rfl

theorem query_page (index : UInt16) :
    query ⟨GDW1376_2_AFN_TEST_0xF0,FN 23,U16ToBuf_little_endian index ++ [20]⟩ = some (.page index) := by
  have code : FN 23 ≠ FN 9 := by decide
  simp [query,code,U16ToBuf_little_endian,le16_split]

/-- A query that is sent asks for a page that exists, if it asks for one. -/
theorem starts_sent {m : Master} {pending : List Query} (starts : ∀ start, .page start ∈ pending → start.toNat < m.ids.length)
    {q : Query} (inside : ∀ start, q = .page start → start.toNat < m.ids.length) :
    ∀ start, .page start ∈ pending ++ [q] → start.toNat < m.ids.length := by
  intro start member
  rcases List.mem_append.mp member with old | new
  · exact starts start old
  · exact inside start (List.mem_singleton.mp new).symm

theorem synced_poll {m : Master} {s : Net} {app : App} (synced : Synced m s app) (malloc : Addr) (block : Mem) :
    ∃ app', Synced m (poll malloc block s app) app' := by
  have load := load_cases (some malloc) block app
  unfold poll
  generalize wg_plc_read_and_load_node_info (some malloc) block app = result at load
  cases load with
  | down flag =>
    have goesOn : ¬ Ends app := fun ends => flag ends.1
    simp only [if_neg goesOn,List.filterMap_nil,List.append_nil]
    exact ⟨app,synced.congr rfl⟩
  | waits flag early =>
    have goesOn : ¬ Ends app := fun ends => ends.2.1 early
    simp only [if_neg goesOn,List.filterMap_nil,List.append_nil]
    exact ⟨_,synced.congr rfl⟩
  | asksTotal flag due unknown =>
    have goesOn : ¬ Ends app := fun ends => ends.2.2.1 unknown
    simp only [if_neg goesOn,List.filterMap_cons,query_total,List.filterMap_nil]
    refine ⟨_,rfl,synced.owned,synced.total,synced.counted,synced.gathered,?_⟩
    apply starts_sent synced.starts
    rintro _ ⟨⟩
  | asksPage flag due known more =>
    have goesOn : ¬ Ends app := fun ends => ends.2.2.2 more
    simp only [if_neg goesOn,List.filterMap_cons,query_page,List.filterMap_nil]
    refine ⟨_,rfl,synced.owned,synced.total,synced.counted,synced.gathered,?_⟩
    apply starts_sent synced.starts
    rintro _ ⟨⟩
    rw [synced.total.resolve_left known,UInt16.lt_iff_toNat_lt,total_toNat] at more
    exact more
  | ends flag due known all =>
    obtain ⟨nodes,p,as,lost,owned,-⟩ := synced.owned
    obtain ⟨heap,new,run,after,-⟩ := upload_owned owned (some malloc) block
    have ended : Ends app := ⟨flag,due,known,all⟩
    simp only [run,Except.map,if_pos ended,List.filterMap_nil,List.append_nil]
    exact ⟨_,rfl,⟨nodes,p,as,_,after,fun _ member => by cases member⟩,.inl rfl,Nat.zero_le _,rfl,synced.starts⟩

theorem take_page {α : Type} (l : List α) (i c : Nat) (f : Nat → α) (same : ∀ j < c, l[i+j]? = some (f j)) :
    l.take i ++ (List.range c).map f = l.take (i+c) := by
  rw [List.take_add]
  congr 1
  refine List.ext_getElem? fun j => ?_
  by_cases inside : j < c
  · rw [List.getElem?_take_of_lt inside,List.getElem?_drop,same j inside]
    simp [inside]
  · rw [List.getElem?_eq_none (by simp; omega),List.getElem?_eq_none (by simp; omega)]

/-- An answer to the query for the number of nodes says that there are as many. -/
theorem synced_total {m : Master} {s : Net} {app : App} (synced : Synced m s app) {k : Nat} (malloc : Nat → Addr) {data : Mem}
    (pending : s.pending[k]? = some .total) (answers : Answers m data .total) :
    ∃ app', Synced m (answer k malloc data s app) app' := by
  obtain ⟨nodes,p,as,lost,owned,keys⟩ := synced.owned
  obtain ⟨nodes',more,new,run,info,after,-⟩ := recv_owned owned (fun i => some (malloc i)) (FN 9) data
  simp only [WgPhase.wg_plc_recv_node_info,if_true] at info after
  simp only [answer,pending,recv_test,run,Except.map]
  refine ⟨_,rfl,⟨nodes,p,_,_,after,keys⟩,.inr ?_,?_,?_,fun start member => ?_⟩
  · rw [info]
    exact answers
  · rw [info]
    exact synced.counted
  · rw [info]
    exact synced.gathered
  · exact synced.starts start (List.mem_of_mem_eraseIdx member)

/-- A page that starts at `index` brings the nodes that follow. -/
theorem synced_page {m : Master} {s : Net} {app : App} (synced : Synced m s app) {k : Nat} (malloc : Nat → Addr) {data : Mem}
    (pending : s.pending[k]? = some (.page app.nodes.wg_node_info.index))
    (answers : Answers m data (.page app.nodes.wg_node_info.index)) :
    ∃ app', Synced m (answer k malloc data s app) app' := by
  obtain ⟨nodes,p,as,lost,owned,keys⟩ := synced.owned
  obtain ⟨nodes',more,new,run,info,after,-⟩ := recv_owned owned (fun i => some (malloc i)) (FN 23) data
  obtain ⟨count,entries⟩ := answers
  have start := synced.starts _ (List.mem_of_getElem? pending)
  have small := m.small
  have code : FN 23 ≠ FN 9 := by decide
  have any : (data 2).toUInt16 > 0 := count_pos.mpr (by omega)
  have place : ∀ j < (data 2).toNat, entryAt data j = nodeIdAt data (3+8*j) := by
    intro j low
    rw [entryAt,Nat.mod_eq_of_lt (by omega)]
  have next : nodes'.wg_node_info.index.toNat = app.nodes.wg_node_info.index.toNat+(data 2).toNat := by
    rw [info]
    simp only [WgPhase.wg_plc_recv_node_info,if_neg code,if_pos any,UInt16.toNat_add,UInt8.toNat_toUInt16]
    omega
  have total : nodes'.wg_node_info.total = app.nodes.wg_node_info.total := by
    rw [info]
    simp only [WgPhase.wg_plc_recv_node_info,if_neg code,if_pos any]
  have same : ∀ j < (data 2).toNat, m.ids[app.nodes.wg_node_info.index.toNat+j]? = some (entryAt data j) := by
    intro j low
    rw [place j low]
    exact entries j low
  have received : ∀ j, 0 ≤ j → j < 0+(data 2).toNat → entryAt data j ≠ fun _ => 0 := by
    intro j _ low
    exact m.nonzero _ (List.mem_of_getElem? (same j (by omega)))
  have loop := recvLoop_received data (data 2).toNat 0 nodes received
  rw [recv_nodes,if_neg code] at after
  simp only [answer,pending,recv_test,run,Except.map]
  refine ⟨_,rfl,⟨_,p,_,_,after,?_⟩,?_,?_,?_,fun start member => ?_⟩
  · intro id member
    rcases List.mem_append.mp member with old | page
    · exact recvLoop_keys (keys id old)
    · obtain ⟨j,inside,rfl⟩ := List.mem_map.mp page
      exact loop j (Nat.zero_le _) (by simpa using inside)
  · rw [total]
    exact synced.total
  · rw [next]
    omega
  · rw [next,synced.gathered]
    exact take_page _ _ _ _ same
  · exact synced.starts start (List.mem_of_mem_eraseIdx member)

theorem synced_step {m : Master} {s : Net} {app : App} (synced : Synced m s app) (e : Event) (answered : Answered m s e)
    (inStep : InStep s e) : ∃ app', Synced m (step s e).1 app' := by
  simp only [step,synced.running]
  cases e with
  | poll malloc block => exact synced_poll synced malloc block
  | detect => exact ⟨_,synced.congr (detect_nodes app)⟩
  | moduleInit => exact ⟨_,synced.congr (init_nodes app)⟩
  | detected =>
    rw [recv_detected]
    exact ⟨_,synced.congr rfl⟩
  | answer k malloc data =>
    obtain ⟨q,pending,answers⟩ := answered
    cases q with
    | total => exact synced_total synced malloc pending answers
    | page start =>
      obtain rfl := inStep app start synced.running pending
      exact synced_page synced malloc pending answers

/-- In a run in which every page that comes in starts at `index`, each cycle that
    ends has received all the nodes and has them in the list. -/
theorem paging_complete (m : Master) (a : Addr) (events : List Event)
    (answered : Along step (Answered m) (init a) events) (inStep : Along step InStep (init a) events) :
    Along step (Complete m) (init a) events := by
  have both := along_and step answered inStep
  refine along_invariant (I := fun s => ∃ app, Synced m s app) ?_ ?_ ⟨_,synced_init m a⟩ both
  · rintro s e ⟨app,synced⟩ ⟨answered,inStep⟩
    exact synced_step synced e answered inStep
  · rintro s e ⟨app,synced⟩ -
    cases e with
    | poll malloc block =>
      intro app' running ends id member
      rw [synced.running] at running
      cases running
      have all := synced.complete ends
      obtain ⟨nodes,p,as,lost,owned,keys⟩ := synced.owned
      have gathered : id ∈ s.gathered := by
        rw [all]
        exact member
      exact ⟨gathered,owned_found owned (keys id gathered)⟩
    | detect => trivial
    | moduleInit => trivial
    | detected => trivial
    | answer => trivial

/-! ### Waiting for the next query -/

def nothing : Mem := fun _ => 0

/-- The polls from one query to the next. -/
def round : List Event := List.replicate 19999 (.poll 0 nothing) ++ [.poll 0 nothing]

/-- The module is there and a query has just been sent. -/
def due (s : Net) : Bool :=
  match s.app with
  | .ok app => app.plc_detect_flag = 1 && app.read_cycle = 0
  | .error _ => false

def waiting (s : Net) : Net := { s with app := s.app.map fun app => { app with read_cycle := 19999 } }

def next (s : Net) : Net := (step (waiting s) (.poll 0 nothing)).1

theorem step_waits {s : Net} {app : App} (running : s.app = .ok app) (flag : app.plc_detect_flag = 1)
    (early : app.read_cycle+1 < 20000) :
    (step s (.poll 0 nothing)).1 = { s with app := .ok { app with read_cycle := app.read_cycle+1 } } := by
  have goesOn : ¬ Ends app := fun ends => ends.2.1 early
  simp only [step,running,poll,wg_plc_read_and_load_node_info,flag,ne_eq,not_true_eq_false,if_false,if_pos early,
    if_neg goesOn,List.filterMap_nil,List.append_nil]

theorem final_waits (k : Nat) : ∀ (s : Net) (app : App), s.app = .ok app → app.plc_detect_flag = 1 →
    app.read_cycle.toNat+k < 20000 → final step s (List.replicate k (.poll 0 nothing))
      = { s with app := .ok { app with read_cycle := app.read_cycle+UInt32.ofNat k } } := by
  induction k with
  | zero =>
    intro s app running flag early
    cases s
    cases app
    simp_all [final]
  | succ k ih =>
    intro s app running flag early
    have one : (app.read_cycle+1).toNat = app.read_cycle.toNat+1 := by
      rw [UInt32.toNat_add]
      simp
      omega
    have now : app.read_cycle+1 < 20000 := by
      rw [UInt32.lt_iff_toNat_lt,one]
      simp
      omega
    have rest := ih { s with app := .ok { app with read_cycle := app.read_cycle+1 } }
      { app with read_cycle := app.read_cycle+1 } rfl flag (by simp only [one]; omega)
    have sum : app.read_cycle+1+UInt32.ofNat k = app.read_cycle+UInt32.ofNat (k+1) := by
      rw [UInt32.ofNat_add,UInt32.add_assoc,UInt32.add_comm 1]
      rfl
    rw [List.replicate_succ,final,step_waits running flag now,rest,sum]

theorem final_waiting {s : Net} (isDue : due s = true) :
    final step s (List.replicate 19999 (.poll 0 nothing)) = waiting s := by
  unfold due at isDue
  split at isDue
  next app running =>
    simp only [Bool.and_eq_true,decide_eq_true_eq] at isDue
    rw [final_waits 19999 s app running isDue.1 (by rw [isDue.2]; decide)]
    simp only [waiting,running,isDue.2]
    rfl
  next => cases isDue

/-- What is used of a round: the polls before the last only wait. -/
structure Waits (polls : List Event) : Prop where
  final : ∀ s, due s = true → final step s polls = next s
  along : ∀ P : Net → Event → Prop, (∀ s, P s (.poll 0 nothing)) → ∀ s, Along step P s polls
  last : ∀ (P : Net → Event → Prop) (s : Net), due s = true → Along step P s polls → P (waiting s) (.poll 0 nothing)

theorem round_waits : Waits round where
  final := by
    intro s isDue
    rw [round,final_append,final_waiting isDue]
    rfl
  along := by
    intro P free
    have polls : ∀ (k : Nat) (s : Net), Along step P s (List.replicate k (.poll 0 nothing)) := by
      intro k
      induction k with
      | zero => exact fun _ => trivial
      | succ k ih => exact fun s => ⟨free s,ih _⟩
    intro s
    rw [round,along_append]
    exact ⟨polls _ s,polls 1 _⟩
  last := by
    intro P s isDue all
    rw [round,along_append,final_waiting isDue] at all
    exact all.2.1

theorem Waits.along_append {polls : List Event} (waits : Waits polls) {P : Net → Event → Prop}
    (free : ∀ s, P s (.poll 0 nothing)) {s : Net} (isDue : due s = true) (rest : List Event) :
    Along step P s (polls ++ rest) ↔ Along step P (next s) rest := by
  rw [Machine.along_append,waits.final s isDue]
  exact ⟨fun all => all.2,fun later => ⟨waits.along P free s,later⟩⟩

/-! ### Twenty-one nodes -/

def twentyOne : Master where
  ids := (List.range 21).map fun i _ => UInt8.ofNat (i+1)
  some_ := by simp
  small := by simp
  distinct := by
    refine List.Nodup.map_on ?_ List.nodup_range
    intro i low j low' same
    have byte := congrArg UInt8.toNat (congrFun same 0)
    simp only [UInt8.toNat_ofNat',List.mem_range] at byte low low'
    omega
  nonzero := by
    intro id member zero
    obtain ⟨i,low,rfl⟩ := List.mem_map.mp member
    have byte := congrArg UInt8.toNat (congrFun zero 0)
    simp only [UInt8.toNat_ofNat',List.mem_range,UInt8.toNat_zero] at byte low
    omega

def totalData : Mem := fun i => if i = 0 then 21 else 0

/-- The page of the nodes from `start` on. -/
def pageData (start count : Nat) : Mem :=
  fun i => if i = 2 then UInt8.ofNat count else if i < 3 then 0 else UInt8.ofNat (start+(i-3)/8+1)

def answerTotal : Event := .answer 0 id totalData
def answerFirst : Event := .answer 0 id (pageData 0 20)
def answerLast : Event := .answer 0 id (pageData 20 1)

instance (m : Master) (data : Mem) (q : Query) : Decidable (Answers m data q) := by
  cases q <;> (unfold Answers; infer_instance)

/-- Whether the first pending query has the given answer. -/
def fits (s : Net) (q : Query) (data : Mem) : Bool := s.pending.head? = some q && decide (Answers twentyOne data q)

theorem answered_fits {s : Net} {q : Query} {data : Mem} {malloc : Nat → Addr} (ok : fits s q data = true) :
    Answered twentyOne s (.answer 0 malloc data) := by
  simp only [fits,Bool.and_eq_true,decide_eq_true_eq] at ok
  refine ⟨q,?_,ok.2⟩
  rw [← List.head?_eq_getElem?]
  exact ok.1

/-- Whether the first pending query, if it is one for a page, is for the next one. -/
def onTime (s : Net) : Bool :=
  match s.app, s.pending.head? with
  | .ok app, some (.page start) => start = app.nodes.wg_node_info.index
  | _, _ => true

theorem inStep_onTime {s : Net} {data : Mem} {malloc : Nat → Addr} (ok : onTime s = true) :
    InStep s (.answer 0 malloc data) := by
  intro app start running pending
  rw [← List.head?_eq_getElem?] at pending
  simpa [onTime,running,pending] using ok

/-- The states from which a round of polls leads to the next query. -/
def s₁ : Net := final step (init 0) [.detected]
def s₂ : Net := (step (next s₁) answerTotal).1
def s₃ : Net := (step (next s₂) answerFirst).1
def s₄ : Net := (step (next s₃) answerLast).1

/-- A cycle in which each page comes in before the next query. -/
def prompt (polls : List Event) : List Event :=
  .detected :: (polls ++ answerTotal :: (polls ++ answerFirst :: (polls ++ answerLast :: (polls ++ []))))

theorem prompt_along {polls : List Event} (waits : Waits polls) {P : Net → Event → Prop}
    (free : ∀ s, P s (.poll 0 nothing)) (detected : P (init 0) .detected) (total : P (next s₁) answerTotal)
    (first : P (next s₂) answerFirst) (last : P (next s₃) answerLast) : Along step P (init 0) (prompt polls) := by
  refine ⟨detected,(waits.along_append free (s := s₁) (by decide +kernel) _).mpr ⟨total,?_⟩⟩
  refine (waits.along_append free (s := s₂) (by decide +kernel) _).mpr ⟨first,?_⟩
  refine (waits.along_append free (s := s₃) (by decide +kernel) _).mpr ⟨last,?_⟩
  exact (waits.along_append free (s := s₄) (by decide +kernel) _).mpr trivial

/-- Twenty-one nodes in two pages, each in time. -/
theorem paging_complete_prompt : Along step (Complete twentyOne) (init 0) (prompt round) := by
  refine paging_complete twentyOne 0 _ (prompt_along round_waits (fun _ => trivial) trivial ?_ ?_ ?_)
    (prompt_along round_waits (fun _ => trivial) trivial ?_ ?_ ?_)
  · exact answered_fits (q := .total) (by decide +kernel)
  · exact answered_fits (q := .page 0) (by decide +kernel)
  · exact answered_fits (q := .page 20) (by decide +kernel)
  · exact inStep_onTime (by decide +kernel)
  · exact inStep_onTime (by decide +kernel)
  · exact inStep_onTime (by decide +kernel)

/-- The first page is asked for twice before the answers come in. -/
def late (polls : List Event) : List Event :=
  .detected :: (polls ++ answerTotal :: (polls ++ (polls ++ answerFirst :: answerFirst :: polls)))

/-- The states after one and after both answers to the query for the first page. -/
def once : Net := (step (next (next s₂)) answerFirst).1
def twice : Net := (step once answerFirst).1

theorem late_answered {polls : List Event} (waits : Waits polls) :
    Along step (Answered twentyOne) (init 0) (late polls) := by
  have free : ∀ s, Answered twentyOne s (.poll 0 nothing) := fun _ => trivial
  refine ⟨trivial,(waits.along_append free (s := s₁) (by decide +kernel) _).mpr ⟨?_,?_⟩⟩
  · exact answered_fits (q := .total) (by decide +kernel)
  refine (waits.along_append free (s := s₂) (by decide +kernel) _).mpr ?_
  refine (waits.along_append free (s := next s₂) (by decide +kernel) _).mpr ⟨?_,?_,?_⟩
  · exact answered_fits (q := .page 0) (by decide +kernel)
  · exact answered_fits (q := .page 0) (by decide +kernel)
  · exact waits.along _ free _

/-- In the late run, what holds along it holds in the poll that ends the cycle. -/
theorem late_last {polls : List Event} (waits : Waits polls) {P : Net → Event → Prop}
    (all : Along step P (init 0) (late polls)) : P (waiting twice) (.poll 0 nothing) := by
  have first := (Machine.along_append step P s₁ polls _).mp all.2
  rw [waits.final s₁ (by decide +kernel)] at first
  have second := (Machine.along_append step P s₂ polls _).mp first.2.2
  rw [waits.final s₂ (by decide +kernel)] at second
  have third := (Machine.along_append step P (next s₂) polls _).mp second.2
  rw [waits.final (next s₂) (by decide +kernel)] at third
  exact waits.last P twice (by decide +kernel) third.2.2.2

/-- Whether the next poll ends a cycle. -/
def ending (s : Net) : Bool :=
  match s.app with
  | .ok app => decide (Ends app)
  | .error _ => false

theorem late_ending : ending (waiting twice) = true ∧ (fun _ => 21) ∉ (waiting twice).gathered := by
  decide +kernel

/-- Both answers are to queries that were sent, the second query having been sent
    before the first answer came in. The cycle ends after forty nodes were counted,
    and the twenty-first was not received. -/
theorem paging_incomplete :
    Along step (Answered twentyOne) (init 0) (late round) ∧ ¬ Along step (Complete twentyOne) (init 0) (late round) := by
  refine ⟨late_answered round_waits,fun complete => ?_⟩
  have last := late_last round_waits complete
  obtain ⟨ends,missing⟩ := late_ending
  cases running : (waiting twice).app with
  | error fault => simp [ending,running] at ends
  | ok app =>
    have ended : Ends app := by simpa [ending,running] using ends
    have member : (fun _ => 21) ∈ twentyOne.ids := List.mem_map.mpr ⟨20,by decide,rfl⟩
    exact missing (last app running ended _ member).1

end Ucm108e.Paging
