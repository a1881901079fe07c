import Mathlib
import Ucm108e.Cco
import Ucm108e.NodeOwnership

/-!
When the concentrator application calls or follows a null pointer. Four function
codes have an entry without a handler, and if `wg_node_init` has found no memory,
the first node that is reported is looked up behind a null header. The upload is
no danger then, as no cycle comes to its end.
-/
namespace Ucm108e.CcoSafety
open Ucm108e.Bytes Ucm108e.Keyed Ucm108e.Packer Ucm108e.Linked Ucm108e.WgPhase Ucm108e.NodeHeap
open Ucm108e.NodeOwnership (Owned owned_init recv_owned upload_owned)
open Ucm108e.Gdw13762 Ucm108e.Thread Ucm108e.Machine Ucm108e.Cco
set_option linter.unusedSimpArgs false

/-- The node list is in order, or there is no header and no node was ever counted. -/
inductive Ready (s : NodeHeap.State) : Prop
  | headless (missing : s.heap.node_header = none) (none_read : s.wg_node_info.index = 0)
  | owned {nodes : Nodes} {p : Addr} {as lost : List Addr} (owned : Owned s.heap nodes p as lost)

theorem ready_init (malloc : Option Addr) : Ready (elec_cco_init malloc).nodes := by
  cases malloc with
  | none => exact .headless rfl rfl
  | some a => exact .owned (owned_init a)

/-! ### The task -/

theorem detect_nodes (s : App) : (wg_plc_mudule_detect s).1.nodes = s.nodes := by
  by_cases due : s.detect_cycle+1 > 30000
  · by_cases silent : s.wg_plc_detect_cnt+1 ≥ 3
    · simp [wg_plc_mudule_detect,due,silent,plc_detect_flag_clr]
    · simp [wg_plc_mudule_detect,due,silent]
  · simp [wg_plc_mudule_detect,due]

theorem init_nodes (s : App) : (wg_plc_mudule_init s).1.nodes = s.nodes := by
  by_cases changed : s.last_plc_state ≠ s.plc_detect_flag <;> simp [wg_plc_mudule_init,changed]

theorem load_ready (malloc : Option Addr) (block : Mem) {s : App} (ready : Ready s.nodes) :
    ∃ s' sends, wg_plc_read_and_load_node_info malloc block s = .ok (s',sends) ∧ Ready s'.nodes := by
  have load := load_cases malloc block s
  generalize wg_plc_read_and_load_node_info malloc block s = result at load
  cases load with
  | down => exact ⟨_,_,rfl,ready⟩
  | waits => exact ⟨_,_,rfl,ready⟩
  | asksTotal => exact ⟨_,_,rfl,ready⟩
  | asksPage => exact ⟨_,_,rfl,ready⟩
  | ends _ _ known all =>
    -- the cycle ends, so nodes have been counted and there is a header
    cases ready with
    | headless missing none_read =>
      rw [none_read] at all
      exact absurd (UInt16.pos_iff_ne_zero.mpr known) all
    | owned owned =>
      obtain ⟨heap,new,run,after,-⟩ := upload_owned owned malloc block
      rw [run]
      exact ⟨_,_,rfl,.owned after⟩

/-- A poll of the task always comes to its end, and sends what its three parts send. -/
theorem task_ready (malloc : Option Addr) (block : Mem) {s : App} (ready : Ready s.nodes) :
    ∃ s' load,
      wg_plc_read_and_load_node_info malloc block (wg_plc_mudule_init (wg_plc_mudule_detect s).1).1 = .ok (s',load)
      ∧ elec_cco_task malloc block s
        = .ok (s',(wg_plc_mudule_detect s).2 ++ (wg_plc_mudule_init (wg_plc_mudule_detect s).1).2 ++ load)
      ∧ Ready s'.nodes := by
  have before : Ready (wg_plc_mudule_init (wg_plc_mudule_detect s).1).1.nodes := by
    rw [init_nodes,detect_nodes]
    exact ready
  obtain ⟨s',load,run,after⟩ := load_ready malloc block before
  refine ⟨s',load,run,?_,after⟩
  simp only [elec_cco_task,run]
  rfl

/-! ### Received frames -/

/-- The function codes whose entries in `elec_cco_recvfn` have no handler. -/
def unhandled : List UInt8 := [0x04,0x05,0x06,0x10]

/-- A frame that the application can take: its code has a handler or no entry,
    and it reports no nodes where there is no header. -/
def Supported (s : App) (w : S13762Format) : Prop :=
  w.afn ∉ unhandled
    ∧ (s.nodes.heap.node_header = none → w.afn = 0xf0 → w.fn ≠ FN 9 → w.data 2 = 0)

/-- What the table has for a function code. -/
theorem dispatch (afn : UInt8) :
    (elec_cco_recvfn.find? fun entry => afn = entry.1) =
      if afn = 0x00 then some (0x00,some .elec_cco_recv_confirm)
      else if afn = 0x02 then some (0x02,some .elec_cco_recv_transfer)
      else if afn = 0x03 then some (0x03,some .elec_cco_recv_query)
      else if afn ∈ unhandled then some (afn,none)
      else if afn = 0xf0 then some (0xf0,some .elec_cco_recv_test)
      else none := by
  revert afn
  decide +kernel

theorem recv_headless (malloc : Nat → Option Addr) (fn : UInt16) (data : Mem) {s : NodeHeap.State}
    (missing : s.heap.node_header = none) (none_read : s.wg_node_info.index = 0) :
    (fn ≠ FN 9 → data 2 = 0) ∧ (∃ s', NodeHeap.wg_plc_recv_node_info malloc fn data s = .ok s' ∧ s'.heap = s.heap
        ∧ s'.wg_node_info.index = 0)
    ∨ ¬ (fn ≠ FN 9 → data 2 = 0) ∧ NodeHeap.wg_plc_recv_node_info malloc fn data s = .error .nullDereference := by
  by_cases total : fn = FN 9
  · left
    exact ⟨fun other => absurd total other,_,if_pos total,rfl,none_read⟩
  · by_cases zero : data 2 = 0
    · left
      refine ⟨fun _ => zero,{ s with wg_node_info := { s.wg_node_info with ack_num := 0 } },?_,rfl,none_read⟩
      simp [NodeHeap.wg_plc_recv_node_info,total,zero]
    · right
      refine ⟨fun free => zero (free total),?_⟩
      have positive : (data 2).toNat ≠ 0 := fun none => zero (UInt8.toNat_inj.mp none)
      have any : (data 2).toUInt16 > 0 := count_pos.mpr (by omega)
      obtain ⟨left,count⟩ := Nat.exists_eq_succ_of_ne_zero positive
      simp only [NodeHeap.wg_plc_recv_node_info,if_neg total,if_pos any,UInt8.toNat_toUInt16,count]
      simp only [NodeHeap.recvLoop,NodeHeap.recvNode,wg_node_find_base_id,Heap.header,missing]
      rfl

theorem recv_supported (malloc : Nat → Option Addr) (w : S13762Format) {s : App} (ready : Ready s.nodes) :
    Supported s w ∧ (∃ s', elec_cco_recv malloc w s = .ok s' ∧ Ready s'.nodes)
    ∨ ¬ Supported s w ∧ ∃ fault, fault ≠ .endless ∧ elec_cco_recv malloc w s = .error fault := by
  have table := dispatch w.afn
  by_cases absent : w.afn ∈ unhandled
  · right
    have others : w.afn ≠ 0x00 ∧ w.afn ≠ 0x02 ∧ w.afn ≠ 0x03 := by
      simp only [unhandled,List.mem_cons,List.not_mem_nil,or_false] at absent
      rcases absent with eq | eq | eq | eq <;> rw [eq] <;> decide
    rw [if_neg others.1,if_neg others.2.1,if_neg others.2.2,if_pos absent] at table
    exact ⟨fun supported => supported.1 absent,.nullCall,by decide,by rw [elec_cco_recv,table]⟩
  by_cases test : w.afn = 0xf0
  · rw [test] at table
    simp only [unhandled] at table
    cases ready with
    | headless missing none_read =>
      rcases recv_headless malloc w.fn w.data missing none_read with ⟨few,nodes,run,heap,index⟩ | ⟨many,run⟩
      · left
        refine ⟨⟨absent,fun _ _ => few⟩,{ s with nodes := nodes },?_,.headless (heap ▸ missing) index⟩
        simp only [elec_cco_recv,test,table,handle,run]
        rfl
      · right
        refine ⟨fun supported => many (supported.2 missing test),.nullDereference,by decide,?_⟩
        simp only [elec_cco_recv,test,table,handle,run]
        rfl
    | owned owned =>
      obtain ⟨nodes,more,new,run,-,after,-⟩ := recv_owned owned malloc w.fn w.data
      left
      refine ⟨⟨absent,fun missing => absurd (missing ▸ owned.header) (by simp)⟩,{ s with nodes := nodes },?_,.owned after⟩
      simp only [elec_cco_recv,test,table,handle,run]
      rfl
  · left
    refine ⟨⟨absent,fun _ test' => absurd test' test⟩,?_⟩
    rw [if_neg absent,if_neg test] at table
    by_cases confirm : w.afn = 0x00
    · rw [if_pos confirm] at table
      exact ⟨s,by rw [elec_cco_recv,table]; rfl,ready⟩
    by_cases transfer : w.afn = 0x02
    · rw [if_neg confirm,if_pos transfer] at table
      exact ⟨s,by rw [elec_cco_recv,table]; rfl,ready⟩
    by_cases query : w.afn = 0x03
    · rw [if_neg confirm,if_neg transfer,if_pos query] at table
      refine ⟨if w.fn = FN 10 then plc_detect_flag_set s else s,by rw [elec_cco_recv,table]; rfl,?_⟩
      split <;> exact ready
    · rw [if_neg confirm,if_neg transfer,if_neg query] at table
      exact ⟨s,by rw [elec_cco_recv,table],ready⟩

/-! ### Runs of the thread -/

/-- No null pointer is called or followed in the turn, or was before. -/
def NoNull (cfg : Config) (s : System) (x : CcoTurn) : Prop :=
  (step cfg s x).1.app ≠ .error .nullCall ∧ (step cfg s x).1.app ≠ .error .nullDereference

/-- The frame that `elec_cco_recv` is called with in a turn, if any, is one that
    the application can take. -/
def Handled (cfg : Config) (s : System) (x : CcoTurn) : Prop :=
  ∀ w app, received cfg s x = some w → s.app = .ok app → Supported app w

def InOrder (s : System) : Prop := ∃ app, s.app = .ok app ∧ Ready app.nodes

theorem step_app (cfg : Config) (s : System) (x : CcoTurn) :
    (step cfg s x).1.app = (s.app.bind (appTurn (received cfg s x) x)).map Prod.fst := by
  unfold step
  split
  next run => rw [run]; rfl
  next run => rw [run]; rfl

theorem noNull_of_ok {cfg : Config} {s : System} {x : CcoTurn} {app : App} (done : (step cfg s x).1.app = .ok app) :
    NoNull cfg s x := by
  rw [NoNull,done]
  exact ⟨nofun,nofun⟩

theorem null_of_error {cfg : Config} {s : System} {x : CcoTurn} {fault : Fault} (ends : fault ≠ .endless)
    (failed : (step cfg s x).1.app = .error fault) : ¬ NoNull cfg s x := by
  rintro ⟨noCall,noDereference⟩
  cases fault with
  | nullCall => exact noCall failed
  | nullDereference => exact noDereference failed
  | endless => exact ends rfl

theorem no_null_step (cfg : Config) (s : System) (x : CcoTurn) (inOrder : InOrder s) :
    (NoNull cfg s x ↔ Handled cfg s x) ∧ (NoNull cfg s x → InOrder (step cfg s x).1) := by
  obtain ⟨app,running,ready⟩ := inOrder
  have run : (step cfg s x).1.app = (appTurn (received cfg s x) x app).map Prod.fst := by
    rw [step_app,running]
    rfl
  have finish : ∀ app', Ready app'.nodes → ∃ app'', (elec_cco_task x.task_malloc x.task_block app').map Prod.fst = .ok app''
      ∧ Ready app''.nodes := by
    intro app' ready'
    obtain ⟨app'',load,-,task,after⟩ := task_ready x.task_malloc x.task_block ready'
    exact ⟨app'',by rw [task]; rfl,after⟩
  cases frame : received cfg s x with
  | none =>
    rw [frame] at run
    obtain ⟨app',task,after⟩ := finish app ready
    have done : (step cfg s x).1.app = .ok app' := run.trans task
    refine ⟨iff_of_true (noNull_of_ok done) ?_,fun _ => ⟨app',done,after⟩⟩
    intro w _ none
    rw [frame] at none
    cases none
  | some w =>
    rw [frame] at run
    have handled_iff : Handled cfg s x ↔ Supported app w := by
      constructor
      · intro handled
        exact handled w app frame running
      · intro supported w' app' frame' running'
        rw [frame] at frame'
        rw [running] at running'
        cases frame'
        cases running'
        exact supported
    rcases recv_supported x.recv_malloc w ready with ⟨supported,app₁,recv,ready₁⟩ | ⟨unsupported,fault,ends,recv⟩
    · obtain ⟨app',task,after⟩ := finish app₁ ready₁
      have done : (step cfg s x).1.app = .ok app' := by
        rw [run,← task]
        simp only [appTurn,recv]
        rfl
      exact ⟨iff_of_true (noNull_of_ok done) (handled_iff.mpr supported),fun _ => ⟨app',done,after⟩⟩
    · have failed : (step cfg s x).1.app = .error fault := by
        rw [run]
        simp only [appTurn,recv]
        rfl
      have faulty := null_of_error ends failed
      exact ⟨iff_of_false faulty (mt handled_iff.mp unsupported),fun none => absurd none faulty⟩

/-- A run of the thread never calls or follows a null pointer exactly when every
    frame that `elec_cco_recv` is called with is one that it can take. -/
theorem no_null_iff (cfg : Config) (malloc : Option Addr) (buf : Mem) (data_buf : S13762Format) (turns : List CcoTurn) :
    Along (step cfg) (NoNull cfg) (init malloc buf data_buf) turns
      ↔ Along (step cfg) (Handled cfg) (init malloc buf data_buf) turns := by
  refine along_iff_of_invariant (I := InOrder) ?_ ?_ ⟨_,rfl,ready_init malloc⟩ turns
  · intro s x inOrder none
    exact (no_null_step cfg s x inOrder).2 none
  · intro s x inOrder
    exact (no_null_step cfg s x inOrder).1

/-! ### A frame without a handler, and a node without a header -/

def blank : S13762Format := ⟨0,fun _ => 0,0,0,0,fun _ => 0⟩

/-- The turns in which a frame comes in, in three polls, with memory for it and
    none for the application. -/
def frameTurns (head len body : List UInt8) : List CcoTurn :=
  [head,len,body].map fun bytes => ⟨⟨bytes,some blank⟩,fun _ => none,none,fun _ => 0⟩

/-- A link check: function code 04, function 1. -/
def linkCheck : List CcoTurn := frameTurns [0x68] [15,0] [0x41,0,0,0,0,0,0,4,1,0,0x46,0x16]

/-- The answer to the query for a page, with one node: function code f0, function 23. -/
def onePage : List CcoTurn :=
  frameTurns [0x68] [26,0] [0x41,0,0,0,0,0,0,0xf0,0x40,0x02,1,0,1,1,2,3,4,5,6,0,1,0x8b,0x16]

/-- What has ended a run. -/
def faultOf (s : System) : Option Fault :=
  match s.app with
  | .ok _ => none
  | .error fault => some fault

theorem null_run {cfg : Config} {s : System} {turns : List CcoTurn} {fault : Fault} (ends : fault ≠ .endless)
    (ended : faultOf (final (step cfg) s turns) = some fault) (started : faultOf s = none) :
    ¬ Along (step cfg) (NoNull cfg) s turns := by
  induction turns generalizing s with
  | nil =>
    rw [final,started] at ended
    cases ended
  | cons x rest ih =>
    rintro ⟨now,later⟩
    cases next : (step cfg s x).1.app with
    | ok app => exact ih ended (by rw [faultOf,next]) later
    | error fault' =>
      -- a run that has ended stays as it is
      have stays : ∀ (turns : List CcoTurn) (t : System), t.app = .error fault' →
          (final (step cfg) t turns).app = .error fault' := by
        intro turns
        induction turns with
        | nil => exact fun t failed => failed
        | cons y rest again =>
          intro t failed
          exact again _ (by rw [step_app,failed]; rfl)
      have same : some fault' = some fault := by
        rw [← ended,final,faultOf,stays rest _ next]
      cases same
      exact null_of_error ends next now

/-- Both runs are of valid frames, with every byte served as it was asked for. In
    the first, `elec_cco_recv` calls a null pointer; in the second, `wg_node_init`
    has found no memory and the search for the node follows a null pointer. -/
theorem null_reached :
    (Along (step defaultConfig) (fun s x => Served s.thread.pack x.turn.bytes
        ∧ Completing defaultConfig .cco s.thread x.turn) (init (some 0) (fun _ => 0) blank) linkCheck
      ∧ faultOf (final (step defaultConfig) (init (some 0) (fun _ => 0) blank) linkCheck) = some .nullCall
      ∧ ¬ Along (step defaultConfig) (NoNull defaultConfig) (init (some 0) (fun _ => 0) blank) linkCheck)
    ∧ (Along (step defaultConfig) (fun s x => Served s.thread.pack x.turn.bytes
        ∧ Completing defaultConfig .cco s.thread x.turn) (init none (fun _ => 0) blank) onePage
      ∧ faultOf (final (step defaultConfig) (init none (fun _ => 0) blank) onePage) = some .nullDereference
      ∧ ¬ Along (step defaultConfig) (NoNull defaultConfig) (init none (fun _ => 0) blank) onePage) := by
  have linkFault : faultOf (final (step defaultConfig) (init (some 0) (fun _ => 0) blank) linkCheck) = some .nullCall := by
    decide +kernel
  have pageFault : faultOf (final (step defaultConfig) (init none (fun _ => 0) blank) onePage) = some .nullDereference := by
    decide +kernel
  refine ⟨⟨⟨?_,?_,?_,trivial⟩,linkFault,null_run (by decide) linkFault rfl⟩,⟨⟨?_,?_,?_,trivial⟩,pageFault,null_run (by decide) pageFault rfl⟩⟩
  · exact ⟨by decide +kernel,fun at2 => by cases at2⟩
  · exact ⟨by decide +kernel,fun at2 => by cases at2⟩
  · exact ⟨by decide +kernel,fun _ _ _ => ⟨⟨by decide,by decide,by decide⟩,by decide⟩⟩
  · exact ⟨by decide +kernel,fun at2 => by cases at2⟩
  · exact ⟨by decide +kernel,fun at2 => by cases at2⟩
  · exact ⟨by decide +kernel,fun _ _ _ => ⟨⟨by decide,by decide,by decide⟩,by decide⟩⟩

end Ucm108e.CcoSafety
