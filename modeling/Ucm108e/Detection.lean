import Mathlib
import Ucm108e.CcoSafety

/-!
How the concentrator application follows the carrier module. The module counts
as present from its answer to a query until three more queries have been sent,
through any wrap of the counter of queries. The initialisation is sent when the
flag has changed since the last poll, in either direction: not only when the
module comes up, but also when it is declared failed.
-/
namespace Ucm108e.Detection
open Ucm108e.Bytes Ucm108e.WgPhase Ucm108e.NodeHeap Ucm108e.Gdw13762 Ucm108e.Machine Ucm108e.Cco Ucm108e.CcoSafety
set_option linter.unusedSimpArgs false

/-! ### One poll of the detection -/

def detectQuery : Send := ⟨GDW1376_2_AFN_QUERY_0x03,FN 10,[]⟩

/-- A poll either only counts, or sends the query and counts it. -/
inductive DetectCases (s : App) : App × List Send → Prop
  | waits (early : ¬ s.detect_cycle+1 > 30000) : DetectCases s ({ s with detect_cycle := s.detect_cycle+1 },[])
  | asks (due : s.detect_cycle+1 > 30000) (few : ¬ s.wg_plc_detect_cnt+1 ≥ 3) :
    DetectCases s ({ s with detect_cycle := 0, wg_plc_detect_cnt := s.wg_plc_detect_cnt+1 },[detectQuery])
  | fails (due : s.detect_cycle+1 > 30000) (third : s.wg_plc_detect_cnt+1 ≥ 3) :
    DetectCases s
      ({ s with detect_cycle := 0, wg_plc_detect_cnt := s.wg_plc_detect_cnt+1, plc_detect_flag := 0 },[detectQuery])

theorem detect_cases (s : App) : DetectCases s (wg_plc_mudule_detect s) := by
  by_cases due : s.detect_cycle+1 > 30000
  · by_cases third : s.wg_plc_detect_cnt+1 ≥ 3
    · simp only [wg_plc_mudule_detect,if_pos due,if_pos third]
      exact .fails due third
    · simp only [wg_plc_mudule_detect,if_pos due,if_neg third]
      exact .asks due third
  · simp only [wg_plc_mudule_detect,if_neg due]
    exact .waits due

theorem cnt_third (c : UInt8) : c+1 ≥ 3 ↔ 2 ≤ c.toNat ∧ c.toNat < 255 := by
  have small := c.toNat_lt
  have three : (3 : UInt8).toNat = 3 := rfl
  rw [ge_iff_le,UInt8.le_iff_toNat_le,UInt8.toNat_add,UInt8.toNat_one,three]
  omega

theorem cnt_succ {c : UInt8} (small : c.toNat < 255) : (c+1).toNat = c.toNat+1 := by
  rw [UInt8.toNat_add,UInt8.toNat_one]
  omega

/-! ### The flag -/

/-- What happens to the flag: a poll, or the answer of the module. -/
inductive Act where
  | poll
  | answer

/-- What is seen of it: the query is sent, the flag is set. -/
inductive Mark where
  | query
  | set
  deriving DecidableEq

def act (s : App) : Act → App × Option Mark
  | .poll => ((wg_plc_mudule_detect s).1,if detectQuery ∈ (wg_plc_mudule_detect s).2 then some .query else none)
  | .answer => (plc_detect_flag_set s,some .set)

/-- The state after the marks `t`: the flag has not been set, or the queries since
    then are counted until the third of them. -/
structure Watched (s : App) (t : List Mark) : Prop where
  unset : Mark.set ∉ t → s.plc_detect_flag = 0
  up : ∀ {before after}, t = before ++ Mark.set :: after → Mark.set ∉ after → after.count .query < 3 →
    s.plc_detect_flag = 1 ∧ s.wg_plc_detect_cnt.toNat = after.count .query
  down : ∀ {before after}, t = before ++ Mark.set :: after → Mark.set ∉ after → 3 ≤ after.count .query →
    s.plc_detect_flag = 0

theorem watched_set {s : App} {t : List Mark} : Watched (plc_detect_flag_set s) (t ++ [Mark.set]) := by
  have last : ∀ {before after : List Mark}, t ++ [Mark.set] = before ++ Mark.set :: after → Mark.set ∉ after →
      after = [] := by
    intro before after split none
    rcases List.eq_nil_or_concat' after with rfl | ⟨rest,mark,rfl⟩
    · rfl
    · rw [← List.cons_append,← List.append_assoc] at split
      obtain rfl : mark = .set := (List.append_inj_right' split rfl |> List.cons.inj).1.symm
      exact absurd (by simp) none
  constructor
  · intro none
    exact absurd (by simp) none
  · intro before after split none _
    obtain rfl := last split none
    exact ⟨rfl,rfl⟩
  · intro before after split none many
    obtain rfl := last split none
    cases many

/-- The parts of a history that ends in a query. -/
theorem split_query {t before after : List Mark} (split : t ++ [Mark.query] = before ++ Mark.set :: after)
    (none : Mark.set ∉ after) :
    ∃ rest, after = rest ++ [Mark.query] ∧ t = before ++ Mark.set :: rest ∧ Mark.set ∉ rest := by
  rcases List.eq_nil_or_concat' after with rfl | ⟨rest,mark,rfl⟩
  · cases List.append_inj_right' split rfl
  · rw [← List.cons_append,← List.append_assoc] at split
    obtain ⟨same,ends⟩ := List.append_inj' split rfl
    cases ends
    exact ⟨rest,rfl,same,fun member => none (List.mem_append_left _ member)⟩

theorem watched_query {s s' : App} {t : List Mark} (watched : Watched s t)
    (cnt : s'.wg_plc_detect_cnt = s.wg_plc_detect_cnt+1)
    (flag : s'.plc_detect_flag = if s.wg_plc_detect_cnt+1 ≥ 3 then 0 else s.plc_detect_flag) :
    Watched s' (t ++ [Mark.query]) := by
  have stays : s.plc_detect_flag = 0 → s'.plc_detect_flag = 0 := by
    intro zero
    rw [flag,zero,ite_self]
  constructor
  · intro none
    exact stays (watched.unset fun member => none (List.mem_append_left _ member))
  · intro before after split none few
    obtain ⟨rest,rfl,same,none'⟩ := split_query split none
    rw [List.count_append,List.count_singleton_self] at few ⊢
    obtain ⟨one,counted⟩ := watched.up same none' (by omega)
    have notThird : ¬ s.wg_plc_detect_cnt+1 ≥ 3 := by
      rw [cnt_third]
      omega
    rw [flag,if_neg notThird,cnt,cnt_succ (by omega)]
    exact ⟨one,by rw [counted]⟩
  · intro before after split none many
    obtain ⟨rest,rfl,same,none'⟩ := split_query split none
    rw [List.count_append,List.count_singleton_self] at many
    by_cases earlier : 3 ≤ rest.count .query
    · exact stays (watched.down same none' earlier)
    · obtain ⟨-,counted⟩ := watched.up same none' (by omega)
      rw [flag,if_pos]
      rw [cnt_third]
      omega

theorem watched_act (s : App) (t : List Mark) (a : Act) (watched : Watched s t) :
    Watched (act s a).1 (t ++ (act s a).2.toList) := by
  cases a with
  | answer => exact watched_set
  | poll =>
    have poll := detect_cases s
    simp only [act]
    generalize wg_plc_mudule_detect s = result at poll
    cases poll with
    | waits early =>
      simp only [List.not_mem_nil,if_false,Option.toList_none,List.append_nil]
      exact ⟨watched.unset,watched.up,watched.down⟩
    | asks due few =>
      simp only [List.mem_singleton,if_true,Option.toList_some]
      exact watched_query watched rfl (if_neg few).symm
    | fails due third =>
      simp only [List.mem_singleton,if_true,Option.toList_some]
      exact watched_query watched rfl (if_pos third).symm

/-- After any run the module counts as present exactly when the flag has been set
    and fewer than three queries were sent since it last was. -/
theorem flag_iff (malloc : Option Addr) (acts : List Act) :
    (final act (elec_cco_init malloc) acts).plc_detect_flag = 1
      ↔ ∃ before after, outputs act (elec_cco_init malloc) acts = before ++ Mark.set :: after ∧ Mark.set ∉ after
        ∧ after.count .query < 3 := by
  have start : Watched (elec_cco_init malloc) [] := ⟨fun _ => rfl,fun split => by simp at split,fun split => by simp at split⟩
  have watched := history_invariant watched_act start acts
  rw [List.nil_append] at watched
  constructor
  · intro one
    by_cases ever : Mark.set ∈ outputs act (elec_cco_init malloc) acts
    · -- the last of the marks that set the flag
      obtain ⟨before,after,split,none⟩ := List.eq_append_cons_of_mem (List.mem_reverse.mpr ever)
      have split' := congrArg List.reverse split
      rw [List.reverse_reverse,List.reverse_append,List.reverse_cons,List.append_assoc,List.singleton_append]
        at split'
      refine ⟨after.reverse,before.reverse,split',by simpa using none,?_⟩
      by_contra many
      rw [watched.down split' (by simpa using none) (by omega)] at one
      cases one
    · rw [watched.unset ever] at one
      cases one
  · rintro ⟨before,after,split,none,few⟩
    exact (watched.up split none few).1

/-! ### The initialisation -/

/-- How often the master address is set and the whitelist turned off right after it. -/
def initialisations : List Send → Nat
  | first :: second :: rest =>
    (if first = wg_plc_set_master_addr ∧ second = wg_plc_whitelist_set 0 then 1 else 0) + initialisations (second :: rest)
  | _ => 0

theorem initialisations_skip {x : Send} (other : x ≠ wg_plc_set_master_addr) (rest : List Send) :
    initialisations (x :: rest) = initialisations rest := by
  cases rest with
  | nil => rfl
  | cons y rest => simp [initialisations,other]

theorem initialisations_skip_all {others : List Send} (other : ∀ x ∈ others, x ≠ wg_plc_set_master_addr)
    (rest : List Send) : initialisations (others ++ rest) = initialisations rest := by
  induction others with
  | nil => rfl
  | cons x others ih =>
    rw [List.cons_append,initialisations_skip (other x (by simp))]
    exact ih fun y member => other y (by simp [member])

theorem initialisations_one {sends : List Send} (others : ∀ x ∈ sends, x ≠ wg_plc_set_master_addr) :
    initialisations ([wg_plc_set_master_addr,wg_plc_whitelist_set 0] ++ sends) = 1 := by
  have rest := initialisations_skip_all others []
  rw [List.append_nil] at rest
  have skip := initialisations_skip (show wg_plc_whitelist_set 0 ≠ wg_plc_set_master_addr by decide) sends
  simp only [List.cons_append,List.nil_append,initialisations,and_self,if_true,skip,rest]

/-- What the application meets: a frame, or a poll of its task. -/
inductive Event where
  | frame (w : S13762Format) (malloc : Nat → Option Addr)
  | poll (malloc : Option Addr) (block : Mem)

def appStep (s : Except Fault App) : Event → Except Fault App × Option (List Send)
  | .frame w malloc => (s.bind (elec_cco_recv malloc w),none)
  | .poll malloc block =>
    match s.bind (elec_cco_task malloc block) with
    | .ok (app,sends) => (.ok app,some sends)
    | .error fault => (.error fault,none)

/-- The flag that `wg_plc_mudule_init` finds in a poll. -/
def polled : Except Fault App → Event → Option UInt8
  | .ok app, .poll _ _ => some (wg_plc_mudule_detect app).1.plc_detect_flag
  | _, _ => none

/-- How often a sequence of values that starts after `prev` changes from 0 to 1. -/
def rises : UInt8 → List UInt8 → Nat
  | _, [] => 0
  | prev, value :: rest => (if prev = 0 ∧ value = 1 then 1 else 0) + rises value rest

/-- The poll declares the module failed: its query is at least the third without
    an answer. -/
def DeclaresFailed : Except Fault App → Event → Prop
  | .ok app, .poll _ _ => app.detect_cycle+1 > 30000 ∧ app.wg_plc_detect_cnt+1 ≥ 3
  | _, _ => False

/-- The poll does not find the module up at the end of its time with two queries
    without an answer. -/
def StaysUp : Except Fault App → Event → Prop
  | .ok app, .poll _ _ => ¬ (app.last_plc_state = 1 ∧ app.detect_cycle = 30000 ∧ app.wg_plc_detect_cnt = 2)
  | _, _ => True

/-- Where the application is between its calls: the last poll has seen the flag
    unless it was set since. -/
structure Settled (s : App) : Prop where
  ready : Ready s.nodes
  flag : s.plc_detect_flag = 0 ∨ s.plc_detect_flag = 1
  last : s.last_plc_state = 0 ∨ s.last_plc_state = 1 ∧ s.plc_detect_flag = 1
  cycle : s.detect_cycle.toNat ≤ 30000
  counted : s.plc_detect_flag = 1 → s.wg_plc_detect_cnt.toNat < 3

theorem settled_init (malloc : Option Addr) : Settled (elec_cco_init malloc) :=
  ⟨ready_init malloc,Or.inl rfl,Or.inl rfl,Nat.zero_le _,nofun⟩

theorem cycle_due {c : UInt32} (low : c.toNat ≤ 30000) : c+1 > 30000 ↔ c = 30000 := by
  have limit : (30000 : UInt32).toNat = 30000 := rfl
  rw [gt_iff_lt,UInt32.lt_iff_toNat_lt,UInt32.toNat_add,UInt32.toNat_one,limit,← UInt32.toNat_inj,limit]
  omega

/-- A poll of the detection from a settled state. -/
theorem detect_settled {s : App} (settled : Settled s) :
    (wg_plc_mudule_detect s).1.detect_cycle.toNat ≤ 30000
      ∧ ((wg_plc_mudule_detect s).1.plc_detect_flag = 0
        ∨ (wg_plc_mudule_detect s).1.plc_detect_flag = 1 ∧ (wg_plc_mudule_detect s).1.wg_plc_detect_cnt.toNat < 3)
      ∧ (wg_plc_mudule_detect s).1.last_plc_state = s.last_plc_state
      ∧ ∀ x ∈ (wg_plc_mudule_detect s).2, x ≠ wg_plc_set_master_addr := by
  have poll := detect_cases s
  generalize wg_plc_mudule_detect s = result at poll
  cases poll with
  | waits early =>
    have same : s.plc_detect_flag = 0 ∨ s.plc_detect_flag = 1 ∧ s.wg_plc_detect_cnt.toNat < 3 :=
      settled.flag.imp_right fun one => ⟨one,settled.counted one⟩
    refine ⟨?_,same,rfl,by simp⟩
    have limit : (30000 : UInt32).toNat = 30000 := rfl
    rw [gt_iff_lt,UInt32.lt_iff_toNat_lt,limit] at early
    show (s.detect_cycle+1).toNat ≤ 30000
    omega
  | asks due few =>
    refine ⟨Nat.zero_le _,settled.flag.imp_right fun one => ⟨one,?_⟩,rfl,by simp; decide⟩
    have below := settled.counted one
    rw [cnt_third] at few
    show (s.wg_plc_detect_cnt+1).toNat < 3
    rw [cnt_succ (by omega)]
    omega
  | fails due third => exact ⟨Nat.zero_le _,Or.inl rfl,rfl,by simp; decide⟩

/-- Reading the nodes changes nothing that the detection uses, and sends only
    functions of the test code. -/
theorem load_keeps {malloc : Option Addr} {block : Mem} {s s' : App} {sends : List Send}
    (run : wg_plc_read_and_load_node_info malloc block s = .ok (s',sends)) :
    s'.plc_detect_flag = s.plc_detect_flag ∧ s'.wg_plc_detect_cnt = s.wg_plc_detect_cnt
      ∧ s'.detect_cycle = s.detect_cycle ∧ s'.last_plc_state = s.last_plc_state
      ∧ ∀ x ∈ sends, x ≠ wg_plc_set_master_addr := by
  have test : ∀ (fn : UInt16) (data : List UInt8), (⟨GDW1376_2_AFN_TEST_0xF0,fn,data⟩ : Send) ≠ wg_plc_set_master_addr := by
    intro fn data same
    cases congrArg Send.afn same
  have load := load_cases malloc block s
  rw [run] at load
  generalize result : (Except.ok (s',sends) : Except Fault (App × List Send)) = r at load
  cases load with
  | down =>
    cases result
    exact ⟨rfl,rfl,rfl,rfl,by simp⟩
  | waits =>
    cases result
    exact ⟨rfl,rfl,rfl,rfl,by simp⟩
  | asksTotal =>
    cases result
    exact ⟨rfl,rfl,rfl,rfl,by simp [test]⟩
  | asksPage =>
    cases result
    exact ⟨rfl,rfl,rfl,rfl,by simp [test]⟩
  | ends =>
    cases upload : NodeHeap.wg_plc_node_info_upload malloc block s.nodes.heap with
    | error fault =>
      rw [upload] at result
      cases result
    | ok value =>
      rw [upload] at result
      cases result
      exact ⟨rfl,rfl,rfl,rfl,by simp⟩

theorem init_cases (s : App) :
    wg_plc_mudule_init s = ({ s with last_plc_state := s.plc_detect_flag },
      if s.last_plc_state ≠ s.plc_detect_flag then [wg_plc_set_master_addr,wg_plc_whitelist_set 0] else []) := by
  by_cases changed : s.last_plc_state ≠ s.plc_detect_flag
  · rw [wg_plc_mudule_init,if_pos changed,if_pos changed]
  · rw [wg_plc_mudule_init,if_neg changed,if_neg changed]
    obtain ⟨nodes,flag,cnt,cycle,last,read⟩ := s
    obtain rfl : last = flag := not_not.mp changed
    rfl

/-- A poll does to the flag what the detection does, and sends one initialisation
    if the flag has changed since the last poll, and none otherwise. -/
structure Polled (s s' : App) (sends : List Send) : Prop where
  settled : Settled s'
  flag : s'.plc_detect_flag = (wg_plc_mudule_detect s).1.plc_detect_flag
  cnt : s'.wg_plc_detect_cnt = (wg_plc_mudule_detect s).1.wg_plc_detect_cnt
  cycle : s'.detect_cycle = (wg_plc_mudule_detect s).1.detect_cycle
  last : s'.last_plc_state = (wg_plc_mudule_detect s).1.plc_detect_flag
  count : initialisations sends
    = if s.last_plc_state ≠ (wg_plc_mudule_detect s).1.plc_detect_flag then 1 else 0

theorem task_polled (malloc : Option Addr) (block : Mem) {s : App} (settled : Settled s) :
    ∃ s' sends, elec_cco_task malloc block s = .ok (s',sends) ∧ Polled s s' sends := by
  obtain ⟨cycle,flag,last,queries⟩ := detect_settled settled
  obtain ⟨s',load,run,task,ready⟩ := task_ready malloc block settled.ready
  obtain ⟨sameFlag,sameCnt,sameCycle,sameLast,tests⟩ := load_keeps run
  rw [init_cases] at sameFlag sameCnt sameCycle sameLast task
  generalize result : wg_plc_mudule_detect s = d at cycle flag last queries sameFlag sameCnt sameCycle sameLast task
  obtain ⟨d,detect⟩ := d
  simp only at cycle flag last queries sameFlag sameCnt sameCycle sameLast task
  refine ⟨s',_,task,⟨⟨ready,?_,?_,?_,?_⟩,?_,?_,?_,?_,?_⟩⟩
  · rw [sameFlag]
    exact flag.imp_right And.left
  · rw [sameFlag,sameLast]
    exact flag.imp_right fun one => ⟨one.1,one.1⟩
  · rw [sameCycle]
    exact cycle
  · rw [sameFlag,sameCnt]
    rintro one
    exact (flag.resolve_left fun zero => by rw [zero] at one; cases one).2
  · rw [result,sameFlag]
  · rw [result,sameCnt]
  · rw [result,sameCycle]
  · rw [result,sameLast]
  · rw [result,List.append_assoc,initialisations_skip_all queries,← last]
    by_cases changed : d.last_plc_state ≠ d.plc_detect_flag
    · rw [if_pos changed,if_pos changed,initialisations_one tests]
    · have none := initialisations_skip_all tests []
      rw [List.append_nil] at none
      rw [if_neg changed,if_neg changed,List.nil_append,none]
      rfl

/-- A frame sets the flag, or leaves all that the detection uses as it is. -/
theorem recv_keeps {malloc : Nat → Option Addr} {w : S13762Format} {s s' : App} (run : elec_cco_recv malloc w s = .ok s') :
    s'.detect_cycle = s.detect_cycle ∧ s'.last_plc_state = s.last_plc_state
      ∧ (s'.plc_detect_flag = s.plc_detect_flag ∧ s'.wg_plc_detect_cnt = s.wg_plc_detect_cnt
        ∨ s'.plc_detect_flag = 1 ∧ s'.wg_plc_detect_cnt = 0) := by
  have unchanged : (Except.ok s : Except Fault App) = .ok s' → s'.detect_cycle = s.detect_cycle
      ∧ s'.last_plc_state = s.last_plc_state
      ∧ (s'.plc_detect_flag = s.plc_detect_flag ∧ s'.wg_plc_detect_cnt = s.wg_plc_detect_cnt
        ∨ s'.plc_detect_flag = 1 ∧ s'.wg_plc_detect_cnt = 0) := by
    intro same
    cases same
    exact ⟨rfl,rfl,Or.inl ⟨rfl,rfl⟩⟩
  unfold elec_cco_recv at run
  split at run
  next => exact unchanged run
  next => cases run
  next handler _ =>
    cases handler with
    | elec_cco_recv_confirm => exact unchanged run
    | elec_cco_recv_transfer => exact unchanged run
    | elec_cco_recv_query =>
      rw [handle] at run
      split at run
      · cases run
        exact ⟨rfl,rfl,Or.inr ⟨rfl,rfl⟩⟩
      · exact unchanged run
    | elec_cco_recv_test =>
      rw [handle] at run
      cases nodes : NodeHeap.wg_plc_recv_node_info malloc w.fn w.data s.nodes with
      | error fault =>
        rw [nodes] at run
        cases run
      | ok value =>
        rw [nodes] at run
        cases run
        exact ⟨rfl,rfl,Or.inl ⟨rfl,rfl⟩⟩

theorem recv_settled {malloc : Nat → Option Addr} {w : S13762Format} {s s' : App} (settled : Settled s)
    (run : elec_cco_recv malloc w s = .ok s') : Settled s' ∧ s'.last_plc_state = s.last_plc_state := by
  have ready : Ready s'.nodes := by
    rcases recv_supported malloc w settled.ready with ⟨-,s₁,run₁,ready⟩ | ⟨-,fault,-,failed⟩
    · rw [run] at run₁
      cases run₁
      exact ready
    · rw [run] at failed
      cases failed
  obtain ⟨cycle,last,flags⟩ := recv_keeps run
  refine ⟨⟨ready,?_,?_,cycle ▸ settled.cycle,?_⟩,last⟩
  · rcases flags with ⟨flag,-⟩ | ⟨flag,-⟩
    · rw [flag]
      exact settled.flag
    · exact Or.inr flag
  · rw [last]
    rcases flags with ⟨flag,-⟩ | ⟨flag,-⟩
    · rw [flag]
      exact settled.last
    · exact settled.last.imp_right fun one => ⟨one.1,flag⟩
  · rcases flags with ⟨flag,cnt⟩ | ⟨-,cnt⟩
    · rw [flag,cnt]
      exact settled.counted
    · rw [cnt]
      intro _
      decide

/-! ### Runs of the application -/

/-- A run is settled as long as no frame has ended it. -/
def Steady (s : Except Fault App) : Prop := ∀ app, s = .ok app → Settled app

theorem appStep_poll {app s' : App} {malloc : Option Addr} {block : Mem} {sends : List Send}
    (run : elec_cco_task malloc block app = .ok (s',sends)) :
    appStep (.ok app) (.poll malloc block) = (.ok s',some sends) := by
  simp only [appStep,Except.bind,run]

theorem steady_step {s : Except Fault App} (steady : Steady s) (e : Event) : Steady (appStep s e).1 := by
  intro app' after
  cases s with
  | error fault => cases e <;> cases after
  | ok app =>
    cases e with
    | frame w malloc => exact (recv_settled (steady app rfl) after).1
    | poll malloc block =>
      obtain ⟨s',sends,run,spec⟩ := task_polled malloc block (steady app rfl)
      rw [appStep_poll run] at after
      cases after
      exact spec.settled

/-- When a poll that finds the module up declares it failed. -/
theorem falls_iff {s : App} (settled : Settled s) :
    s.last_plc_state = 1 ∧ (wg_plc_mudule_detect s).1.plc_detect_flag = 0
      ↔ s.last_plc_state = 1 ∧ s.detect_cycle = 30000 ∧ s.wg_plc_detect_cnt = 2 := by
  refine and_congr_right fun wasUp => ?_
  have one : s.plc_detect_flag = 1 := by
    rcases settled.last with zero | ⟨-,one⟩
    · rw [zero] at wasUp
      cases wasUp
    · exact one
  have below := settled.counted one
  have two : s.wg_plc_detect_cnt = 2 ↔ s.wg_plc_detect_cnt.toNat = 2 := UInt8.toNat_inj.symm
  have poll := detect_cases s
  generalize wg_plc_mudule_detect s = result at poll
  rw [two,← cycle_due settled.cycle]
  cases poll with
  | waits early => exact iff_of_false (fun zero => by rw [one] at zero; cases zero) fun both => early both.1
  | asks due few =>
    rw [cnt_third] at few
    exact iff_of_false (fun zero => by rw [one] at zero; cases zero) fun both => few (by omega)
  | fails due third =>
    rw [cnt_third] at third
    exact iff_of_true rfl ⟨due,by omega⟩

/-- The initialisations of a run against the changes from 0 to 1 that its polls find. -/
theorem initialisations_iff (events : List Event) : ∀ {s : Except Fault App} {prev : UInt8}, Steady s →
    (∀ app, s = .ok app → app.last_plc_state = prev) →
    rises prev (outputs (relabel appStep polled) s events) ≤ ((outputs appStep s events).map initialisations).sum
      ∧ (((outputs appStep s events).map initialisations).sum = rises prev (outputs (relabel appStep polled) s events)
        ↔ Along appStep StaysUp s events) := by
  induction events with
  | nil =>
    intro s prev _ _
    exact ⟨Nat.le_refl _,iff_of_true rfl trivial⟩
  | cons e rest ih =>
    intro s prev steady known
    -- a step that polls nothing
    have silent : (appStep s e).2 = none → polled s e = none → StaysUp s e →
        (∀ app, (appStep s e).1 = .ok app → app.last_plc_state = prev) →
        rises prev (outputs (relabel appStep polled) s (e :: rest))
            ≤ ((outputs appStep s (e :: rest)).map initialisations).sum
          ∧ (((outputs appStep s (e :: rest)).map initialisations).sum
              = rises prev (outputs (relabel appStep polled) s (e :: rest))
            ↔ Along appStep StaysUp s (e :: rest)) := by
      intro nothing unpolled stays kept
      have later := ih (steady_step steady e) kept
      simp only [outputs,relabel,nothing,unpolled,Option.toList_none,List.nil_append,Along] at later ⊢
      exact ⟨later.1,later.2.trans (and_iff_right stays).symm⟩
    cases s with
    | error fault =>
      have stopped : ∀ app, (Except.error fault : Except Fault App) = .ok app → app.last_plc_state = prev := by
        rintro _ ⟨⟩
      cases e with
      | frame w malloc => exact silent rfl rfl trivial stopped
      | poll malloc block => exact silent rfl rfl trivial stopped
    | ok app =>
      have settled := steady app rfl
      obtain rfl : app.last_plc_state = prev := known app rfl
      cases e with
      | frame w malloc => exact silent rfl rfl trivial fun app' run => (recv_settled settled run).2
      | poll malloc block =>
        obtain ⟨s',sends,run,spec⟩ := task_polled malloc block settled
        have step := appStep_poll run
        have seen : ∀ app', (appStep (.ok app) (.poll malloc block)).1 = .ok app' →
            app'.last_plc_state = (wg_plc_mudule_detect app).1.plc_detect_flag := by
          rw [step]
          rintro _ ⟨⟩
          exact spec.last
        have later := ih (steady_step steady (.poll malloc block)) seen
        have stays : StaysUp (.ok app) (.poll malloc block)
            ↔ ¬ (app.last_plc_state = 1 ∧ (wg_plc_mudule_detect app).1.plc_detect_flag = 0) :=
          not_congr (falls_iff settled).symm
        have value := (detect_settled settled).2.1.imp_right And.left
        have before := settled.last.imp_right And.left
        simp only [outputs,relabel,polled,Along,stays,step,Option.toList_some,List.singleton_append,List.map_cons,
          List.sum_cons,rises,spec.count] at later ⊢
        generalize (wg_plc_mudule_detect app).1.plc_detect_flag = v at value later ⊢
        generalize app.last_plc_state = u at before ⊢
        generalize ((outputs appStep (.ok s') rest).map initialisations).sum = total at later ⊢
        generalize rises v (outputs (relabel appStep polled) (.ok s') rest) = wanted at later ⊢
        rw [← later.2]
        have enough := later.1
        -- only a change from 1 to 0 is sent and not wanted
        rcases before with rfl | rfl <;> rcases value with rfl | rfl
        · simp [enough]
        · simp [enough]
        · simp
          omega
        · simp [enough]

/-- A poll that declares the module failed sends no initialisation exactly when
    the module was not up. -/
theorem failing_iff {s : Except Fault App} (steady : Steady s) (e : Event) :
    (DeclaresFailed s e → ∀ sends, (appStep s e).2 = some sends → initialisations sends = 0) ↔ StaysUp s e := by
  cases s with
  | error fault => exact iff_of_true (fun fails => by cases e <;> cases fails) (by cases e <;> trivial)
  | ok app =>
    cases e with
    | frame w malloc => exact iff_of_true nofun trivial
    | poll malloc block =>
      have settled := steady app rfl
      obtain ⟨s',sends,run,spec⟩ := task_polled malloc block settled
      have count := spec.count
      have stays : StaysUp (.ok app) (.poll malloc block)
          ↔ ¬ (app.last_plc_state = 1 ∧ (wg_plc_mudule_detect app).1.plc_detect_flag = 0) :=
        not_congr (falls_iff settled).symm
      rw [stays,appStep_poll run]
      constructor
      · rintro none ⟨wasUp,down⟩
        obtain ⟨-,due,two⟩ := (falls_iff settled).mp ⟨wasUp,down⟩
        have fails : DeclaresFailed (.ok app) (.poll malloc block) := by
          refine ⟨(cycle_due settled.cycle).mpr due,?_⟩
          rw [two]
          decide
        rw [none fails sends rfl,wasUp,down] at count
        cases count
      · rintro notUp ⟨due,third⟩ _ ⟨⟩
        have down : (wg_plc_mudule_detect app).1.plc_detect_flag = 0 := by
          simp only [wg_plc_mudule_detect,if_pos due,if_pos third]
          rfl
        have wasDown := settled.last.resolve_right fun up => notUp ⟨up.1,down⟩
        rw [count,wasDown,down]
        rfl

/-- Over a run of polls and frames, initialisations are sent exactly when the
    polls find that the module has come up, and none is sent when it is declared
    failed, exactly when it is never declared failed after it has come up: no
    poll finds it up at the end of its time with two queries without an answer. -/
theorem initialised_iff (malloc : Option Addr) (events : List Event) :
    (((outputs appStep (.ok (elec_cco_init malloc)) events).map initialisations).sum
          = rises 0 (outputs (relabel appStep polled) (.ok (elec_cco_init malloc)) events)
        ∧ Along appStep (fun s e => DeclaresFailed s e → ∀ sends, (appStep s e).2 = some sends → initialisations sends = 0)
          (.ok (elec_cco_init malloc)) events)
      ↔ Along appStep StaysUp (.ok (elec_cco_init malloc)) events := by
  have steady : Steady (.ok (elec_cco_init malloc)) := by
    rintro _ ⟨⟩
    exact settled_init malloc
  have unseen : ∀ app, (Except.ok (elec_cco_init malloc) : Except Fault App) = .ok app → app.last_plc_state = 0 := by
    rintro _ ⟨⟩
    rfl
  have failing : Along appStep (fun s e => DeclaresFailed s e → ∀ sends, (appStep s e).2 = some sends →
        initialisations sends = 0) (.ok (elec_cco_init malloc)) events
      ↔ Along appStep StaysUp (.ok (elec_cco_init malloc)) events :=
    along_iff_of_invariant (I := Steady) (fun s e inv _ => steady_step inv e) (fun s e inv => failing_iff inv e) steady
      events
  rw [(initialisations_iff events steady unseen).2,failing,and_self]

/-! ### A module that stops answering -/

def polls (n : Nat) : List Event := List.replicate n (.poll none fun _ => 0)

theorem polls_succ (n : Nat) : polls (n+1) = .poll none (fun _ => 0) :: polls n := rfl

/-- A poll that leaves the flag as it is: where it leads. -/
structure Counts (s s' : App) (cycle cnt : Nat) : Prop where
  settled : Settled s'
  flag : s'.plc_detect_flag = s.plc_detect_flag
  last : s'.last_plc_state = s.plc_detect_flag
  cycle : s'.detect_cycle.toNat = cycle
  cnt : s'.wg_plc_detect_cnt.toNat = cnt

theorem poll_wait {s : App} (settled : Settled s) (early : s.detect_cycle.toNat < 30000) :
    ∃ s', (appStep (.ok s) (.poll none fun _ => 0)).1 = .ok s'
      ∧ Counts s s' (s.detect_cycle.toNat+1) s.wg_plc_detect_cnt.toNat := by
  obtain ⟨s',sends,run,spec⟩ := task_polled none (fun _ => 0) settled
  have notDue : ¬ s.detect_cycle+1 > 30000 := by
    rw [cycle_due settled.cycle]
    rintro due
    rw [due] at early
    exact absurd early (by decide)
  have waits : wg_plc_mudule_detect s = ({ s with detect_cycle := s.detect_cycle+1 },[]) := by
    simp only [wg_plc_mudule_detect,if_neg notDue]
  obtain ⟨settled',flag,cnt,cycle,last,-⟩ := spec
  rw [waits] at flag cnt cycle last
  refine ⟨s',by rw [appStep_poll run],settled',flag,last,?_,by rw [cnt]⟩
  rw [cycle,UInt32.toNat_add,UInt32.toNat_one]
  omega

/-- The first and the second query without an answer are only counted. -/
theorem poll_ask {s : App} (settled : Settled s) (due : s.detect_cycle.toNat = 30000)
    (few : s.wg_plc_detect_cnt.toNat < 2) :
    ∃ s', (appStep (.ok s) (.poll none fun _ => 0)).1 = .ok s' ∧ Counts s s' 0 (s.wg_plc_detect_cnt.toNat+1) := by
  obtain ⟨s',sends,run,spec⟩ := task_polled none (fun _ => 0) settled
  have late : s.detect_cycle+1 > 30000 := (cycle_due settled.cycle).mpr (UInt32.toNat_inj.mp due)
  have notThird : ¬ s.wg_plc_detect_cnt+1 ≥ 3 := by
    rw [cnt_third]
    omega
  have asks : wg_plc_mudule_detect s
      = ({ s with detect_cycle := 0, wg_plc_detect_cnt := s.wg_plc_detect_cnt+1 },[detectQuery]) := by
    simp only [wg_plc_mudule_detect,if_pos late,if_neg notThird]
    rfl
  obtain ⟨settled',flag,cnt,cycle,last,-⟩ := spec
  rw [asks] at flag cnt cycle last
  refine ⟨s',by rw [appStep_poll run],settled',flag,last,by rw [cycle]; rfl,?_⟩
  rw [cnt,cnt_succ (by omega)]

/-- Polls within one time of the detection only count. -/
theorem polls_wait (n : Nat) : ∀ {s : App}, Settled s → s.detect_cycle.toNat+n+1 ≤ 30000 →
    ∃ s', final appStep (.ok s) (polls (n+1)) = .ok s'
      ∧ Counts s s' (s.detect_cycle.toNat+n+1) s.wg_plc_detect_cnt.toNat := by
  induction n with
  | zero =>
    intro s settled within
    exact poll_wait settled (by omega)
  | succ n ih =>
    intro s settled within
    obtain ⟨s₁,run,one⟩ := poll_wait settled (by omega)
    obtain ⟨s',rest,more⟩ := ih one.settled (by rw [one.cycle]; omega)
    refine ⟨s',?_,more.settled,more.flag.trans one.flag,more.last.trans one.flag,?_,more.cnt.trans one.cnt⟩
    · rw [polls_succ,final,run]
      exact rest
    · rw [more.cycle,one.cycle]
      omega

/-- A whole time of the detection, up to the query at its end. -/
theorem polls_round {s : App} (settled : Settled s) (fresh : s.detect_cycle.toNat = 0)
    (few : s.wg_plc_detect_cnt.toNat < 2) :
    ∃ s', final appStep (.ok s) (polls 30000 ++ polls 1) = .ok s' ∧ Counts s s' 0 (s.wg_plc_detect_cnt.toNat+1) := by
  obtain ⟨s₁,run,waited⟩ := polls_wait 29999 settled (by omega)
  obtain ⟨s',ask,asked⟩ := poll_ask waited.settled (by rw [waited.cycle]; omega) (by rw [waited.cnt]; omega)
  refine ⟨s',?_,asked.settled,asked.flag.trans waited.flag,asked.last.trans waited.flag,asked.cycle,?_⟩
  · rw [final_append,run]
    exact ask
  · rw [asked.cnt,waited.cnt]

/-- The module answers once and then no more. -/
def silence : List Event :=
  .frame { blank with afn := 0x03, fn := FN 10 } (fun _ => none)
    :: ((polls 30000 ++ polls 1) ++ ((polls 30000 ++ polls 1) ++ (polls 30000 ++ polls 1)))

/-- It comes up once, but is initialised again when it is declared failed. -/
theorem initialised_on_failure :
    ((outputs appStep (.ok (elec_cco_init none)) silence).map initialisations).sum
      ≠ rises 0 (outputs (relabel appStep polled) (.ok (elec_cco_init none)) silence) := by
  have settled := settled_init none
  have steady : Steady (.ok (elec_cco_init none)) := by
    rintro _ ⟨⟩
    exact settled
  have unseen : ∀ app, (Except.ok (elec_cco_init none) : Except Fault App) = .ok app → app.last_plc_state = 0 := by
    rintro _ ⟨⟩
    rfl
  have answered : elec_cco_recv (fun _ => none) { blank with afn := 0x03, fn := FN 10 } (elec_cco_init none)
      = .ok (plc_detect_flag_set (elec_cco_init none)) := rfl
  obtain ⟨s₁,run₁,first⟩ := polls_round (recv_settled settled answered).1 rfl (by decide)
  obtain ⟨s₂,run₂,second⟩ := polls_round first.settled first.cycle (by rw [first.cnt]; decide)
  obtain ⟨s₃,run₃,third⟩ := polls_wait 29999 second.settled (by rw [second.cycle])
  rw [Ne,(initialisations_iff silence steady unseen).2]
  rintro ⟨-,stays⟩
  have after : (appStep (.ok (elec_cco_init none)) (.frame { blank with afn := 0x03, fn := FN 10 } fun _ => none)).1
      = .ok (plc_detect_flag_set (elec_cco_init none)) := answered
  rw [after,along_append,run₁] at stays
  have stays₂ := ((along_append appStep _ _ _ _).mp stays.2).2
  rw [run₂] at stays₂
  have stays₃ := ((along_append appStep _ _ _ _).mp stays₂).2
  rw [show polls 30000 = polls (29999+1) from rfl,run₃] at stays₃
  refine stays₃.1 ⟨?_,?_,?_⟩
  · rw [third.last,second.flag,first.flag]
    rfl
  · refine UInt32.toNat_inj.mp ?_
    rw [third.cycle,second.cycle]
    rfl
  · refine UInt8.toNat_inj.mp ?_
    rw [third.cnt,second.cnt,first.cnt]
    rfl

end Ucm108e.Detection
