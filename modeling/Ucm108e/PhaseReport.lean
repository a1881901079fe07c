import Ucm108e.Machine
import Ucm108e.WgPhase

/-!
Collection and report of phases, in any order of node information, uploads and
acknowledgements. A node whose refresh mark is clear should have the phase that
the platform knows, which is the one in the last upload that contained it. An
acknowledgement carries no phase, so one that is late clears the mark of a node
that has changed since; the theorem says that nothing else can go wrong.
-/
namespace Ucm108e.PhaseReport
open Ucm108e.Bytes Ucm108e.Machine Ucm108e.Keyed Ucm108e.WgPhase
set_option linter.unusedSimpArgs false

/-- What can happen, with what `rt_malloc` returns where it is called. -/
inductive Event where
  | nodeInfo (heap : Nat → Bool) (fn : UInt16) (data : Mem)
  | upload (heap : Option Mem)
  | ack (nodeinfo : Mem)

/-- The static variables, and the uploads so far, the last one first. -/
structure System where
  wg : WgState
  uploads : List Mem

def init : System := ⟨wgInit,[]⟩

/-- One event, with what it hands to `report_node_belong_info`. -/
def step (s : System) : Event → System × Option Mem
  | .nodeInfo heap fn data => ({ s with wg := wg_plc_recv_node_info heap fn data s.wg },none)
  | .upload heap =>
    match wg_plc_node_info_upload heap s.wg.nodes with
    | some (nodeinfo,_) => ({ s with uploads := nodeinfo :: s.uploads },some nodeinfo)
    | none => (s,none)
  | .ack nodeinfo => ({ s with wg := { s.wg with nodes := recv_node_belong_info_ack nodeinfo s.wg.nodes } },none)

/-- The phase that an upload carries for a node. -/
def carried (nodeinfo : Mem) (id : NodeId) : Option UInt8 :=
  ((records nodeinfo).find? fun r => r.1 = id).map Prod.snd

def lastCarried (uploads : List Mem) (id : NodeId) : Option UInt8 := uploads.findSome? fun u => carried u id

/-- What the platform knows of a node; 0 stands for an unknown phase. -/
def reported (s : System) (id : NodeId) : UInt8 := (lastCarried s.uploads id).getD 0

/-- Every node that is not marked has the phase that the platform knows. -/
def Reported (s : System) : Prop := ∀ p ∈ s.wg.nodes.entries, p.refresh = 0 → p.phase = reported s p.node_id

/-- Every node that an acknowledgement names was contained in an upload. -/
def AckUploaded (s : System) : Event → Prop
  | .ack nodeinfo => ∀ id ∈ acked nodeinfo, (lastCarried s.uploads id).isSome
  | _ => True

/-- Every node that an acknowledgement names still has the phase that the
    platform knows. -/
def AckCurrent (s : System) : Event → Prop
  | .ack nodeinfo => ∀ p ∈ s.wg.nodes.entries, p.node_id ∈ acked nodeinfo → p.phase = reported s p.node_id
  | _ => True

instance (s : System) : Decidable (Reported s) :=
  inferInstanceAs (Decidable (∀ p ∈ s.wg.nodes.entries, p.refresh = 0 → p.phase = reported s p.node_id))

instance (s : System) : (e : Event) → Decidable (AckUploaded s e)
  | .nodeInfo .. => isTrue trivial
  | .upload _ => isTrue trivial
  | .ack nodeinfo => List.decidableBAll (fun id => (lastCarried s.uploads id).isSome) (acked nodeinfo)

/-- Only nodes of the list have been uploaded. -/
def Known (s : System) : Prop := ∀ id, (lastCarried s.uploads id).isSome → id ∈ s.wg.nodes.keys

theorem carried_mem {nodeinfo : Mem} {id : NodeId} (some : (carried nodeinfo id).isSome) :
    ∃ r ∈ records nodeinfo, r.1 = id := by
  simpa [carried] using some

theorem carried_marked {heap : Option Mem} {nodes : Nodes} {nodeinfo : Mem} {len : Nat}
    (uploaded : wg_plc_node_info_upload heap nodes = some (nodeinfo,len)) {id : NodeId} (some : (carried nodeinfo id).isSome) :
    ∃ p ∈ nodes.entries, p.refresh = 1 ∧ p.node_id = id := by
  obtain ⟨r,member,same⟩ := carried_mem some
  obtain ⟨p,inside,marked,rfl⟩ := upload_records uploaded r member
  exact ⟨p,inside,marked,same⟩

theorem lastCarried_cons (nodeinfo : Mem) (uploads : List Mem) (id : NodeId) :
    lastCarried (nodeinfo :: uploads) id = (carried nodeinfo id).or (lastCarried uploads id) := by
  simp only [lastCarried,List.findSome?_cons]
  cases carried nodeinfo id <;> rfl

theorem known_step (s : System) (e : Event) (known : Known s) : Known (step s e).1 := by
  cases e with
  | nodeInfo heap fn data => exact fun id uploaded => recv_keys (known id uploaded)
  | upload heap =>
    cases uploaded : wg_plc_node_info_upload heap s.wg.nodes with
    | none => simpa only [step,uploaded] using known
    | some report =>
      obtain ⟨nodeinfo,len⟩ := report
      simp only [step,uploaded]
      intro id carries
      rw [lastCarried_cons] at carries
      cases new : carried nodeinfo id with
      | none =>
        rw [new] at carries
        exact known id carries
      | some phase =>
        obtain ⟨p,inside,_,rfl⟩ := carried_marked uploaded (by rw [new]; rfl)
        exact Table.mem_keys inside
  | ack nodeinfo =>
    intro id uploaded
    simp only [step,keys_ack]
    exact known id uploaded

/-- Node information keeps the report up to date: a node whose phase changes is
    marked, and a new one was never uploaded. -/
theorem reported_nodeInfo {s : System} (known : Known s) (good : Reported s) (heap : Nat → Bool) (fn : UInt16) (data : Mem) :
    Reported (step s (.nodeInfo heap fn data)).1 := by
  intro p member clear
  rcases recv_accounted member with old | marked | ⟨new,unknown⟩
  · exact good p old clear
  · rw [clear] at marked
    cases marked
  · have never : lastCarried s.uploads p.node_id = none := by
      by_contra some
      exact new (known p.node_id (Option.isSome_iff_ne_none.mpr some))
    rw [unknown]
    simp [reported,step,never]

/-- An upload keeps the report up to date: it contains marked nodes only. -/
theorem reported_upload {s : System} (good : Reported s) (heap : Option Mem) : Reported (step s (.upload heap)).1 := by
  cases uploaded : wg_plc_node_info_upload heap s.wg.nodes with
  | none => simpa only [step,uploaded] using good
  | some report =>
    obtain ⟨nodeinfo,len⟩ := report
    simp only [step,uploaded]
    intro p member clear
    have absent : carried nodeinfo p.node_id = none := by
      by_contra some
      obtain ⟨q,inside,marked,same⟩ := carried_marked uploaded (Option.isSome_iff_ne_none.mpr some)
      rw [Table.eq_of_key inside member same,clear] at marked
      cases marked
    rw [good p member clear]
    simp [reported,lastCarried_cons,absent]

/-- An acknowledgement keeps the report up to date exactly when the nodes it
    names have not changed since. -/
theorem reported_ack_iff {s : System} (good : Reported s) (nodeinfo : Mem) :
    Reported (step s (.ack nodeinfo)).1 ↔ AckCurrent s (.ack nodeinfo) := by
  constructor
  · intro next p member named
    have cleared : clearRefresh p ∈ (recv_node_belong_info_ack nodeinfo s.wg.nodes).entries :=
      mem_ack.mpr ⟨p,member,by rw [if_pos named]⟩
    exact next (clearRefresh p) cleared rfl
  · intro current y member clear
    obtain ⟨p,old,rfl⟩ := mem_ack.mp member
    by_cases named : p.node_id ∈ acked nodeinfo
    · rw [if_pos named]
      exact current p old named
    · rw [if_neg named] at clear ⊢
      exact good p old clear

/-- Along any sequence of events, every node that is not marked has the phase of
    the last upload that contained it exactly when every acknowledgement names
    only nodes whose phase is still that one. -/
theorem phases_reported_iff (events : List Event) :
    Throughout step Reported init events ↔ Along step AckCurrent init events := by
  have allowed := along_true step init events
  refine throughout_iff_along (I := Known) (fun s e known _ => known_step s e known) ?_ ?_ ?_ allowed
  · intro s e known good _
    cases e with
    | nodeInfo heap fn data => exact ⟨fun _ => trivial,fun _ => reported_nodeInfo known good heap fn data⟩
    | upload heap => exact ⟨fun _ => trivial,fun _ => reported_upload good heap⟩
    | ack nodeinfo => exact reported_ack_iff good nodeinfo
  · intro id uploaded
    cases uploaded
  · intro p member
    cases member

def oneNode (phase : UInt8) : Event :=
  .nodeInfo (fun _ => true) (FN 23) fun i => [1,0,1,1,2,3,4,5,6,0,phase].getD i 0

/-- The node is uploaded, changes its phase, and is then acknowledged. -/
def lateAck : List Event :=
  [oneNode 1,.upload (some fun _ => 0),oneNode 2,.ack fun i => [1,1,2,3,4,5,6].getD i 0]

/-- The change is lost: the node is not marked, and the platform knows its old
    phase. -/
theorem phases_reported_late_ack :
    Along step AckUploaded init lateAck ∧
      (final step init lateAck).wg.nodes.entries.map (fun p => (p.phase,p.refresh,reported (final step init lateAck) p.node_id)) =
        [(2,0,1)] ∧
      ¬ Throughout step Reported init lateAck := by
  refine ⟨by decide +kernel,by decide +kernel,fun all => ?_⟩
  exact absurd (throughout_final _ all) (by decide +kernel)

end Ucm108e.PhaseReport
