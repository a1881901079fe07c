import Ucm108e.Bounds

/-!
The packers against the framer that takes one byte at a time. As long as no
frame times out and no counter wraps, a poll moves a packer as its bytes, fed
one after the other, move the framer. A frame that ends with its header is
given out by the framer at once and by the packer at the next poll; until then
it is pending.
-/
namespace Ucm108e.Polling
open Ucm108e.Bytes Ucm108e.Machine Ucm108e.Framing Ucm108e.Packer Ucm108e.PackedFrames Ucm108e.Bounds
set_option linter.unusedSimpArgs false

/-- The framing that a packer implements. -/
def scheme (p : Packing) : Scheme UInt8 where
  head held := p.head held.length (held.getLastD 0)
  rest held := p.rest (fun i => held.getD i 0) held.length

def heldBy (s : PackState) : List UInt8 := window s.out_buf 0 s.now_len

/-- The framer that has seen the bytes a packer has read. -/
def framer (s : PackState) : Framer UInt8 :=
  match s.parse_step with
  | .step0 => ⟨.outside,heldBy s⟩
  | .step1 => ⟨.inside .header s.need_len,heldBy s⟩
  | .step2 => if s.need_len = 0 then idle else ⟨.inside .body s.need_len,heldBy s⟩

/-- The frame that the next poll hands out, whatever it reads. -/
def pending (s : PackState) : List (List UInt8) :=
  if s.parse_step = .step2 ∧ s.need_len = 0 then [heldBy s] else []

/-- A poll inside a frame that does not hand it out. -/
def Inside (s : PackState) (r : List UInt8) : Prop :=
  s.parse_step ≠ .step0 ∧ ¬ (s.parse_step = .step2 ∧ r.length = s.need_len)

instance (s : PackState) (r : List UInt8) : Decidable (Inside s r) := inferInstanceAs (Decidable (_ ∧ ¬ _))

/-- A poll that is served, does not time out and finds no counter about to wrap. -/
structure Regular (s : PackState) (r : List UInt8) : Prop where
  served : Served s r
  live : Inside s r → s.timoutcnt < 10000
  narrow : s.now_len+s.need_len < 65536

/-! ### One poll -/

@[simp] theorem heldBy_length (s : PackState) : (heldBy s).length = s.now_len := by simp [heldBy]

section
variable {s : PackState}

theorem framer_step0 (at0 : s.parse_step = .step0) : framer s = ⟨.outside,heldBy s⟩ ∧ pending s = [] := by
  simp [framer,pending,at0]

theorem framer_step1 (at1 : s.parse_step = .step1) : framer s = ⟨.inside .header s.need_len,heldBy s⟩ ∧ pending s = [] := by
  simp [framer,pending,at1]

theorem framer_step2 (at2 : s.parse_step = .step2) (some : s.need_len ≠ 0) :
    framer s = ⟨.inside .body s.need_len,heldBy s⟩ ∧ pending s = [] := by
  simp [framer,pending,at2,some]

theorem framer_pending (at2 : s.parse_step = .step2) (none : s.need_len = 0) : framer s = idle ∧ pending s = [heldBy s] := by
  simp [framer,pending,at2,none]

theorem framer_of_pending (waits : pending s ≠ []) : framer s = idle := by
  unfold pending at waits
  split at waits
  next both => exact (framer_pending both.1 both.2).1
  next => exact absurd rfl waits

theorem framer_count (live : s.timoutcnt < 10000) : framer (countPoll s) = framer s ∧ pending (countPoll s) = pending s := by
  unfold countPoll
  rw [if_neg (by omega)]
  exact ⟨rfl,rfl⟩
end

theorem framer_finished (s : PackState) : framer (countPoll (restart s)) = idle ∧ pending (countPoll (restart s)) = [] := by
  unfold countPoll
  split <;> simp [framer,pending,restart,heldBy,idle]

theorem heldBy_store (s : PackState) (r : List UInt8) :
    window (store s.out_buf s.now_len r) 0 (s.now_len+r.length) = heldBy s ++ r := by
  have := window_store_grow s.out_buf 0 s.now_len r
  simpa [heldBy] using this

section
variable {p : Packing} {s : PackState} {r : List UInt8}

theorem heldBy_filled (regular : Regular s r) : heldBy (filled s r) = heldBy s ++ r := by
  have served := regular.served
  have narrow := regular.narrow
  unfold Served at served
  have small : (s.now_len+r.length) % 65536 = s.now_len+r.length := Nat.mod_eq_of_lt (by omega)
  rw [← heldBy_store]
  simp [heldBy,filled,small]

theorem scheme_head (b : UInt8) : (scheme p).head (heldBy s ++ [b]) = p.head (s.now_len+1) b := by
  simp [scheme]

theorem scheme_rest (some : 2 ≤ s.now_len+r.length) :
    (scheme p).rest (heldBy s ++ r) = p.rest (store s.out_buf s.now_len r) (s.now_len+r.length) := by
  simp only [scheme,List.length_append,heldBy_length]
  apply p.rest_local _ _ _ some
  intro i lt
  have byte := window_byte (heldBy_store s r) lt
  rw [Nat.zero_add] at byte
  exact byte.symm

/-- What a poll does to the packer is what its bytes do to the framer, and the
    frames given out are those handed out up to the pending ones. -/
theorem poll_framer (shape : Shape s) (regular : Regular s r) :
    final (feed (scheme p)) (framer s) r = framer (packFrame p s r).1 ∧
      pending s ++ outputs (feed (scheme p)) (framer s) r =
        (packFrame p s r).2.toList.map Packed.bytes ++ pending (packFrame p s r).1 := by
  have held := heldBy_filled regular
  have poll := poll_cases p shape regular.served
  generalize packFrame p s r = next at poll ⊢
  cases poll with
  | idle at0 => simp [final,outputs,framer,pending,at0,heldBy]
  | again at0 b head =>
    have grown := heldBy_store s [b]
    simp only [(framer_step0 at0).1,(framer_step0 at0).2,final,outputs,feed,scheme_head,head,Option.toList_none]
    rw [← grown]
    simp [framer,pending,at0,heldBy]
  | dropped at0 b head =>
    simp only [(framer_step0 at0).1,(framer_step0 at0).2,final,outputs,feed,scheme_head,head,Option.toList_none]
    simp [framer,pending,at0,heldBy,Framing.idle]
  | found at0 b n head =>
    have grown := heldBy_store s [b]
    simp only [(framer_step0 at0).1,(framer_step0 at0).2,final,outputs,feed,scheme_head,head,Option.toList_none]
    rw [← grown]
    simp [framer,pending,heldBy]
  | header at1 _ few =>
    have live := regular.live ⟨by simp [at1],by simp [at1]⟩
    have fed := @feed_some _ (scheme p) .header s.need_len (heldBy s) r few
    have counted := framer_count (s := filled s r) live
    have next := framer_step1 (s := filled s r) at1
    rw [(framer_step1 at1).1,(framer_step1 at1).2,fed.1,fed.2,counted.1,counted.2,next.1,next.2,held]
    exact ⟨rfl,rfl⟩
  | announced at1 _ all =>
    have live := regular.live ⟨by simp [at1],by simp [at1]⟩
    obtain ⟨some,behind,_⟩ := shape.step1 at1
    have fed := @feed_all _ (scheme p) .header (heldBy s) r (by omega)
    have rest := @scheme_rest p s r (by omega)
    have counted := framer_count (s := { filled s r with
      need_len := p.rest (store s.out_buf s.now_len r) (s.now_len+r.length), parse_step := .step2 }) live
    rw [(framer_step1 at1).1,(framer_step1 at1).2,← all,fed.1,fed.2,counted.1,counted.2,complete,rest]
    by_cases none : p.rest (store s.out_buf s.now_len r) (s.now_len+r.length) = 0
    · rw [if_pos none,(framer_pending rfl none).1,(framer_pending rfl none).2,← held]
      exact ⟨rfl,rfl⟩
    · rw [if_neg none,(framer_step2 rfl none).1,(framer_step2 rfl none).2,← held]
      exact ⟨rfl,rfl⟩
  | body at2 _ few =>
    have live := regular.live ⟨by simp [at2],by rintro ⟨_,all⟩; omega⟩
    have fed := @feed_some _ (scheme p) .body s.need_len (heldBy s) r few
    have counted := framer_count (s := filled s r) live
    have next := framer_step2 (s := filled s r) at2 (by simp only [filled]; omega)
    have now := framer_step2 at2 (by omega)
    rw [now.1,now.2,fed.1,fed.2,counted.1,counted.2,next.1,next.2,held]
    exact ⟨rfl,rfl⟩
  | finished at2 _ all =>
    have next := framer_finished (filled s r)
    have handed : (⟨store s.out_buf s.now_len r,(s.now_len+r.length) % 65536⟩ : Packed).bytes = heldBy s ++ r := held
    rw [next.1,next.2,Option.toList_some,List.map_singleton,handed]
    by_cases none : s.need_len = 0
    · have empty : r = [] := List.length_eq_zero_iff.mp (by omega)
      rw [(framer_pending at2 none).1,(framer_pending at2 none).2,empty]
      exact ⟨rfl,by simp [outputs]⟩
    · have fed := @feed_all _ (scheme p) .body (heldBy s) r (by omega)
      have now := framer_step2 at2 none
      rw [now.1,now.2,← all,fed.1,fed.2]
      exact ⟨rfl,rfl⟩
end

/-! ### Whole runs -/

section
variable {p : Packing} {s : PackState} {reads : List (List UInt8)}

theorem framer_init (buf : Mem) : framer (packInit buf) = idle ∧ pending (packInit buf) = [] := ⟨rfl,rfl⟩

theorem shape_run (shape : Shape s) (regular : Along (packFrame p) Regular s reads) :
    Shape (final (packFrame p) s reads) :=
  final_invariant (fun s r shape regular => shape_poll p s r shape regular.served) shape regular

/-- A run of regular polls, however the bytes are spread over them, does what
    the bytes do to the framer. -/
theorem run_framer (shape : Shape s) (regular : Along (packFrame p) Regular s reads) :
    final (feed (scheme p)) (framer s) reads.flatten = framer (final (packFrame p) s reads) ∧
      pending s ++ outputs (feed (scheme p)) (framer s) reads.flatten =
        (outputs (packFrame p) s reads).map Packed.bytes ++ pending (final (packFrame p) s reads) := by
  induction reads generalizing s with
  | nil => simp [final,outputs]
  | cons r rest ih =>
    have now := @poll_framer p s r shape regular.1
    have later := ih (shape_poll p s r shape regular.1.served) regular.2
    simp only [List.flatten_cons,final_append,outputs_append,final,outputs,List.map_append]
    rw [now.1,← List.append_assoc,now.2,List.append_assoc,later.2,← List.append_assoc]
    exact ⟨later.1,rfl⟩

theorem poll_pending (shape : Shape s) : (packFrame p s []).2.toList.map Packed.bytes = pending s := by
  have poll := poll_cases p shape (r := []) (by simp [Served])
  generalize packFrame p s [] = next at poll ⊢
  cases poll with
  | idle at0 => simp [pending,at0]
  | header at1 _ few => simp [pending,at1]
  | announced at1 _ all => simp [pending,at1]
  | body at2 _ few =>
    have more : s.need_len ≠ 0 := Nat.ne_of_gt few
    simp [pending,at2,more]
  | finished at2 _ all =>
    have small := Nat.mod_eq_of_lt shape.now_lt
    simp [pending,at2,← all,Packed.bytes,heldBy,small]

/-- A poll that ends inside a frame has found its head or counts one more. -/
theorem poll_count {r : List UInt8} (shape : Shape s) (regular : Regular s r)
    (inside : (packFrame p s r).1.parse_step ≠ .step0) :
    (packFrame p s r).1.timoutcnt = 0 ∨ (Inside s r ∧ (packFrame p s r).1.timoutcnt = s.timoutcnt+1) := by
  have poll := poll_cases p shape regular.served
  generalize packFrame p s r = next at poll inside ⊢
  have counts : Inside s r → ∀ s' : PackState, s'.timoutcnt = s.timoutcnt → (countPoll s').timoutcnt = s.timoutcnt+1 := by
    intro waiting s' same
    have live := regular.live waiting
    unfold countPoll
    rw [if_neg (by omega),same]
  cases poll with
  | idle at0 => exact .inl rfl
  | again at0 b head => exact .inl rfl
  | dropped at0 b head => exact .inl rfl
  | found at0 b n head => exact .inl rfl
  | header at1 _ few =>
    have waiting : Inside s r := ⟨by simp [at1],by simp [at1]⟩
    exact .inr ⟨waiting,counts waiting _ rfl⟩
  | announced at1 _ all =>
    have waiting : Inside s r := ⟨by simp [at1],by simp [at1]⟩
    exact .inr ⟨waiting,counts waiting _ rfl⟩
  | body at2 _ few =>
    have waiting : Inside s r := ⟨by simp [at2],by rintro ⟨_,all⟩; omega⟩
    exact .inr ⟨waiting,counts waiting _ rfl⟩
  | finished at2 _ all =>
    refine absurd ?_ inside
    unfold countPoll
    split <;> rfl

/-- The polls since the head of the frame that a packer is in are as many as
    `timoutcnt` says. -/
theorem waited {buf : Mem} (regular : Along (packFrame p) Regular (packInit buf) reads)
    (inside : (final (packFrame p) (packInit buf) reads).parse_step ≠ .step0) :
    ∃ before since, reads = before ++ since ∧
      Along (packFrame p) Inside (final (packFrame p) (packInit buf) before) since ∧
      since.length = (final (packFrame p) (packInit buf) reads).timoutcnt := by
  -- On the last poll: it has just found the head, or it adds one to the polls counted before it.
  induction reads using List.reverseRecOn with
  | nil => exact absurd rfl inside
  | append_singleton earlier r ih =>
    rw [along_append] at regular
    rw [final_append] at inside ⊢
    have shape := shape_run (shape_init buf) regular.1
    rcases poll_count shape regular.2.1 inside with zero | ⟨waiting,more⟩
    · exact ⟨earlier ++ [r],[],by simp,trivial,zero.symm⟩
    · obtain ⟨before,since,same,along,count⟩ := ih regular.1 waiting.1
      refine ⟨before,since ++ [r],by rw [same,List.append_assoc],?_,?_⟩
      · rw [along_append,← final_append,← same]
        exact ⟨along,waiting,trivial⟩
      · rw [List.length_append,List.length_singleton,count]
        exact more.symm

/-- No more than 10000 polls in a row are inside a frame without handing it out. -/
def Patient (p : Packing) (buf : Mem) (reads : List (List UInt8)) : Prop :=
  ∀ before since after, reads = before ++ since ++ after →
    Along (packFrame p) Inside (final (packFrame p) (packInit buf) before) since → since.length ≤ 10000

theorem patient_short (buf : Mem) (short : reads.length ≤ 10000) : Patient p buf reads := by
  intro before since after same _
  rw [same] at short
  simp only [List.length_append] at short
  omega

theorem live_next {buf : Mem} {r : List UInt8} (regular : Along (packFrame p) Regular (packInit buf) reads)
    (few : ∀ before since, reads = before ++ since →
      Along (packFrame p) Inside (final (packFrame p) (packInit buf) before) (since ++ [r]) → since.length < 10000)
    (waiting : Inside (final (packFrame p) (packInit buf) reads) r) :
    (final (packFrame p) (packInit buf) reads).timoutcnt < 10000 := by
  obtain ⟨before,since,same,along,count⟩ := waited regular waiting.1
  rw [← count]
  apply few before since same
  rw [along_append,← final_append,← same]
  exact ⟨along,waiting,trivial⟩

/-! ### Two schedules of one stream -/

/-- The polls that deliver a stream: each read is served with some of the bytes
    it asks for, no frame exceeds the buffer, and none is waited for too long. -/
structure Schedule (p : Packing) (cfg : Config) (stream : List UInt8) (buf : Mem) (reads : List (List UInt8)) : Prop where
  delivers : reads.flatten = stream
  served : Along (packFrame p) Served (packInit buf) reads
  fits : Throughout (packFrame p) (Fits cfg) (packInit buf) reads
  patient : Patient p buf reads

theorem Schedule.regular {cfg : Config} {stream : List UInt8} {buf : Mem} (schedule : Schedule p cfg stream buf reads) :
    Along (packFrame p) Regular (packInit buf) reads := by
  have range := cfg.range
  have fitting := along_states (packFrame p) schedule.fits
  apply along_of_prefixes
  intro before r after same regular
  have served := schedule.served
  rw [same,along_append] at served fitting
  have fits := fitting.2.1
  refine ⟨served.2.1,live_next regular fun first since split along => ?_,by unfold Fits at fits; omega⟩
  have bound := schedule.patient first (since ++ [r]) after (by rw [same,split]; simp) along
  simpa using bound

/-- Once the stream is consumed and one further poll is made, the frames of the
    stream have been handed out. -/
theorem Schedule.frames {cfg : Config} {stream : List UInt8} {buf : Mem} (schedule : Schedule p cfg stream buf reads) :
    (outputs (packFrame p) (packInit buf) (reads ++ [[]])).map Packed.bytes = Framing.frames (scheme p) stream := by
  have regular := schedule.regular
  have run := (run_framer (shape_init buf) regular).2
  have rest := poll_pending (p := p) (shape_run (shape_init buf) regular)
  have start := framer_init buf
  rw [start.1,start.2,schedule.delivers] at run
  rw [outputs_append,List.map_append,Framing.frames,← List.nil_append (outputs (feed _) _ _),run,← rest]
  simp [outputs]
end

/-- The frames that a run hands out, each with its length. -/
def emitted (pack : PackState → List UInt8 → PackState × Option Packed) (buf : Mem) (reads : List (List UInt8)) :
    List (List UInt8 × Nat) :=
  (outputs pack (packInit buf) reads).map fun f => (f.bytes,f.out_len)

theorem emitted_bytes (pack : PackState → List UInt8 → PackState × Option Packed) (buf : Mem) (reads : List (List UInt8)) :
    emitted pack buf reads = ((outputs pack (packInit buf) reads).map Packed.bytes).map fun bytes => (bytes,bytes.length) := by
  simp [emitted,Packed.bytes]

theorem schedules_agree {p : Packing} {cfg : Config} {stream : List UInt8} {buf₁ buf₂ : Mem}
    {reads₁ reads₂ : List (List UInt8)} (first : Schedule p cfg stream buf₁ reads₁)
    (second : Schedule p cfg stream buf₂ reads₂) :
    emitted (packFrame p) buf₁ (reads₁ ++ [[]]) = emitted (packFrame p) buf₂ (reads₂ ++ [[]]) := by
  rw [emitted_bytes,emitted_bytes,first.frames,second.frames]

/-- What the packers hand out does not depend on how the UART delivers a stream. -/
theorem framing_schedule_independent (cfg : Config) (stream : List UInt8) (buf₁ buf₂ : Mem)
    (reads₁ reads₂ : List (List UInt8)) :
    (Schedule packing645 cfg stream buf₁ reads₁ → Schedule packing645 cfg stream buf₂ reads₂ →
      emitted elec_dev_pack_645_frame buf₁ (reads₁ ++ [[]]) = emitted elec_dev_pack_645_frame buf₂ (reads₂ ++ [[]])) ∧
    (Schedule packing13762 cfg stream buf₁ reads₁ → Schedule packing13762 cfg stream buf₂ reads₂ →
      emitted elec_dev_pack_1376_2_frame buf₁ (reads₁ ++ [[]]) =
        emitted elec_dev_pack_1376_2_frame buf₂ (reads₂ ++ [[]])) :=
  ⟨schedules_agree,schedules_agree⟩

theorem framing_two_schedules :
    emitted elec_dev_pack_645_frame (fun _ => 0)
        ([[0xFE],[0x68],[1],[2],[3],[4],[5],[6],[0x68],[0x11],[0],[0x10],[0x16]] ++ [[]]) =
      emitted elec_dev_pack_645_frame (fun _ => 0xFF)
        ([[],[0xFE],[0x68],[1,2,3,4,5,6,0x68,0x11,0],[],[0x10,0x16]] ++ [[]]) ∧
    emitted elec_dev_pack_1376_2_frame (fun _ => 0) ([[1],[0x68],[3,0]] ++ [[]]) =
      emitted elec_dev_pack_1376_2_frame (fun _ => 0xFF) ([[1],[],[0x68],[3],[0]] ++ [[]]) :=
  ⟨(framing_schedule_independent defaultConfig [0xFE,0x68,1,2,3,4,5,6,0x68,0x11,0,0x10,0x16] (fun _ => 0) (fun _ => 0xFF)
      [[0xFE],[0x68],[1],[2],[3],[4],[5],[6],[0x68],[0x11],[0],[0x10],[0x16]]
      [[],[0xFE],[0x68],[1,2,3,4,5,6,0x68,0x11,0],[],[0x10,0x16]]).1
      ⟨rfl,by decide,by decide,patient_short _ (by decide)⟩ ⟨rfl,by decide,by decide,patient_short _ (by decide)⟩,
    (framing_schedule_independent defaultConfig [1,0x68,3,0] (fun _ => 0) (fun _ => 0xFF)
      [[1],[0x68],[3,0]] [[1],[],[0x68],[3],[0]]).2
      ⟨rfl,by decide,by decide,patient_short _ (by decide)⟩ ⟨rfl,by decide,by decide,patient_short _ (by decide)⟩⟩

end Ucm108e.Polling
