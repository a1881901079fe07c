import Ucm108e.Polling
import Ucm108e.Wire

/-!
Frames sent over the line reach the application. A stream of well-formed frames,
with what may stand between them, gives out one frame for each, in order, for
every way the UART spreads the bytes over the polls that keeps a frame within
its time; and each is decoded into the fields it was made of.
-/
namespace Ucm108e.Delivery
open Ucm108e.Bytes Ucm108e.Machine Ucm108e.Framing Ucm108e.Access Ucm108e.Packer Ucm108e.Codec
open Ucm108e.PackedFrames Ucm108e.Bounds Ucm108e.Polling Ucm108e.Wire
set_option linter.unusedSimpArgs false

/-- At most 10000 polls fall between the poll that reads the head of a frame and
    the one that reads its last byte. -/
def Prompt (reads : List (List UInt8)) (spans : List (Nat × Nat)) : Prop :=
  ∀ span ∈ spans, ∀ before between after, reads = before ++ between ++ after →
    span.1 < before.flatten.length → (before ++ between).flatten.length ≤ span.2 → between.length ≤ 10000

theorem prompt_short {reads : List (List UInt8)} (short : reads.length ≤ 10000) (spans : List (Nat × Nat)) :
    Prompt reads spans := by
  intro span _ before between after same _ _
  rw [same] at short
  simp only [List.length_append] at short
  omega

/-! ### A stream of frames -/

section
variable {p : Packing} {segments : List (Segment UInt8)} {trail : List UInt8} {buf : Mem} {reads : List (List UInt8)}
variable (delivers : reads.flatten = symbols segments trail)
include delivers

theorem framer_prefix {before after : List (List UInt8)} (same : reads = before ++ after)
    (regular : Along (packFrame p) Regular (packInit buf) before) :
    final (feed (scheme p)) idle ((symbols segments trail).take before.flatten.length) =
      framer (final (packFrame p) (packInit buf) before) := by
  rw [← (run_framer (shape_init buf) regular).1,← delivers,same,List.flatten_append,List.take_left]
  rfl

theorem prefix_le {before after : List (List UInt8)} (same : reads = before ++ after) :
    before.flatten.length ≤ (symbols segments trail).length := by
  rw [← delivers,same]
  simp

variable (ok : Stream (scheme p) segments trail)
include ok

/-- A poll inside a frame starts past its head and ends before its last byte. -/
theorem inside_span {before after : List (List UInt8)} {r : List UInt8} (same : reads = before ++ after)
    (regular : Along (packFrame p) Regular (packInit buf) before)
    (served : Served (final (packFrame p) (packInit buf) before) r)
    (inside : Inside (final (packFrame p) (packInit buf) before) r) :
    ∃ span ∈ spans 0 segments, span.1 < before.flatten.length ∧ before.flatten.length+r.length ≤ span.2 := by
  have reached := framer_prefix delivers same regular
  have le := prefix_le delivers same
  have shape := shape_run (shape_init buf) regular
  generalize final (packFrame p) (packInit buf) before = s at reached shape served inside
  unfold Served at served
  cases step : s.parse_step with
  | step0 => exact absurd step inside.1
  | step1 =>
    rw [(framer_step1 step).1] at reached
    obtain ⟨⟨span,member,past,_,header⟩,_⟩ := stream_inside ok 0 le reached
    have := header rfl
    exact ⟨span,member,by omega,by omega⟩
  | step2 =>
    have few : r.length ≠ s.need_len := fun all => inside.2 ⟨step,all⟩
    rw [(framer_step2 step (by omega)).1] at reached
    obtain ⟨⟨span,member,past,bound,_⟩,_⟩ := stream_inside ok 0 le reached
    exact ⟨span,member,by omega,by omega⟩

/-- Polls inside a frame, one after the other, are inside the same frame. -/
theorem since_span {before since after : List (List UInt8)} {r : List UInt8} (same : reads = before ++ since ++ r :: after)
    (served : Along (packFrame p) Served (packInit buf) reads)
    (regular : Along (packFrame p) Regular (packInit buf) (before ++ since))
    (inside : Along (packFrame p) Inside (final (packFrame p) (packInit buf) before) (since ++ [r])) :
    ∃ span ∈ spans 0 segments, span.1 < before.flatten.length ∧ (before ++ (since ++ [r])).flatten.length ≤ span.2 := by
  induction since generalizing before with
  | nil =>
    rw [List.append_nil] at regular same
    rw [same,along_append] at served
    obtain ⟨span,member,past,bound⟩ := inside_span delivers ok same regular served.2.1 inside.1
    exact ⟨span,member,past,by simpa using bound⟩
  | cons x since ih =>
    have split : reads = before ++ [x] ++ since ++ r :: after := by rw [same]; simp
    have rest : reads = before ++ (x :: since ++ r :: after) := by rw [same]; simp
    have started := (along_append _ _ _ _ _).mp regular
    have later := ih split (by simpa using regular) (by rw [final_append]; exact inside.2)
    have here : ∃ span ∈ spans 0 segments, span.1 < before.flatten.length ∧ before.flatten.length+x.length ≤ span.2 :=
      inside_span delivers ok rest started.1 started.2.1.served inside.1
    obtain ⟨span,member,past,bound⟩ := later
    obtain ⟨span',member',past',bound'⟩ := here
    have one : span' = span := by
      simp only [List.flatten_append,List.length_append,List.flatten_cons,List.flatten_nil,List.append_nil] at past bound
      exact spans_disjoint 0 member' member (j := before.flatten.length+x.length) (by omega) (by omega) (by omega) (by omega)
    subst one
    exact ⟨span',member,past',by simpa using bound⟩

/-- Every poll that delivers the stream in time is regular. -/
theorem stream_regular (small : ∀ g ∈ segments, g.out.length < 65536)
    (served : Along (packFrame p) Served (packInit buf) reads) (prompt : Prompt reads (spans 0 segments)) :
    Along (packFrame p) Regular (packInit buf) reads := by
  apply along_of_prefixes
  intro before r after same regular
  have now := served
  rw [same,along_append] at now
  refine ⟨now.2.1,live_next regular fun first since split inside => ?_,?_⟩
  · have cut : reads = first ++ since ++ r :: after := by rw [same,split]
    obtain ⟨span,member,past,bound⟩ := since_span delivers ok cut served (by rw [← split]; exact regular) inside
    have few := prompt span member first (since ++ [r]) after (by rw [cut]; simp) past bound
    simpa using few
  · have reached := framer_prefix delivers same regular
    have le := prefix_le delivers same
    have shape := shape_run (shape_init buf) regular
    generalize final (packFrame p) (packInit buf) before = s at reached shape
    cases step : s.parse_step with
    | step0 =>
      have := shape.step0 step
      omega
    | step1 =>
      have := shape.step1 step
      omega
    | step2 =>
      rcases Nat.eq_zero_or_pos s.need_len with none | some
      · have := shape.now_lt
        omega
      · rw [(framer_step2 step (by omega)).1] at reached
        obtain ⟨_,g,member,whole⟩ := stream_inside ok 0 le reached
        have := small g member
        rw [heldBy_length] at whole
        omega
end

theorem poll_to_pending {p : Packing} {s : PackState} {r : List UInt8} (shape : Shape s) (served : Served s r)
    (waits : pending (packFrame p s r).1 ≠ []) : Inside s r := by
  have poll := poll_cases p shape served
  generalize packFrame p s r = next at poll waits
  cases poll with
  | idle at0 => exact absurd (framer_step0 at0).2 waits
  | again at0 b head => simp [pending,at0] at waits
  | dropped at0 b head => simp [pending,at0] at waits
  | found at0 b n head => exact absurd (framer_step1 rfl).2 waits
  | header at1 _ few => exact ⟨by simp [at1],by simp [at1]⟩
  | announced at1 _ all => exact ⟨by simp [at1],by simp [at1]⟩
  | body at2 _ few => exact ⟨by simp [at2],by rintro ⟨_,all⟩; omega⟩
  | finished at2 _ all => exact absurd (framer_finished _).2 waits

/-- The polls that deliver a stream in time hand out its frames. -/
theorem delivered {p : Packing} {segments : List (Segment UInt8)} {trail : List UInt8} {buf : Mem}
    {reads : List (List UInt8)} (ok : Stream (scheme p) segments trail) (delivers : reads.flatten = symbols segments trail)
    (small : ∀ g ∈ segments, g.out.length < 65536) (served : Along (packFrame p) Served (packInit buf) reads)
    (prompt : Prompt reads (spans 0 segments)) :
    (outputs (packFrame p) (packInit buf) reads).map Packed.bytes = segments.map Segment.out := by
  have regular := stream_regular delivers ok small served prompt
  have run := run_framer (shape_init buf) regular
  -- The body of a frame is not empty, so no frame is left pending.
  have none : pending (final (packFrame p) (packInit buf) reads) = [] := by
    by_contra waits
    have reached := framer_prefix delivers (List.append_nil reads).symm regular
    rcases List.eq_nil_or_concat reads with rfl | ⟨earlier,r,rfl⟩
    · exact waits rfl
    · simp only [List.concat_eq_append] at *
      rw [along_append] at served regular
      rw [final_append] at waits reached
      have shape := shape_run (shape_init buf) regular.1
      have inside := poll_to_pending shape served.2.1 waits
      obtain ⟨span,member,past,bound⟩ := inside_span delivers ok rfl regular.1 served.2.1 inside
      have length : (earlier ++ [r]).flatten.length = earlier.flatten.length+r.length := by
        rw [List.flatten_append,List.length_append,List.flatten_singleton]
      obtain ⟨part,m,phase⟩ := stream_occupied ok 0 member (j := (earlier ++ [r]).flatten.length)
        (by omega) (by omega)
      rw [reached,framer_of_pending waits] at phase
      cases phase
  rw [none,List.append_nil] at run
  rw [← stream_frames ok,← delivers,Framing.frames]
  exact run.2.symm

theorem handed_window {f : Packed} {bytes : List UInt8} (same : f.bytes = bytes) :
    f.out_len = bytes.length ∧ window f.out_buf 0 bytes.length = bytes := by
  subst same
  simp [Packed.bytes]

theorem forall₂_handed {ι : Type} {out : ι → List UInt8} {P : ι → Prop} {R : Packed → ι → Prop} {handed : List Packed}
    {sent : List ι} (same : handed.map Packed.bytes = sent.map out) (all : ∀ x ∈ sent, P x)
    (each : ∀ f x, f.bytes = out x → P x → R f x) : List.Forall₂ R handed sent := by
  induction sent generalizing handed with
  | nil =>
    rw [List.map_nil,List.map_eq_nil_iff] at same
    rw [same]
    exact .nil
  | cons x rest ih =>
    obtain ⟨f,others,rfl,first,later⟩ := List.map_eq_cons_iff.mp same
    have here := each f x first (all x (List.mem_cons_self ..))
    exact .cons here (ih later fun y member => all y (List.mem_cons_of_mem _ member))

/-! ### DL/T 645 -/

/-- A 645 frame behind `k` preamble bytes, of which the packer keeps the last
    `k % 5`. -/
def segment645 (k : Nat) (x : Frame645) : Segment UInt8 where
  lead := List.replicate k 0xFE
  kept := List.replicate (k % 5) 0xFE
  head := 0x68
  header := List.ofFn x.addr ++ [0x68,x.ctrl,UInt8.ofNat x.data.length]
  body := x.data.map (· + 0x33) ++ [x.covered.sum,0x16]

theorem segment645_frame (k : Nat) (x : Frame645) : (segment645 k x).frame = x.wire := by
  simp [Segment.frame,segment645,Frame645.wire,Frame645.covered]

theorem preamble_run (k : Nat) :
    final (feed (scheme packing645)) idle (List.replicate k 0xFE) = ⟨.outside,List.replicate (k % 5) 0xFE⟩ ∧
      outputs (feed (scheme packing645)) idle (List.replicate k 0xFE) = [] := by
  induction k with
  | zero => exact ⟨rfl,rfl⟩
  | succ k ih =>
    have last : (scheme packing645).head (List.replicate (k % 5) 0xFE ++ [0xFE]) =
        if k % 5+1 ≤ 4 then .again else .restart := by
      simp [scheme,packing645]
    rw [List.replicate_succ',final_append,outputs_append,ih.1,ih.2]
    by_cases room : k % 5+1 ≤ 4
    · have next : (k+1) % 5 = k % 5+1 := by omega
      simp [final,outputs,feed,last,room,next,List.replicate_succ']
    · have next : (k+1) % 5 = 0 := by omega
      simp [final,outputs,feed,last,room,next,idle]

theorem rest645 (held : List UInt8) (b : UInt8) : (scheme packing645).rest (held ++ [b]) = b.toNat+2 := by
  have small := b.toNat_lt
  simp [scheme,packing645,u16]
  omega

theorem leads645 (k : Nat) : Leads (scheme packing645) (List.replicate k 0xFE) (List.replicate (k % 5) 0xFE) := by
  refine ⟨fun j _ => ?_,(preamble_run k).1,(preamble_run k).2⟩
  rw [List.take_replicate,(preamble_run _).1]

theorem segment645_ok (k : Nat) (x : Frame645) : (segment645 k x).Ok (scheme packing645) := by
  refine ⟨leads645 k,?_,?_,?_,?_⟩
  · simp [scheme,packing645,segment645]
  · simp [segment645]
  · have last : (segment645 k x).kept ++ (segment645 k x).head :: (segment645 k x).header =
        ((segment645 k x).kept ++ 0x68 :: (List.ofFn x.addr ++ [0x68,x.ctrl])) ++ [UInt8.ofNat x.data.length] := by
      simp [segment645]
    rw [last,rest645,x.datalen_toNat]
    simp [segment645]
  · simp [segment645]

/-- What goes over the line: each frame behind as many preamble bytes as it has. -/
def line645 (sent : List (Nat × Frame645)) : List UInt8 :=
  sent.flatMap fun x => List.replicate x.1 0xFE ++ x.2.wire

def segments645 (sent : List (Nat × Frame645)) : List (Segment UInt8) := sent.map fun x => segment645 x.1 x.2

theorem line645_symbols (sent : List (Nat × Frame645)) : line645 sent = symbols (segments645 sent) [] := by
  simp only [line645,symbols,segments645,List.flatMap_map,List.append_nil,Segment.symbols,segment645_frame]
  rfl

theorem stream645 (sent : List (Nat × Frame645)) : Stream (scheme packing645) (segments645 sent) [] := by
  refine ⟨fun g member => ?_,[],leads645 0⟩
  obtain ⟨x,_,rfl⟩ := List.mem_map.mp member
  exact segment645_ok x.1 x.2

/-- `parse_frame` returns 0 and leaves the fields of the frame to its caller,
    whatever the block and the caller's buffer held. -/
def Parsed645 (cfg : Config) (f : Packed) (x : Frame645) : Prop :=
  ∀ block outbuf, (Dlt645.elec_dev_parse_645_frame cfg (some block) f.out_buf f.out_len outbuf).1 = 0 ∧
    Received645 x (Dlt645.elec_dev_parse_645_frame cfg (some block) f.out_buf f.out_len outbuf).2

/-- The 645 receive path delivers every frame: for any preambles and any polling
    that is prompt enough, the frames are handed out one by one, in order, and
    each is parsed into its fields. -/
theorem deliver_645 (cfg : Config) (sent : List (Nat × Frame645))
    (fits : ∀ x ∈ sent, 16+x.2.data.length ≤ cfg.trans_max_len) (buf : Mem) (reads : List (List UInt8))
    (delivers : reads.flatten = line645 sent) (served : Along elec_dev_pack_645_frame Served (packInit buf) reads)
    (prompt : Prompt reads (spans 0 (segments645 sent))) :
    List.Forall₂ (fun f x => Parsed645 cfg f x.2)
      (outputs elec_dev_pack_645_frame (packInit buf) reads) sent := by
  have small : ∀ g ∈ segments645 sent, g.out.length < 65536 := by
    intro g member
    obtain ⟨x,_,rfl⟩ := List.mem_map.mp member
    have short := x.2.short
    simp only [Segment.out,segment645_frame,List.length_append,Frame645.wire_length]
    simp only [segment645,List.length_replicate]
    omega
  have handed := delivered (stream645 sent) (delivers.trans (line645_symbols sent)) small served prompt
  rw [segments645,List.map_map] at handed
  refine forall₂_handed handed fits fun f x bytes fits block outbuf => ?_
  have holds : window f.out_buf 0 f.out_len = List.replicate (x.1 % 5) 0xFE ++ x.2.wire := by
    rw [← segment645_frame x.1 x.2]
    exact bytes
  exact parse_wire645 (by omega) holds (by omega) block outbuf

theorem deliver_645_two :
    List.Forall₂ (fun f x => Parsed645 defaultConfig f x.2)
      (outputs elec_dev_pack_645_frame (packInit fun _ => 0)
        [[0xFE],[0xFE],[],[0x68],[1,2,3,4,5,6,0x68,0x91,2],[0x33],[0x31],[0xDC,0x16],[0x68],[1,2,3,4,5,6,0x68],[0x11,0],
          [0xF6,0x16]])
      [(2,⟨fun i => UInt8.ofNat (i+1),0x91,[0,0xFE],by decide⟩),(0,⟨fun i => UInt8.ofNat (i+1),0x11,[],by decide⟩)] :=
  deliver_645 defaultConfig
    [(2,⟨fun i => UInt8.ofNat (i+1),0x91,[0,0xFE],by decide⟩),(0,⟨fun i => UInt8.ofNat (i+1),0x11,[],by decide⟩)]
    (by decide) (fun _ => 0)
    [[0xFE],[0xFE],[],[0x68],[1,2,3,4,5,6,0x68,0x91,2],[0x33],[0x31],[0xDC,0x16],[0x68],[1,2,3,4,5,6,0x68],[0x11,0],
      [0xF6,0x16]]
    (by decide) (by decide) (prompt_short (by decide) _)

/-! ### Q/GDW 1376.2 -/

/-- A 1376.2 frame behind bytes that are no head, of which none is kept. -/
def segment13762 (gap : List UInt8) (x : Frame13762) : Segment UInt8 where
  lead := gap
  kept := []
  head := 0x68
  header := [UInt8.ofNat x.length,UInt8.ofNat (x.length/256)]
  body := x.covered ++ [x.covered.sum,0x16]

theorem segment13762_frame (gap : List UInt8) (x : Frame13762) : (segment13762 gap x).frame = x.wire := rfl

theorem segment13762_out (gap : List UInt8) (x : Frame13762) : (segment13762 gap x).out = x.wire := rfl

theorem gap_run {gap : List UInt8} (quiet : ∀ b ∈ gap, b ≠ 0x68) :
    final (feed (scheme packing13762)) idle gap = idle ∧ outputs (feed (scheme packing13762)) idle gap = [] := by
  induction gap with
  | nil => exact ⟨rfl,rfl⟩
  | cons b rest ih =>
    have drops : feed (scheme packing13762) idle b = (idle,none) := by
      simp [feed,idle,scheme,packing13762,quiet b (List.mem_cons_self ..)]
    have later := ih fun c member => quiet c (List.mem_cons_of_mem _ member)
    simp [final,outputs,drops,later]

theorem leads13762 {gap : List UInt8} (quiet : ∀ b ∈ gap, b ≠ 0x68) : Leads (scheme packing13762) gap [] := by
  refine ⟨fun j _ => ?_,(gap_run quiet).1,(gap_run quiet).2⟩
  rw [(gap_run fun b member => quiet b (List.mem_of_mem_take member)).1]
  rfl

theorem segment13762_ok {gap : List UInt8} (quiet : ∀ b ∈ gap, b ≠ 0x68) {x : Frame13762} (small : x.length < 65536) :
    (segment13762 gap x).Ok (scheme packing13762) := by
  refine ⟨leads13762 quiet,?_,?_,?_,?_⟩
  · simp [scheme,packing13762,segment13762]
  · simp [segment13762]
  · have announced := le16_bytes x.length small
    simp only [segment13762,scheme,packing13762,List.nil_append,List.length_cons,List.length_nil]
    simp [announced,u16]
    unfold Frame13762.length at *
    omega
  · simp [segment13762]

/-- What goes over the line: each frame behind its gap, and a last gap. -/
def line13762 (sent : List (List UInt8 × Frame13762)) (trail : List UInt8) : List UInt8 :=
  sent.flatMap (fun x => x.1 ++ x.2.wire) ++ trail

def segments13762 (sent : List (List UInt8 × Frame13762)) : List (Segment UInt8) :=
  sent.map fun x => segment13762 x.1 x.2

theorem line13762_symbols (sent : List (List UInt8 × Frame13762)) (trail : List UInt8) :
    line13762 sent trail = symbols (segments13762 sent) trail := by
  simp only [line13762,symbols,segments13762,List.flatMap_map,Segment.symbols,segment13762_frame]
  rfl

/-- `parse_frame` returns 0 and leaves the fields of the frame to its caller,
    whatever the block and the caller's buffer held. -/
def Parsed13762 (cfg : Config) (f : Packed) (x : Frame13762) : Prop :=
  ∀ block outbuf, (Gdw13762.elec_dev_parse_1376_2_frame cfg (some block) f.out_buf f.out_len outbuf).1 = 0 ∧
    Received13762 x (Gdw13762.elec_dev_parse_1376_2_frame cfg (some block) f.out_buf f.out_len outbuf).2

/-- The 1376.2 receive path delivers every frame: for any bytes but heads in the
    gaps and any polling that is prompt enough, the frames are handed out one by
    one, in order, and each is parsed into its fields. -/
theorem deliver_1376_2 (cfg : Config) (sent : List (List UInt8 × Frame13762)) (trail : List UInt8)
    (fits : ∀ x ∈ sent, x.2.length ≤ cfg.trans_max_len)
    (quiet : (∀ x ∈ sent, ∀ b ∈ x.1, b ≠ 0x68) ∧ ∀ b ∈ trail, b ≠ 0x68) (buf : Mem) (reads : List (List UInt8))
    (delivers : reads.flatten = line13762 sent trail)
    (served : Along elec_dev_pack_1376_2_frame Served (packInit buf) reads)
    (prompt : Prompt reads (spans 0 (segments13762 sent))) :
    List.Forall₂ (fun f x => Parsed13762 cfg f x.2)
      (outputs elec_dev_pack_1376_2_frame (packInit buf) reads) sent := by
  have range := cfg.range
  have stream : Stream (scheme packing13762) (segments13762 sent) trail := by
    refine ⟨fun g member => ?_,[],leads13762 quiet.2⟩
    obtain ⟨x,inside,rfl⟩ := List.mem_map.mp member
    have := fits x inside
    exact segment13762_ok (quiet.1 x inside) (by omega)
  have small : ∀ g ∈ segments13762 sent, g.out.length < 65536 := by
    intro g member
    obtain ⟨x,inside,rfl⟩ := List.mem_map.mp member
    have := fits x inside
    rw [segment13762_out,x.2.wire_length]
    omega
  have handed := delivered stream (delivers.trans (line13762_symbols sent trail)) small served prompt
  rw [segments13762,List.map_map] at handed
  refine forall₂_handed handed fits fun f x bytes fits block outbuf => ?_
  obtain ⟨length,holds⟩ := handed_window (bytes.trans (segment13762_out x.1 x.2))
  rw [length]
  exact parse_wire13762 holds fits block outbuf

theorem deliver_1376_2_addressed :
    List.Forall₂ (fun f x => Parsed13762 defaultConfig f x.2)
      (outputs elec_dev_pack_1376_2_frame (packInit fun _ => 0)
        [[1],[0xFE],[0x68],[29],[0],[0x41,4,0,0,0,0,0,1,2,3,4,5,6,7,8,9,10,11,12,2],[1,0,0x68,0x16],[0x14],[],[0x16],[0x16]])
      [(([1,0xFE] : List UInt8),⟨0x41,fun i => if i = 0 then 4 else 0,fun i => UInt8.ofNat (i+1),fun i => UInt8.ofNat (i+7),2,1,
        [0x68,0x16]⟩)] :=
  deliver_1376_2 defaultConfig
    [([1,0xFE],⟨0x41,fun i => if i = 0 then 4 else 0,fun i => UInt8.ofNat (i+1),fun i => UInt8.ofNat (i+7),2,1,
      [0x68,0x16]⟩)]
    [0x16] (by decide) ⟨by simp,by simp⟩ (fun _ => 0)
    [[1],[0xFE],[0x68],[29],[0],[0x41,4,0,0,0,0,0,1,2,3,4,5,6,7,8,9,10,11,12,2],[1,0,0x68,0x16],[0x14],[],[0x16],[0x16]]
    (by decide +kernel) (by decide +kernel) (prompt_short (by decide) _)

end Ucm108e.Delivery
