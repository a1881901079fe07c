import Ucm108e.Bounds

/-!
The receive loop of `elec_thread.c`. In each turn the packer is polled; a frame
it hands out is parsed into `data_buf`, and `recvapp` is called when the parser
returns 0. The parser returns 0 whenever it gets a block from the heap, also
when the decoder has turned the frame down, and the 1376.2 decoder accepts frames
that end before its fixed fields do, reads on behind them and writes past the
block. So the calls carry the contents of the decoded frames only in runs
without a frame of either kind.
-/
namespace Ucm108e.Thread
open Ucm108e.Bytes Ucm108e.Machine Ucm108e.Access Ucm108e.Packer Ucm108e.Codec Ucm108e.PackedFrames Ucm108e.Bounds
set_option linter.unusedSimpArgs false

inductive ElecDevType where
  | meter
  | cco
  | ctrler
  deriving DecidableEq, Repr

/-- The structure that the frames of a device are decoded into. -/
abbrev Format : ElecDevType → Type
  | .meter => Dlt645.SDlt645Format
  | .cco => Gdw13762.S13762Format
  | .ctrler => Dlt645.SDlt645Format

/-- What the receive loop uses of `s_dev_reg`. `recvapp` may change the buffer it
    is given. -/
structure SDevReg (F : Type) where
  pack_frame : PackState → List UInt8 → PackState × Option Packed
  parse_frame : Option F → Mem → Nat → F → Int × F
  recvapp : F → F

def elec_dev_register (cfg : Config) :
    (devtype : ElecDevType) → (recvfn : Format devtype → Format devtype) → SDevReg (Format devtype)
  | .meter, recvfn => ⟨elec_dev_pack_645_frame,Dlt645.elec_dev_parse_645_frame cfg,recvfn⟩
  | .ctrler, recvfn => ⟨elec_dev_pack_645_frame,Dlt645.elec_dev_parse_645_frame cfg,recvfn⟩
  | .cco, recvfn => ⟨elec_dev_pack_1376_2_frame,Gdw13762.elec_dev_parse_1376_2_frame cfg,recvfn⟩

/-- The variables that the loop keeps; `recv_buf` is the buffer of the packer. -/
structure ThreadState (F : Type) where
  pack : PackState
  data_buf : F

/-- What a turn of the loop meets: the bytes the UART delivers, and what
    `rt_malloc` returns if it is called. -/
structure Turn (F : Type) where
  bytes : List UInt8
  heap : Option F

variable {F : Type}

/-- One turn of `while (1)` in `elec_dev_thread`, with what `recvapp` is called
    with. -/
def elec_dev_thread (dev : SDevReg F) (s : ThreadState F) (x : Turn F) : ThreadState F × Option F :=
  let (pack,frame) := dev.pack_frame s.pack x.bytes
  match frame with
  | none => ({ s with pack := pack },none)
  | some f =>
    let (ret,data_buf) := dev.parse_frame x.heap f.out_buf f.out_len s.data_buf
    if ret = 0 then (⟨pack,dev.recvapp data_buf⟩,some data_buf) else (⟨pack,data_buf⟩,none)

/-! ### The frames that were decoded -/

def packing : ElecDevType → Packing
  | .meter => packing645
  | .cco => packing13762
  | .ctrler => packing645

def protocol (cfg : Config) : (devtype : ElecDevType) → Protocol (Format devtype)
  | .meter => Dlt645.protocol645 cfg
  | .cco => Gdw13762.protocol13762 cfg
  | .ctrler => Dlt645.protocol645 cfg

/-- The contents decoded in a turn, if it packs a frame for which the decoder
    returns 0. -/
def decodedIn (p : Packing) (k : Protocol F) (s : ThreadState F) (x : Turn F) : Option F :=
  match (packFrame p s.pack x.bytes).2, x.heap with
  | some f, some block =>
    if (decoded k block f.out_buf f.out_len).1 = 0 then some (decoded k block f.out_buf f.out_len).2 else none
  | _, _ => none

/-- The bytes that `memcpy` copies are the same in both. -/
def SameBlock (k : Protocol F) (data_buf plcdata : F) : Prop := k.memcpy data_buf plcdata = data_buf

/-- The contents are those of the frame alone: the decoder reads no byte behind
    the frame and writes none behind the block. -/
def OwnContents (cfg : Config) (k : Protocol F) (block : F) (f : Packed) : Prop :=
  ∀ inlen call, decodeCall k block f.out_buf f.out_len = some (inlen,call) → Within call (sizes inlen cfg.trans_max_len)

/-- The calls of `recvapp` are, in order, those for the frames that were decoded,
    each with the contents of its frame and of nothing else, and a turn that
    decodes none makes none. -/
structure Faithful (cfg : Config) (p : Packing) (k : Protocol F) (dev : SDevReg F) (s : ThreadState F)
    (turns : List (Turn F)) : Prop where
  calls : List.Forall₂ (SameBlock k) (outputs (elec_dev_thread dev) s turns)
    (outputs (relabel (elec_dev_thread dev) (decodedIn p k)) s turns)
  own : Along (elec_dev_thread dev) (fun s x => ∀ f block, (packFrame p s.pack x.bytes).2 = some f → x.heap = some block →
    (decoded k block f.out_buf f.out_len).1 = 0 → OwnContents cfg k block f) s turns
  silent : Along (elec_dev_thread dev) (fun s x => decodedIn p k s x = none → (elec_dev_thread dev s x).2 = none) s turns

/-- What the 1376.2 decoder asks of a frame, apart from the head and the length
    that the packer has looked at. -/
structure Checked13762 (m : Mem) (len : Nat) : Prop where
  long : 7 ≤ len
  check : (window m 3 (len-5)).sum = m (len-2)
  tail : m (len-1) = 0x16

/-- The frames that are decoded from their own bytes. A 1376.2 frame has room for
    its fixed fields, the checksum and the tail as well: 15 bytes, or 27 with the
    module flag. -/
def WellFormed (cfg : Config) : ElecDevType → Mem → Nat → Prop
  | .meter, m, len => ∃ k, Framed645 m len k ∧ Dlt645.Accepts cfg (shift m k) (len-k)
  | .cco, m, len => Checked13762 m len ∧ Gdw13762.dataPos m+2 ≤ len
  | .ctrler, m, len => ∃ k, Framed645 m len k ∧ Dlt645.Accepts cfg (shift m k) (len-k)

/-- A turn whose bytes complete a frame, with a block for it on the heap,
    completes a well-formed one. -/
def Completing (cfg : Config) (t : ElecDevType) (s : ThreadState (Format t)) (x : Turn (Format t)) : Prop :=
  s.pack.parse_step = .step2 → x.bytes.length = s.pack.need_len → x.heap.isSome →
    WellFormed cfg t (store s.pack.out_buf s.pack.now_len x.bytes) (s.pack.now_len+x.bytes.length)

/-! ### One turn -/

section
variable {p : Packing} {k : Protocol F} {dev : SDevReg F} (packs : dev.pack_frame = packFrame p)
include packs

theorem turn_pack (s : ThreadState F) (x : Turn F) :
    (elec_dev_thread dev s x).1.pack = (packFrame p s.pack x.bytes).1 := by
  unfold elec_dev_thread
  rw [packs]
  simp only
  split
  · rfl
  · split <;> rfl

variable (parses : dev.parse_frame = parseFrame k)
include parses

/-- `recvapp` is called for every frame that a block was found for, whatever the
    decoder has returned. -/
theorem turn_calls (s : ThreadState F) (x : Turn F) :
    (elec_dev_thread dev s x).2 = match (packFrame p s.pack x.bytes).2, x.heap with
      | some f, some block => some (if (decoded k block f.out_buf f.out_len).1 = 0
          then k.memcpy s.data_buf (decoded k block f.out_buf f.out_len).2 else s.data_buf)
      | _, _ => none := by
  unfold elec_dev_thread
  rw [packs,parses]
  obtain ⟨pack,frame⟩ := packFrame p s.pack x.bytes
  cases frame with
  | none => rfl
  | some f =>
    cases x.heap with
    | none => rfl
    | some block => simp [parseFrame_some]

theorem turn_decoded (again : ∀ a b, k.memcpy (k.memcpy a b) b = k.memcpy a b) {s : ThreadState F} {x : Turn F} {w : F}
    (wanted : decodedIn p k s x = some w) : ∃ o, (elec_dev_thread dev s x).2 = some o ∧ SameBlock k o w := by
  rw [turn_calls packs parses]
  unfold decodedIn at wanted
  split at wanted
  next f block frame heap =>
    split at wanted
    next zero =>
      cases wanted
      simp only [zero,if_true]
      exact ⟨_,rfl,again _ _⟩
    next => cases wanted
  next => cases wanted

/-- A turn without a decoded frame makes no call exactly when it completes no
    frame that is turned down. -/
theorem turn_silent_iff {s : ThreadState F} {x : Turn F} :
    (decodedIn p k s x = none → (elec_dev_thread dev s x).2 = none) ↔
      ∀ f block, (packFrame p s.pack x.bytes).2 = some f → x.heap = some block →
        (decoded k block f.out_buf f.out_len).1 = 0 := by
  rw [turn_calls packs parses]
  unfold decodedIn
  cases (packFrame p s.pack x.bytes).2 with
  | none => simp
  | some f =>
    cases x.heap with
    | none => simp
    | some block => simp
end

/-! ### The decoders' verdicts on packed frames -/

theorem verdict645 (cfg : Config) {m : Mem} {len : Nat} (counted : Counted packing645 m len 0)
    (block : Dlt645.SDlt645Format) :
    (decoded (Dlt645.protocol645 cfg) block m len).1 = 0 ↔
      ∃ k, Framed645 m len k ∧ Dlt645.Accepts cfg (shift m k) (len-k) := by
  constructor
  · intro zero
    obtain ⟨k,framed⟩ := counted645 counted
    rw [decoded,decodeCall645 cfg block framed] at zero
    exact ⟨k,framed,Dlt645.decode_zero zero⟩
  · rintro ⟨k,framed,accepts⟩
    rw [decoded,decodeCall645 cfg block framed]
    exact (Dlt645.decode_zero_iff _ _ _ _).mpr accepts

theorem verdict13762 (cfg : Config) {m : Mem} {len : Nat} (small : len < 65536) (counted : Counted packing13762 m len 0)
    (block : Gdw13762.S13762Format) :
    (decoded (Gdw13762.protocol13762 cfg) block m len).1 = 0 ↔ Checked13762 m len := by
  have framed := counted13762 small counted
  rw [decoded,decodeCall13762 cfg block small framed]
  rcases Nat.lt_or_ge len 7 with short | long
  · simp only [Gdw13762.decode_short m short,val_pure]
    constructor
    · intro zero
      cases zero
    · intro checked
      exact absurd checked.long (by omega)
  · have position : Gdw13762.checkPos m = len-2 := by
      rw [Gdw13762.checkPos,framed.length]
      unfold u16
      omega
    have next : u16 ((len-2 : Nat)+1) = len-1 := u16_eq (by omega) (by omega)
    have count : len-2-3 = len-5 := by omega
    have cleared : (Gdw13762.memset cfg block).module_flag = 0 := rfl
    simp only [Gdw13762.decode_val long framed.head cleared,position,Gdw13762.verdictAt,next,count]
    constructor
    · intro zero
      split_ifs at zero with check tail
      exact ⟨long,not_not.mp check,not_not.mp tail⟩
    · intro checked
      simp [checked.check,checked.tail]

/-- A 645 frame that fits `recv_buf` is decoded from its own bytes. -/
theorem own645 (cfg : Config) {m : Mem} {len : Nat} (fits : len ≤ cfg.trans_max_len) (counted : Counted packing645 m len 0)
    (block : Dlt645.SDlt645Format) : OwnContents cfg (Dlt645.protocol645 cfg) block ⟨m,len⟩ := by
  obtain ⟨k,framed⟩ := counted645 counted
  have length := framed.length
  intro inlen call called
  rw [decodeCall645 cfg block framed] at called
  cases called
  apply Dlt645.decode_within
  · simp only [shift_apply]
    omega
  · simp only [shift_apply]
    omega

/-- A 1376.2 frame that is checked is decoded from its own bytes exactly when it
    has room for the fields. -/
theorem own13762_iff (cfg : Config) {m : Mem} {len : Nat} (fits : len ≤ cfg.trans_max_len) (long : 7 ≤ len)
    (counted : Counted packing13762 m len 0) (block : Gdw13762.S13762Format) :
    OwnContents cfg (Gdw13762.protocol13762 cfg) block ⟨m,len⟩ ↔ Gdw13762.dataPos m+2 ≤ len := by
  have range := cfg.range
  have small : len < 65536 := by omega
  have framed := counted13762 small counted
  have measured : Gdw13762.Measured cfg m len := .inl ⟨framed.length,fits⟩
  have cleared : (Gdw13762.memset cfg block).module_flag = 0 := rfl
  have within := Gdw13762.decode_within_iff cfg measured cleared
  have position := Gdw13762.dataPos_range m
  unfold OwnContents
  rw [decodeCall13762 cfg block small framed]
  constructor
  · intro own
    rcases within.mp (own _ _ rfl) with short | headless | roomy
    · omega
    · exact absurd framed.head headless
    · rw [← framed.length]
      exact roomy.1
  · intro room inlen call called
    cases called
    refine within.mpr (.inr (.inr ⟨?_,?_,?_⟩))
    · rwa [framed.length]
    · rw [framed.length]
    · rw [framed.length]
      omega

/-- The decoder of a device accepts a frame that its packer hands out, and decodes
    it from its own bytes, exactly when the frame is well formed. -/
theorem verdict_iff (cfg : Config) (t : ElecDevType) {m : Mem} {len : Nat} (fits : len ≤ cfg.trans_max_len)
    (counted : Counted (packing t) m len 0) (block : Format t) :
    (decoded (protocol cfg t) block m len).1 = 0 ∧ OwnContents cfg (protocol cfg t) block ⟨m,len⟩ ↔ WellFormed cfg t m len := by
  have range := cfg.range
  cases t with
  | meter => exact (and_iff_left (own645 cfg fits counted block)).trans (verdict645 cfg counted block)
  | cco =>
    have verdict := verdict13762 cfg (by omega) counted block
    constructor
    · rintro ⟨zero,own⟩
      have checked := verdict.mp zero
      exact ⟨checked,(own13762_iff cfg fits checked.long counted block).mp own⟩
    · rintro ⟨checked,room⟩
      exact ⟨verdict.mpr checked,(own13762_iff cfg fits checked.long counted block).mpr room⟩
  | ctrler => exact (and_iff_left (own645 cfg fits counted block)).trans (verdict645 cfg counted block)

/-! ### Whole runs -/

/-- What is known of a packer that has stayed inside its buffer. -/
structure Tracks (p : Packing) (s : PackState) : Prop where
  shape : Shape s
  holds : Holds p s
  counted : s.parse_step = .step2 → Counted p s.out_buf s.now_len s.need_len

theorem tracks_init (p : Packing) (buf : Mem) : Tracks p (packInit buf) :=
  ⟨shape_init buf,holds_init buf,by simp [packInit]⟩

theorem counted_count {p : Packing} {s : PackState} (counted : s.parse_step = .step2 → Counted p s.out_buf s.now_len s.need_len) :
    (countPoll s).parse_step = .step2 → Counted p (countPoll s).out_buf (countPoll s).now_len (countPoll s).need_len := by
  unfold countPoll
  split
  · simp [restart]
  · exact counted

theorem tracks_poll {p : Packing} {s : PackState} {r : List UInt8} (tracks : Tracks p s) (served : Served s r)
    (narrow : s.now_len+s.need_len < 65536) : Tracks p (packFrame p s r).1 := by
  refine ⟨shape_poll p s r tracks.shape served,holds_poll s r tracks.shape tracks.holds served,?_⟩
  have poll := poll_cases p tracks.shape served
  generalize packFrame p s r = next at poll ⊢
  cases poll with
  | idle at0 => simp [at0]
  | again at0 b head => simp [at0]
  | dropped at0 b head => simp [at0]
  | found at0 b n head => simp
  | header at1 _ few => exact counted_count (by simp [filled,at1])
  | announced at1 _ all => exact counted_count fun _ => counted_header tracks.shape tracks.holds at1 all
  | body at2 _ few => exact counted_count fun _ => counted_store (tracks.counted at2) narrow served
  | finished at2 _ all => exact counted_count (by simp [restart])

theorem completing_iff (cfg : Config) (t : ElecDevType) {s : ThreadState (Format t)} {x : Turn (Format t)}
    (tracks : Tracks (packing t) s.pack) (served : Served s.pack x.bytes) (fits : Fits cfg s.pack) :
    (∀ f block, (packFrame (packing t) s.pack x.bytes).2 = some f → x.heap = some block →
      (decoded (protocol cfg t) block f.out_buf f.out_len).1 = 0 ∧ OwnContents cfg (protocol cfg t) block f) ↔
        Completing cfg t s x := by
  have range := cfg.range
  unfold Fits at fits
  have length : s.pack.parse_step = .step2 → x.bytes.length = s.pack.need_len →
      (s.pack.now_len+x.bytes.length) % 65536 = s.pack.now_len+x.bytes.length ∧
      Counted (packing t) (store s.pack.out_buf s.pack.now_len x.bytes) (s.pack.now_len+x.bytes.length) 0 := by
    intro at2 all
    have small : (s.pack.now_len+x.bytes.length) % 65536 = s.pack.now_len+x.bytes.length := Nat.mod_eq_of_lt (by omega)
    have counted := counted_store (tracks.counted at2) (by omega) served
    rw [small,all,Nat.sub_self] at counted
    exact ⟨small,by rw [all]; exact counted⟩
  constructor
  · intro zero at2 all block
    obtain ⟨small,counted⟩ := length at2 all
    obtain ⟨block,heap⟩ := Option.isSome_iff_exists.mp block
    have frame := congrArg Prod.snd (poll_body_all (packing t) tracks.shape at2 all)
    rw [small] at frame
    exact (verdict_iff cfg t (by omega) counted block).mp (zero _ block frame heap)
  · intro completing f block frame heap
    obtain ⟨at2,all,rfl⟩ := poll_emits tracks.shape served frame
    obtain ⟨small,counted⟩ := length at2 all
    rw [small]
    exact (verdict_iff cfg t (by omega) counted block).mpr (completing at2 all (by simp [heap]))

section
variable (cfg : Config) (t : ElecDevType) (recvfn : Format t → Format t)

theorem register_packs : (elec_dev_register cfg t recvfn).pack_frame = packFrame (packing t) := by
  cases t <;> rfl

theorem register_parses : (elec_dev_register cfg t recvfn).parse_frame = parseFrame (protocol cfg t) := by
  cases t <;> rfl

theorem memcpy_again (a b : Format t) :
    (protocol cfg t).memcpy ((protocol cfg t).memcpy a b) b = (protocol cfg t).memcpy a b := by
  cases t <;> simp [protocol,Dlt645.protocol645,Gdw13762.protocol13762,Dlt645.memcpy,Gdw13762.memcpy] <;>
    (funext i; split <;> rfl)

/-- In a run that keeps its frames inside `recv_buf`, the calls of `recvapp` are
    those for the decoded frames, each with its own contents, exactly when every
    frame that is completed, with a block for it on the heap, is well formed. -/
theorem recvapp_calls_iff (buf : Mem) (data_buf : Format t) (turns : List (Turn (Format t)))
    (served : Along (elec_dev_thread (elec_dev_register cfg t recvfn)) (fun s x => Served s.pack x.bytes)
      ⟨packInit buf,data_buf⟩ turns)
    (fits : Throughout (elec_dev_thread (elec_dev_register cfg t recvfn)) (fun s => Fits cfg s.pack)
      ⟨packInit buf,data_buf⟩ turns) :
    Faithful cfg (packing t) (protocol cfg t) (elec_dev_register cfg t recvfn) ⟨packInit buf,data_buf⟩ turns ↔
      Along (elec_dev_thread (elec_dev_register cfg t recvfn)) (Completing cfg t) ⟨packInit buf,data_buf⟩ turns := by
  have packs := register_packs cfg t recvfn
  have parses := register_parses cfg t recvfn
  have calls := outputs_wanted_iff (fun s x w _ => turn_decoded packs parses (memcpy_again cfg t)) served
  have both : Along (elec_dev_thread (elec_dev_register cfg t recvfn))
      (fun s x => (decodedIn (packing t) (protocol cfg t) s x = none →
          (elec_dev_thread (elec_dev_register cfg t recvfn) s x).2 = none) ∧
        ∀ f block, (packFrame (packing t) s.pack x.bytes).2 = some f → x.heap = some block →
          (decoded (protocol cfg t) block f.out_buf f.out_len).1 = 0 → OwnContents cfg (protocol cfg t) block f)
      ⟨packInit buf,data_buf⟩ turns ↔
      Along (elec_dev_thread (elec_dev_register cfg t recvfn)) (Completing cfg t) ⟨packInit buf,data_buf⟩ turns := by
    have inside := along_states _ fits
    refine along_congr (I := fun s => Tracks (packing t) s.pack) ?_ ?_ (tracks_init _ buf) (along_and _ served inside)
    · rintro s x tracks ⟨served,fits⟩
      have range := cfg.range
      rw [turn_pack packs]
      exact tracks_poll tracks served (by unfold Fits at fits; omega)
    · rintro s x tracks ⟨served,fits⟩
      rw [turn_silent_iff packs parses,← completing_iff cfg t tracks served fits]
      constructor
      · rintro ⟨zero,own⟩ f block frame heap
        exact ⟨zero f block frame heap,own f block frame heap (zero f block frame heap)⟩
      · intro decodes
        exact ⟨fun f block frame heap => (decodes f block frame heap).1,
          fun f block frame heap _ => (decodes f block frame heap).2⟩
  rw [← both,along_and_iff]
  constructor
  · intro faithful
    exact ⟨faithful.silent,faithful.own⟩
  · rintro ⟨silent,own⟩
    exact ⟨calls.mpr silent,own,silent⟩
end

/-- The turns in which a 1376.2 frame of fifteen bytes with the given checksum
    comes in. -/
def frameTurns (check : UInt8) : List (Turn (Format .cco)) :=
  [[0x68],[15,0],[0x41,0,0,0,0,0,0,1,1,0,check,0x16]].map fun bytes => ⟨bytes,some ⟨0,fun _ => 0,0,0,0,fun _ => 0⟩⟩

theorem recvapp_calls_valid :
    Faithful defaultConfig packing13762 (Gdw13762.protocol13762 defaultConfig) (elec_dev_register defaultConfig .cco id)
      ⟨packInit fun _ => 0,⟨0,fun _ => 0,0,0,0,fun _ => 0⟩⟩ (frameTurns 0x43) := by
  refine (recvapp_calls_iff defaultConfig .cco id (fun _ => 0) ⟨0,fun _ => 0,0,0,0,fun _ => 0⟩ (frameTurns 0x43)
    (by decide +kernel) (by decide +kernel)).mpr ⟨?_,?_,?_,trivial⟩
  · intro at2; cases at2
  · intro at2; cases at2
  · exact fun _ _ _ => ⟨⟨by decide,by decide,by decide⟩,by decide⟩

/-- The same frame and then one whose checksum is wrong: `recvapp` gets the first
    frame twice. -/
theorem recvapp_calls_stale :
    Along (elec_dev_thread (elec_dev_register defaultConfig .cco id)) (fun s x => Served s.pack x.bytes)
      ⟨packInit fun _ => 0,⟨0,fun _ => 0,0,0,0,fun _ => 0⟩⟩ (frameTurns 0x43 ++ frameTurns 0x44) ∧
    Throughout (elec_dev_thread (elec_dev_register defaultConfig .cco id)) (fun s => Fits defaultConfig s.pack)
      ⟨packInit fun _ => 0,⟨0,fun _ => 0,0,0,0,fun _ => 0⟩⟩ (frameTurns 0x43 ++ frameTurns 0x44) ∧
    (outputs (elec_dev_thread (elec_dev_register defaultConfig .cco id))
      ⟨packInit fun _ => 0,⟨0,fun _ => 0,0,0,0,fun _ => 0⟩⟩ (frameTurns 0x43 ++ frameTurns 0x44)).map (fun d => d.afn) =
        [1,1] ∧
    ¬ Faithful defaultConfig packing13762 (Gdw13762.protocol13762 defaultConfig) (elec_dev_register defaultConfig .cco id)
      ⟨packInit fun _ => 0,⟨0,fun _ => 0,0,0,0,fun _ => 0⟩⟩ (frameTurns 0x43 ++ frameTurns 0x44) := by
  refine ⟨by decide +kernel,by decide +kernel,by decide +kernel,fun faithful => ?_⟩
  exact absurd faithful.calls.length_eq (by decide +kernel)

end Ucm108e.Thread
