import Ucm108e.PackedFrames

/-!
The receive buffers, against any bytes on the line. `recv_buf` and the block a
frame is decoded into have `ELEC_DEV_TRANS_MAX_LEN` bytes; neither packer checks
the length that a header announces, and the 1376.2 decoder does not check that
a frame has room for its fixed fields. The theorems say for which runs and which
frames every access stays inside all the same.
-/
namespace Ucm108e.Bounds
open Ucm108e.Bytes Ucm108e.Machine Ucm108e.Framing Ucm108e.Access Ucm108e.Packer Ucm108e.Codec Ucm108e.PackedFrames
set_option linter.unusedSimpArgs false

/-- The bytes of `recv_buf` that a packer has filled or is about to fill exist. -/
def Fits (cfg : Config) (s : PackState) : Prop := s.now_len+s.need_len ≤ cfg.trans_max_len

instance (cfg : Config) (s : PackState) : Decidable (Fits cfg s) :=
  inferInstanceAs (Decidable (s.now_len+s.need_len ≤ cfg.trans_max_len))

def StoresInside (cfg : Config) (s : PackState) (r : List UInt8) : Prop :=
  ∀ i < r.length, s.now_len+i < cfg.trans_max_len

structure ReceiveSafe (p : Packing) (cfg : Config) (buf : Mem) (reads : List (List UInt8)) : Prop where
  fits : Throughout (packFrame p) (Fits cfg) (packInit buf) reads
  stores : Along (packFrame p) (StoresInside cfg) (packInit buf) reads

/-- The header, or the rest that it announces, fits the buffer; a poll that
    times out announces nothing. -/
def Admits (p : Packing) (cfg : Config) (s : PackState) (r : List UInt8) : Prop :=
  (s.parse_step = .step0 → ∀ b n, r = [b] → p.head (s.now_len+1) b = .found n → s.now_len+1+n ≤ cfg.trans_max_len) ∧
  (s.parse_step = .step1 → r.length = s.need_len → s.timoutcnt < 10000 →
    s.now_len+s.need_len+p.rest (store s.out_buf s.now_len r) (s.now_len+s.need_len) ≤ cfg.trans_max_len)

section
variable (p : Packing) (cfg : Config)

theorem fits_init (buf : Mem) : Fits cfg (packInit buf) := by
  have := cfg.range
  simp only [Fits,packInit]
  omega

theorem fits_restart (s : PackState) : Fits cfg (restart s) := fits_init cfg s.out_buf

theorem fits_count (s : PackState) : Fits cfg (countPoll s) ↔ (s.timoutcnt < 10000 → Fits cfg s) := by
  unfold countPoll
  by_cases late : s.timoutcnt+1 > 10000
  · rw [if_pos late]
    constructor
    · intro _ live
      omega
    · intro _
      exact fits_restart cfg _
  · rw [if_neg late]
    constructor
    · intro fits _
      exact fits
    · intro fits
      exact fits (by omega)

theorem fits_filled {s : PackState} {r : List UInt8} (served : Served s r) (fits : Fits cfg s) : Fits cfg (filled s r) := by
  unfold Fits Served at *
  simp only [filled]
  omega

theorem admits_byte {s : PackState} (at0 : s.parse_step = .step0) (b : UInt8) : Admits p cfg s [b] ↔
    ∀ n, p.head (s.now_len+1) b = .found n → s.now_len+1+n ≤ cfg.trans_max_len := by
  constructor
  · intro admits n found
    exact admits.1 at0 b n rfl found
  · intro room
    refine ⟨?_,by simp [at0]⟩
    intro _ b' n same found
    cases same
    exact room n found

/-- A poll leaves the buffer large enough exactly when it admits what is announced. -/
theorem fits_poll_iff (s : PackState) (r : List UInt8) (shape : Shape s) (fits : Fits cfg s) (served : Served s r) :
    Fits cfg (packFrame p s r).1 ↔ Admits p cfg s r := by
  have range := cfg.range
  have inside := fits_filled cfg served fits
  have poll := poll_cases p shape served
  generalize packFrame p s r = next at poll ⊢
  -- Only a head and a completed header announce anything; in all other cases both sides hold.
  cases poll with
  | idle at0 =>
    have admits : Admits p cfg s [] := ⟨by simp,by simp [at0]⟩
    exact ⟨fun _ => admits,fun _ => fits⟩
  | again at0 b head =>
    have kept := p.again_le _ _ head
    rw [admits_byte p cfg at0 b]
    constructor
    · intro _ n found
      rw [head] at found
      cases found
    · intro _
      simp only [Fits]
      omega
  | dropped at0 b head =>
    rw [admits_byte p cfg at0 b]
    constructor
    · intro _ n found
      rw [head] at found
      cases found
    · intro _
      simp only [Fits]
      omega
  | found at0 b n head =>
    rw [admits_byte p cfg at0 b]
    constructor
    · intro room n' found
      rw [head] at found
      cases found
      exact room
    · intro room
      exact room n head
  | header at1 _ few =>
    have admits : Admits p cfg s r := ⟨by simp [at1],fun _ all => by omega⟩
    exact ⟨fun _ => admits,fun _ => (fits_count cfg _).mpr fun _ => inside⟩
  | announced at1 _ all =>
    have bound := shape.step1 at1
    have small : (s.now_len+s.need_len) % 65536 = s.now_len+s.need_len := Nat.mod_eq_of_lt (by omega)
    rw [fits_count]
    simp only [Fits,filled,Admits,at1,all,small]
    constructor
    · intro room
      exact ⟨by simp,fun _ _ live => room live⟩
    · intro admits live
      exact admits.2 trivial trivial live
  | body at2 _ few =>
    have admits : Admits p cfg s r := ⟨by simp [at2],by simp [at2]⟩
    exact ⟨fun _ => admits,fun _ => (fits_count cfg _).mpr fun _ => inside⟩
  | finished at2 _ all =>
    have admits : Admits p cfg s r := ⟨by simp [at2],by simp [at2]⟩
    exact ⟨fun _ => admits,fun _ => (fits_count cfg _).mpr fun _ => fits_restart cfg _⟩

theorem stores_inside (s : PackState) (r : List UInt8) (fits : Fits cfg s) (served : Served s r) : StoresInside cfg s r := by
  intro i lt
  unfold Fits at fits
  unfold Served at served
  omega

/-- The buffer is large enough for exactly those runs that announce nothing larger. -/
theorem receiveSafe_iff {buf : Mem} {reads : List (List UInt8)}
    (served : Along (packFrame p) Served (packInit buf) reads) :
    ReceiveSafe p cfg buf reads ↔ Along (packFrame p) (Admits p cfg) (packInit buf) reads := by
  have exactly : Throughout (packFrame p) (Fits cfg) (packInit buf) reads ↔
      Along (packFrame p) (Admits p cfg) (packInit buf) reads :=
    throughout_iff_along (shape_poll p) (fits_poll_iff p cfg) (shape_init buf) (fits_init cfg buf) served
  constructor
  · intro safe
    exact exactly.mp safe.fits
  · intro admits
    have fits := exactly.mpr admits
    exact ⟨fits,along_of_throughout (stores_inside cfg) fits served⟩

theorem handed_fits {buf : Mem} {reads : List (List UInt8)} (served : Along (packFrame p) Served (packInit buf) reads)
    (fits : Throughout (packFrame p) (Fits cfg) (packInit buf) reads) :
    ∀ f ∈ outputs (packFrame p) (packInit buf) reads, f.out_len ≤ cfg.trans_max_len := by
  have both := along_and (packFrame p) served (along_states (packFrame p) fits)
  refine outputs_invariant (fun s r shape both => shape_poll p s r shape both.1) ?_ (shape_init buf) both
  rintro s r f shape ⟨served,fits⟩ emitted
  obtain ⟨_,_,rfl⟩ := poll_emits shape served emitted
  unfold Served at served
  unfold Fits at fits
  simp only
  omega
end

/-! ### The 1376.2 packer -/

def Completes (s : PackState) (r : List UInt8) : Prop := s.parse_step = .step1 ∧ r.length = s.need_len

def lengthRead (s : PackState) (r : List UInt8) : Nat :=
  (Gdw13762.lengthField (store s.out_buf s.now_len r)).toNat

/-- `need_len`, the announced length less the three bytes read, does not go
    below zero. -/
def NoUnderflow (s : PackState) (r : List UInt8) : Prop := Completes s r → 3 ≤ lengthRead s r

/-- The announced length covers the three bytes read and, unless the poll times
    out, fits the buffer. -/
def LengthInRange (cfg : Config) (s : PackState) (r : List UInt8) : Prop :=
  Completes s r → 3 ≤ lengthRead s r ∧ (s.timoutcnt < 10000 → lengthRead s r ≤ cfg.trans_max_len)

instance (s : PackState) (r : List UInt8) : Decidable (Completes s r) := inferInstanceAs (Decidable (_ ∧ _))

instance (cfg : Config) (s : PackState) (r : List UInt8) : Decidable (LengthInRange cfg s r) :=
  inferInstanceAs (Decidable (_ → _ ∧ (_ → _)))

theorem first13762 {s : PackState} (holds : Holds packing13762 s) (at0 : s.parse_step = .step0) : s.now_len = 0 := by
  by_contra some
  have kept := holds.step0 at0 0 (by omega)
  simp only [packing13762] at kept
  split_ifs at kept

theorem header13762 {s : PackState} (holds : Holds packing13762 s) (at1 : s.parse_step = .step1) :
    s.now_len+s.need_len = 3 := by
  obtain ⟨k,n,opened,_,ends⟩ := holds.step1 at1
  obtain ⟨rfl,_,rfl⟩ := opened13762 opened
  exact ends

theorem rest13762 (m : Mem) : packing13762.rest m 3 = u16 ((Gdw13762.lengthField m).toNat-3) := by
  simp [packing13762,Gdw13762.lengthField]

theorem lengthInRange_iff (cfg : Config) {s : PackState} (r : List UInt8) (holds : Holds packing13762 s) :
    Admits packing13762 cfg s r ∧ NoUnderflow s r ↔ LengthInRange cfg s r := by
  have range := cfg.range
  have wide : lengthRead s r < 65536 := (Gdw13762.lengthField (store s.out_buf s.now_len r)).toNat_lt
  constructor
  · rintro ⟨⟨_,rest⟩,covers⟩ ⟨at1,all⟩
    refine ⟨covers ⟨at1,all⟩,fun live => ?_⟩
    have room := rest at1 all live
    have covered := covers ⟨at1,all⟩
    rw [header13762 holds at1,rest13762] at room
    unfold lengthRead u16 at *
    omega
  · intro inRange
    refine ⟨⟨?_,?_⟩,fun completes => (inRange completes).1⟩
    · intro at0 b n _ found
      have header := packing13762.found_le _ _ _ found
      rw [first13762 holds at0]
      omega
    · intro at1 all live
      obtain ⟨covers,fits⟩ := inRange ⟨at1,all⟩
      have room := fits live
      rw [header13762 holds at1,rest13762]
      unfold lengthRead u16 at *
      omega

/-- A run of the 1376.2 packer stays inside `recv_buf`, and `need_len` above
    zero, exactly when every length it reads is in range. -/
theorem pack_1376_2_safe_iff (cfg : Config) (buf : Mem) (reads : List (List UInt8))
    (served : Along elec_dev_pack_1376_2_frame Served (packInit buf) reads) :
    (ReceiveSafe packing13762 cfg buf reads ∧ Along elec_dev_pack_1376_2_frame NoUnderflow (packInit buf) reads) ↔
      Along elec_dev_pack_1376_2_frame (LengthInRange cfg) (packInit buf) reads := by
  unfold elec_dev_pack_1376_2_frame at served ⊢
  rw [receiveSafe_iff packing13762 cfg served,← along_and_iff]
  refine along_congr shape_holds_poll ?_ ⟨shape_init buf,holds_init buf⟩ served
  intro s r inv _
  exact lengthInRange_iff cfg r inv.2

theorem pack_1376_2_safe_fifteen :
    ReceiveSafe packing13762 defaultConfig (fun _ => 0) [[0x68],[],[15],[0],[0x41,0,0,0,0,0,0,1,1,0,0x43,0x16]] :=
  ((pack_1376_2_safe_iff defaultConfig (fun _ => 0) [[0x68],[],[15],[0],[0x41,0,0,0,0,0,0,1,1,0,0x43,0x16]]
    (by decide)).mpr (by decide)).1

/-- A length field of zero makes `need_len` 65533. -/
theorem pack_1376_2_length_zero :
    Along elec_dev_pack_1376_2_frame Served (packInit fun _ => 0) [[0x68],[0,0]] ∧
      (final elec_dev_pack_1376_2_frame (packInit fun _ => 0) [[0x68],[0,0]]).need_len = 65533 ∧
      ¬ ReceiveSafe packing13762 defaultConfig (fun _ => 0) [[0x68],[0,0]] := by
  refine ⟨by decide,by decide,fun safe => ?_⟩
  exact absurd (throughout_final _ safe.fits) (by decide)

/-! ### The 1376.2 decoder -/

/-- What the packer hands out is decoded as a frame that fills its bytes, or
    with a length that has wrapped. -/
theorem measured (cfg : Config) {f : Packed} (handed : Handed packing13762 f) (fits : f.out_len ≤ cfg.trans_max_len)
    {location : Nat} (found : precodeScan f.out_buf f.out_len 0 = some location) :
    u16 ((f.out_len : Int)-location) < 7 ∨
      Gdw13762.Measured cfg (shift f.out_buf location) (u16 ((f.out_len : Int)-location)) := by
  have small := handed.1
  rcases handed13762 handed with framed | short
  · right
    rw [scan13762 framed] at found
    cases found
    have whole : u16 ((f.out_len : Int)-(0 : Nat)) = f.out_len := u16_eq (by omega) small
    rw [whole,shift_zero]
    exact .inl ⟨framed.length,fits⟩
  · have near := precodeScan_le found
    rcases Nat.lt_or_ge f.out_len location with past | inside
    · right
      right
      unfold u16
      omega
    · left
      unfold u16
      omega

/-- The 1376.2 decoder accesses a packed frame and its block inside their bounds
    exactly when the frame is turned down at once or is roomy. -/
theorem decode_1376_2_within_iff (cfg : Config) (buf : Mem) (reads : List (List UInt8))
    (served : Along elec_dev_pack_1376_2_frame Served (packInit buf) reads) (f : Packed)
    (handed_out : f ∈ outputs elec_dev_pack_1376_2_frame (packInit buf) reads) (fits : f.out_len ≤ cfg.trans_max_len)
    (block : Gdw13762.S13762Format) (inlen : Nat) (call : Traced Buf (Int × Gdw13762.S13762Format))
    (called : decodeCall (Gdw13762.protocol13762 cfg) block f.out_buf f.out_len = some (inlen,call)) :
    Within call (sizes inlen cfg.trans_max_len) ↔
      Gdw13762.DecodeFits cfg (shift f.out_buf (Gdw13762.gdw1376_2_precode_detect f.out_buf f.out_len).toNat) inlen := by
  have packed := handed (p := packing13762) served f handed_out
  cases found : precodeScan f.out_buf f.out_len 0 with
  | none => simp [decodeCall,Gdw13762.protocol13762,Gdw13762.gdw1376_2_precode_detect,found] at called
  | some location =>
    simp only [decodeCall,Gdw13762.protocol13762,Gdw13762.gdw1376_2_precode_detect,found] at called ⊢
    simp at called
    obtain ⟨rfl,rfl⟩ := called
    simp only [Int.toNat_natCast]
    rcases measured cfg packed fits found with short | whole
    · rw [Gdw13762.decode_short _ short]
      simp [Gdw13762.DecodeFits,short]
    · exact Gdw13762.decode_within_iff cfg whole rfl

theorem decode_1376_2_within_fifteen :
    ∃ f ∈ outputs elec_dev_pack_1376_2_frame (packInit fun _ => 0)
        [[0x68],[15,0],[0x41,0,0,0,0,0,0,1,1,0,0x43,0x16]],
      ∃ call, decodeCall (Gdw13762.protocol13762 defaultConfig) ⟨0,fun _ => 0,0,0,0,fun _ => 0⟩ f.out_buf f.out_len =
        some (15,call) ∧ Within call (sizes 15 256) := by
  refine ⟨_,List.mem_cons_self ..,_,rfl,?_⟩
  exact (decode_1376_2_within_iff defaultConfig (fun _ => 0) [[0x68],[15,0],[0x41,0,0,0,0,0,0,1,1,0,0x43,0x16]]
    (by decide) _ (List.mem_cons_self ..) (by decide) _ 15 _ rfl).mpr (by decide)

/-- A frame of seven bytes ends before the fields that the decoder reads. -/
theorem decode_1376_2_length_seven :
    ∃ f ∈ outputs elec_dev_pack_1376_2_frame (packInit fun _ => 0) [[0x68],[7,0],[0x41,0,0x41,0x16]],
      ∃ call, decodeCall (Gdw13762.protocol13762 defaultConfig) ⟨0,fun _ => 0,0,0,0,fun _ => 0⟩ f.out_buf f.out_len =
        some (7,call) ∧ ¬ Within call (sizes 7 256) := by
  refine ⟨_,List.mem_cons_self ..,_,rfl,?_⟩
  exact fun within => absurd ((Gdw13762.decode_within_iff defaultConfig (.inl ⟨rfl,by decide⟩) rfl).mp within) (by decide)

/-! ### The 645 buffers -/

/-- What `recv_buf` and the block for the decoded frame ask of a run. -/
structure BuffersSafe (cfg : Config) (buf : Mem) (reads : List (List UInt8)) : Prop where
  receive : ReceiveSafe packing645 cfg buf reads
  decode : ∀ f ∈ outputs elec_dev_pack_645_frame (packInit buf) reads, ∀ block inlen call,
    decodeCall (Dlt645.protocol645 cfg) block f.out_buf f.out_len = some (inlen,call) →
    ∀ a, (Buf.out,a) ∈ call.stores → a < cfg.trans_max_len

/-- The nine bytes behind a head fit the buffer, and so do the data, the
    checksum and the tail behind a length that is read before the time is out. -/
def HeaderFits (cfg : Config) (s : PackState) (r : List UInt8) : Prop :=
  (s.parse_step = .step0 → r = [0x68] → s.now_len+10 ≤ cfg.trans_max_len) ∧
  (s.parse_step = .step1 → r.length = s.need_len → s.timoutcnt < 10000 →
    s.now_len+s.need_len+(store s.out_buf s.now_len r (s.now_len+s.need_len-1)).toNat+2 ≤ cfg.trans_max_len)

instance (cfg : Config) (s : PackState) (r : List UInt8) : Decidable (HeaderFits cfg s r) :=
  inferInstanceAs (Decidable ((_ → _ → _) ∧ (_ → _ → _ → _)))

theorem headerFits_iff (cfg : Config) (s : PackState) (r : List UInt8) :
    Admits packing645 cfg s r ↔ HeaderFits cfg s r := by
  have size := (store s.out_buf s.now_len r (s.now_len+s.need_len-1)).toNat_lt
  have rest : packing645.rest (store s.out_buf s.now_len r) (s.now_len+s.need_len) =
      (store s.out_buf s.now_len r (s.now_len+s.need_len-1)).toNat+2 := by
    simp only [packing645,u16]
    omega
  unfold Admits HeaderFits
  rw [rest,Nat.add_assoc _ _ 2]
  refine and_congr_left fun _ => ?_
  constructor
  · intro header at0 head
    exact header at0 0x68 9 head rfl
  · intro header at0 b n byte found
    simp only [packing645] at found
    split_ifs at found with _ _ head
    cases found
    subst head
    exact header at0 byte

theorem decode645_stores (cfg : Config) {f : Packed} {k : Nat} (framed : Framed645 f.out_buf f.out_len k)
    (fits : f.out_len ≤ cfg.trans_max_len) (block : Dlt645.SDlt645Format) {inlen : Nat}
    {call : Traced Buf (Int × Dlt645.SDlt645Format)}
    (called : decodeCall (Dlt645.protocol645 cfg) block f.out_buf f.out_len = some (inlen,call)) :
    ∀ a, (Buf.out,a) ∈ call.stores → a < cfg.trans_max_len := by
  rw [decodeCall645 cfg block framed] at called
  cases called
  have length := framed.length
  have within := @Dlt645.decode_within cfg (shift f.out_buf k) (f.out_len-k)
    (by simp only [shift_apply]; omega) (by simp only [shift_apply]; omega) (Dlt645.memset cfg block)
  exact fun a member => within.2 (.out,a) member

theorem buffersSafe_iff (cfg : Config) {buf : Mem} {reads : List (List UInt8)}
    (served : Along elec_dev_pack_645_frame Served (packInit buf) reads) :
    BuffersSafe cfg buf reads ↔ Along elec_dev_pack_645_frame (HeaderFits cfg) (packInit buf) reads := by
  have admits : Along elec_dev_pack_645_frame (HeaderFits cfg) (packInit buf) reads ↔
      ReceiveSafe packing645 cfg buf reads := by
    unfold elec_dev_pack_645_frame at served ⊢
    rw [receiveSafe_iff packing645 cfg served]
    exact along_congr (shape_poll packing645) (fun s r _ _ => (headerFits_iff cfg s r).symm) (shape_init buf) served
  rw [admits]
  constructor
  · intro safe
    exact safe.receive
  · intro receive
    refine ⟨receive,?_⟩
    intro f member block inlen call called
    obtain ⟨k,framed⟩ := handed645 (handed (p := packing645) served f member)
    have fits := handed_fits packing645 cfg served receive.fits f member
    exact decode645_stores cfg framed fits block called

theorem headerFits_large {cfg : Config} (large : 271 ≤ cfg.trans_max_len) {s : PackState} {r : List UInt8}
    (shape : Shape s) : HeaderFits cfg s r := by
  have size := (store s.out_buf s.now_len r (s.now_len+s.need_len-1)).toNat_lt
  constructor
  · intro at0 _
    have := shape.step0 at0
    omega
  · intro at1 _ _
    have := shape.step1 at1
    omega

/-- The longest 645 frame: a full preamble, twelve bytes and 255 of data. -/
def longest645 : List (List UInt8) :=
  [[0xFE],[0xFE],[0xFE],[0xFE],[0x68],[1,2,3,4,5,6,0x68,0x91,255]]

theorem longest645_needs :
    Along elec_dev_pack_645_frame Served (packInit fun _ => 0) longest645 ∧
      (final elec_dev_pack_645_frame (packInit fun _ => 0) longest645).now_len = 14 ∧
      (final elec_dev_pack_645_frame (packInit fun _ => 0) longest645).need_len = 257 := by
  decide

/-- The 645 buffers are large enough for exactly those runs whose headers fit,
    and for all runs exactly when `ELEC_DEV_TRANS_MAX_LEN` is at least 271. -/
theorem receive_645_safe_iff (cfg : Config) :
    (∀ buf reads, Along elec_dev_pack_645_frame Served (packInit buf) reads →
      (BuffersSafe cfg buf reads ↔ Along elec_dev_pack_645_frame (HeaderFits cfg) (packInit buf) reads)) ∧
    ((∀ buf reads, Along elec_dev_pack_645_frame Served (packInit buf) reads → BuffersSafe cfg buf reads) ↔
      271 ≤ cfg.trans_max_len) := by
  refine ⟨fun buf reads served => buffersSafe_iff cfg served,?_,?_⟩
  · intro safe
    obtain ⟨served,now,need⟩ := longest645_needs
    have fits := throughout_final _ (safe _ _ served).receive.fits
    unfold elec_dev_pack_645_frame at now need
    unfold Fits at fits
    omega
  · intro large buf reads served
    apply (buffersSafe_iff cfg served).mpr
    exact along_invariant (shape_poll packing645) (fun s r shape _ => headerFits_large large shape) (shape_init buf) served

theorem receive_645_safe_300 :
    271 ≤ 300 ∧ BuffersSafe ⟨300,by decide⟩ (fun _ => 0) longest645 :=
  ⟨by decide,(receive_645_safe_iff ⟨300,by decide⟩).2.mpr (by decide) (fun _ => 0) longest645 (by decide)⟩

/-- Those of the default configuration are not. -/
theorem receive_645_default :
    Along elec_dev_pack_645_frame Served (packInit fun _ => 0) longest645 ∧
      ¬ BuffersSafe defaultConfig (fun _ => 0) longest645 := by
  refine ⟨by decide,fun safe => ?_⟩
  exact absurd (throughout_final _ safe.receive.fits) (by decide)

end Ucm108e.Bounds
