import Mathlib
import Ucm108e.RoundTrip

/-!
`elec_1376_2_send` of `elec_1376_2.c`: a structure is filled in a block of its own,
encoded into a second one and written to the serial port. Both blocks are
`ELEC_DEV_TRANS_MAX_LEN` bytes long, whatever is sent. The clearing of the second one
takes the size of the constant for its value, so that the bytes that the encoder passes
over are sent as the heap has left them.
-/
namespace Ucm108e.Transmission
open Ucm108e.Bytes Ucm108e.Access Ucm108e.Packer Ucm108e.Codec Ucm108e.Gdw13762 Ucm108e.Wire Ucm108e.RoundTrip
set_option linter.unusedSimpArgs false

/-- The arguments of a call; `slave_addr` may be `RT_NULL`. -/
structure Args where
  main_addr : Fin 6 → UInt8
  slave_addr : Option (Fin 6 → UInt8)
  afn : UInt8
  fn : UInt16
  d_area : Mem
  d_len : UInt16

/-- What a call returns and has written to the serial port, and the frame counter then. -/
structure Outcome where
  ret : Int
  sent : List UInt8
  frameindex : UInt8

/-- `elec_uart_write`: the return value, and what `rt_device_write` is given. -/
def elec_uart_write (buff : Mem) (len : Nat) : Int × List UInt8 :=
  if len < 1 then (0,[]) else (len,window buff 0 len)

/-- The part of `elec_1376_2_send` that fills the structure, for a block of any contents. -/
def fill (cfg : Config) (x : Args) (block : S13762Format) : Traced Buf S13762Format := do
  stored .inp 0 cfg.trans_max_len
  let send := memset cfg block
  let send ← match x.slave_addr with
    | none => do
      stored .inp 0 1
      pure { send with module_flag := 0 }
    | some slave_addr => do
      stored .inp 0 1
      stored .inp 1 6
      pure { send with module_flag := 1, tn_addr := slave_addr }
  stored .inp 7 1
  stored .inp 8 2
  stored .inp 12 x.d_len.toNat
  let send := { send with afn := x.afn, fn := x.fn, data := store send.data 0 (window x.d_area 0 x.d_len.toNat) }
  stored .inp 10 2
  pure { send with datalen := x.d_len }

/-- `elec_1376_2_send`; `heap` and `heapbuf` are what the two calls of `rt_malloc`
    return, blocks of any contents or none. `sizeof(ELEC_DEV_TRANS_MAX_LEN)` is 4. -/
def elec_1376_2_send (cfg : Config) (x : Args) (heap : Option S13762Format) (heapbuf : Option Mem) (frameindex : UInt8) :
    Traced Buf Outcome :=
  match heap with
  | none => pure ⟨-1,[],frameindex⟩
  | some block => do
    let send ← fill cfg x block
    match heapbuf with
    | none => pure ⟨-1,[],frameindex⟩
    | some buf => do
      stored .out 0 4
      let sendbuf := store buf 0 [0,0,0,0]
      let (encode_len,sendbuf,frameindex) ← gdw_1376_2_encode x.main_addr send frameindex sendbuf
      if encode_len > 0 then
        let (ret,sent) := elec_uart_write sendbuf encode_len
        pure ⟨ret,sent,frameindex⟩
      else pure ⟨-1,[],frameindex⟩

/-- The bytes of a frame around its payload. -/
def Args.overhead (x : Args) : Nat := if x.slave_addr.isSome then 27 else 15

/-! ### What is sent -/

/-- The frame that a call sends where it fits, with the bytes 5 to 8 of its buffer. -/
def sentFrame (x : Args) (frameindex : UInt8) (buf : Mem) : Frame13762 where
  control := 0x41
  info := ![if x.slave_addr.isSome then 0x04 else 0x00,buf 5,buf 6,buf 7,buf 8,frameindex]
  source := x.main_addr
  destination := x.slave_addr.getD fun _ => 0
  afn := x.afn
  fn := x.fn
  payload := window x.d_area 0 x.d_len.toNat

theorem fill_val (cfg : Config) (x : Args) (block : S13762Format) :
    (fill cfg x block).val = ⟨if x.slave_addr.isSome then 1 else 0,x.slave_addr.getD fun _ => 0,x.afn,x.fn,x.d_len,
      store (memset cfg block).data 0 (window x.d_area 0 x.d_len.toNat)⟩ := by
  unfold fill
  cases x.slave_addr with
  | none => rfl
  | some slave_addr => rfl

/-- The structure is the same for any block as far as the encoder goes. -/
theorem frame_filled (cfg : Config) (x : Args) (block : S13762Format) (frameindex : UInt8) (buf : Mem) :
    frame13762 x.main_addr (fill cfg x block).val frameindex (store buf 0 [0,0,0,0]) = sentFrame x frameindex buf := by
  have payload : window (store (memset cfg block).data 0 (window x.d_area 0 x.d_len.toNat)) 0 x.d_len.toNat
      = window x.d_area 0 x.d_len.toNat := by
    have whole := window_store (memset cfg block).data 0 (window x.d_area 0 x.d_len.toNat)
    rwa [window_length] at whole
  have stale : ∀ i, 4 ≤ i → store buf 0 [0,0,0,0] i = buf i := fun i behind => store_behind (by simpa using behind)
  have flag : (0x00 : UInt8) ||| (if x.slave_addr.isSome then (1 : UInt8) else 0) <<< 2
      = if x.slave_addr.isSome then 0x04 else 0x00 := by
    split <;> decide
  rw [fill_val,frame13762,sentFrame,payload,stale 5 (by decide),stale 6 (by decide),stale 7 (by decide),
    stale 8 (by decide),flag]

theorem sentFrame_length (x : Args) (frameindex : UInt8) (buf : Mem) :
    (sentFrame x frameindex buf).length = x.overhead+x.d_len.toNat := by
  have flag : (sentFrame x frameindex buf).module_flag = x.slave_addr.isSome := by
    cases slave : x.slave_addr with
    | none => simp [sentFrame,Frame13762.module_flag,slave]
    | some slave_addr => simp [sentFrame,Frame13762.module_flag,slave]
  rw [Frame13762.length_eq,flag,Args.overhead]
  simp [sentFrame]

theorem overhead_pos (x : Args) : 15 ≤ x.overhead := by
  unfold Args.overhead
  split <;> omega

/-- A frame that fits its buffer is sent as a whole. -/
theorem send_fits {cfg : Config} {x : Args} (fits : x.overhead+x.d_len.toNat ≤ cfg.trans_max_len) (block : S13762Format)
    (buf : Mem) (frameindex : UInt8) :
    (elec_1376_2_send cfg x (some block) (some buf) frameindex).val
      = ⟨(sentFrame x frameindex buf).wire.length,(sentFrame x frameindex buf).wire,frameindex+1⟩ := by
  have range := cfg.range
  have length := sentFrame_length x frameindex buf
  have positive := overhead_pos x
  have bit : (fill cfg x block).val.module_flag = 0 ∨ (fill cfg x block).val.module_flag = 1 := by
    rw [fill_val]
    cases x.slave_addr with
    | none => exact .inl rfl
    | some slave_addr => exact .inr rfl
  have short : (fill cfg x block).val.datalen.toNat < 1000 := by
    rw [fill_val]
    simp only
    omega
  have encoded := encode_wire13762 x.main_addr bit frameindex (store buf 0 [0,0,0,0]) short
  rw [frame_filled] at encoded
  simp only [elec_1376_2_send,val_bind,val_ite,val_pure,encoded]
  rw [if_pos (by rw [Frame13762.wire_length]; omega),elec_uart_write,
    if_neg (by rw [Frame13762.wire_length]; omega),window_store]

/-- Where one of the blocks is not found, nothing is sent. -/
theorem send_failed {cfg : Config} {x : Args} {heap : Option S13762Format} {heapbuf : Option Mem} {frameindex : UInt8}
    (failed : heap = none ∨ heapbuf = none) :
    (elec_1376_2_send cfg x heap heapbuf frameindex).val = ⟨-1,[],frameindex⟩ := by
  cases heap with
  | none => rfl
  | some block =>
    obtain rfl := failed.resolve_left (Option.some_ne_none block)
    rfl

/-! ### Stale bytes -/

theorem wire_eq_iff (x : Args) (frameindex : UInt8) (buf buf' : Mem) :
    (sentFrame x frameindex buf).wire = (sentFrame x frameindex buf').wire ↔ ∀ i, 5 ≤ i → i ≤ 8 → buf i = buf' i := by
  constructor
  · intro same i low high
    have byte := congrArg (fun bytes => bytes.getD i 0) same
    interval_cases i
    all_goals simpa [Frame13762.wire,Frame13762.covered,sentFrame] using byte
  · intro same
    rw [sentFrame,sentFrame,same 5 (by decide) (by decide),same 6 (by decide) (by decide),same 7 (by decide) (by decide),
      same 8 (by decide) (by decide)]

/-- Two calls with the same arguments, for which `rt_malloc` finds the same blocks, send
    the same bytes exactly when the bytes 5 to 8 of their buffers are the same. -/
theorem stale_bytes_iff {cfg : Config} {x : Args} (fits : x.overhead+x.d_len.toNat ≤ cfg.trans_max_len)
    (frameindex : UInt8) {heap heap' : Option S13762Format} (blocks : heap.isSome = heap'.isSome)
    {heapbuf heapbuf' : Option Mem} (buffers : heapbuf.isSome = heapbuf'.isSome) :
    (elec_1376_2_send cfg x heap heapbuf frameindex).val.sent = (elec_1376_2_send cfg x heap' heapbuf' frameindex).val.sent
      ↔ heap = none ∨ ∀ buf ∈ heapbuf, ∀ buf' ∈ heapbuf', ∀ i, 5 ≤ i → i ≤ 8 → buf i = buf' i := by
  cases heap with
  | none =>
    have none' : heap' = none := by simpa using blocks.symm
    rw [send_failed (.inl rfl),send_failed (.inl none')]
    simp
  | some block =>
    obtain ⟨block',rfl⟩ := Option.isSome_iff_exists.mp blocks.symm
    cases heapbuf with
    | none =>
      have none' : heapbuf' = none := by simpa using buffers.symm
      rw [send_failed (.inr rfl),send_failed (.inr none')]
      simp
    | some buf =>
      obtain ⟨buf',rfl⟩ := Option.isSome_iff_exists.mp buffers.symm
      rw [send_fits fits,send_fits fits,wire_eq_iff]
      simp

/-- A call with no payload. -/
def request : Args := ⟨fun _ => 0,none,0xf0,1,fun _ => 0,0⟩

theorem stale_bytes_zero :
    (elec_1376_2_send defaultConfig request (some zeroed) (some fun _ => 0) 0).val.sent
      = (elec_1376_2_send defaultConfig request (some zeroed) (some fun i => if i = 9 then 1 else 0) 0).val.sent := by
  refine (@stale_bytes_iff defaultConfig request (by decide) 0 (some zeroed) (some zeroed) rfl (some fun _ => 0)
    (some fun i => if i = 9 then 1 else 0) rfl).mpr (.inr ?_)
  rintro _ ⟨⟩ _ ⟨⟩ i _ high
  exact (if_neg (by omega)).symm

/-- Bytes that were left in the buffer are sent. -/
theorem stale_bytes_sent :
    (elec_1376_2_send defaultConfig request (some zeroed) (some fun _ => 0) 0).val.sent
        = [0x68,15,0,0x41,0,0,0,0,0,0,0xf0,1,0,0x32,0x16]
      ∧ (elec_1376_2_send defaultConfig request (some zeroed) (some fun _ => 0xAA) 0).val.sent
        = [0x68,15,0,0x41,0,0xAA,0xAA,0xAA,0xAA,0,0xf0,1,0,0xDA,0x16] := by
  have fits : request.overhead+request.d_len.toNat ≤ defaultConfig.trans_max_len := by decide
  rw [send_fits fits,send_fits fits]
  decide

/-! ### All or nothing -/

/-- A frame with the arguments of a call; the information bytes between the flag and the
    counter are not among them. -/
structure Carries (x : Args) (frameindex : UInt8) (f : Frame13762) : Prop where
  control : f.control = 0x41
  module_flag : f.info 0 = if x.slave_addr.isSome then 0x04 else 0x00
  frameindex : f.info 5 = frameindex
  source : f.source = x.main_addr
  destination : ∀ slave_addr ∈ x.slave_addr, f.destination = slave_addr
  afn : f.afn = x.afn
  fn : f.fn = x.fn
  payload : f.payload = window x.d_area 0 x.d_len.toNat

theorem sentFrame_carries (x : Args) (frameindex : UInt8) (buf : Mem) :
    Carries x frameindex (sentFrame x frameindex buf) where
  control := rfl
  module_flag := rfl
  frameindex := rfl
  source := rfl
  destination := by
    intro slave_addr given
    rw [sentFrame,Option.mem_def.mp given]
    rfl
  afn := rfl
  fn := rfl
  payload := rfl

theorem fill_storesWithin (cfg : Config) (x : Args) (block : S13762Format) :
    StoresWithin (fill cfg x block) (fun _ => cfg.trans_max_len) ↔ 12+x.d_len.toNat ≤ cfg.trans_max_len := by
  have range := cfg.range
  have data := offsets_lt (n := x.d_len.toNat) range.1
  unfold fill
  cases x.slave_addr with
  | none =>
    simp only [storesWithin_bind,storesWithin_stored,storesWithin_pure,and_true,true_and,data]
    exact ⟨fun all => all.2.2.2.2.1,fun room => ⟨by omega,by omega,by omega,by omega,room,by omega⟩⟩
  | some slave_addr =>
    simp only [storesWithin_bind,storesWithin_stored,storesWithin_pure,and_true,true_and,data]
    exact ⟨fun all => all.2.2.2.2.2.1,fun room => ⟨by omega,by omega,by omega,by omega,by omega,room,by omega⟩⟩

section
variable (sys_addr : Fin 6 → UInt8) (f : S13762Format) (frameindex : UInt8) (out : Mem)

theorem encode_fields_pos : (encode_fields sys_addr f frameindex out).val.2 = if f.module_flag = 0 then 13 else 25 := by
  simp only [encode_fields,val_bind,val_ite,val_pure]
  by_cases clear : f.module_flag = 0
  · simp [clear]
  · simp [clear]

theorem encode_fields_storesWithin (n : Nat) : StoresWithin (encode_fields sys_addr f frameindex out) (fun _ => n)
    ↔ (if f.module_flag = 0 then 13 else 25) ≤ n := by
  simp only [encode_fields,storesWithin_bind,storesWithin_ite,storesWithin_stored,storesWithin_loaded,storesWithin_pure,
    val_ite,val_bind,val_pure,and_true,true_and]
  by_cases clear : f.module_flag = 0
  · simp only [clear,ne_eq,not_true_eq_false,if_false,if_true,false_implies,true_and,not_false_eq_true,forall_true_left]
    constructor
    · intro all
      have last := all.2.2.2.2 2 (by decide)
      omega
    · intro room
      exact ⟨by omega,by omega,by omega,by omega,by omega⟩
  · simp only [clear,ne_eq,not_false_eq_true,if_true,if_false,forall_true_left,not_true_eq_false,false_implies,and_true]
    constructor
    · intro all
      have last := all.2.2.2.2.2.2 2 (by decide)
      omega
    · intro room
      exact ⟨by omega,by omega,by omega,by omega,by omega,by omega,by omega⟩

theorem sumLoop16_stores (m : Mem) (a b : Nat) : (sumLoop16 m a b).stores = [] :=
  forLoop_no_stores (b-a) 0 fun _ _ => rfl

/-- The encoder stays within a small buffer exactly when the frame does; the tail is the
    last of it. -/
theorem encode_storesWithin {n : Nat} (small : n ≤ 300) :
    StoresWithin (gdw_1376_2_encode sys_addr f frameindex out) (fun _ => n)
      ↔ (if f.module_flag = 0 then 15 else 27)+f.datalen.toNat ≤ n := by
  have summed : ∀ m a b, StoresWithin (sumLoop16 m a b) fun _ => n := by
    intro m a b x member
    rw [sumLoop16_stores] at member
    exact absurd member List.not_mem_nil
  simp only [gdw_1376_2_encode,storesWithin_bind,storesWithin_stored,storesWithin_loaded,storesWithin_pure,and_true,true_and,
    encode_fields_storesWithin,summed,encode_fields_pos]
  have overhead : (if f.module_flag = 0 then 15 else 27) = (if f.module_flag = 0 then 13 else 25)+2 := by
    split <;> rfl
  have low : 13 ≤ if f.module_flag = 0 then 13 else 25 := by
    split <;> decide
  rw [overhead]
  generalize (if f.module_flag = 0 then 13 else 25) = pos at low
  constructor
  · rintro ⟨header,data,-,tail,-⟩
    have copied := (offsets_lt header).mp data
    have check : u16 ((pos : Int)+f.datalen.toNat) = pos+f.datalen.toNat := u16_eq (by omega) (by omega)
    have behind : u16 (((pos+f.datalen.toNat : Nat) : Int)+1) = pos+f.datalen.toNat+1 := u16_eq (by omega) (by omega)
    rw [check,behind] at tail
    have last := tail 0 (by decide)
    omega
  · intro room
    have check : u16 ((pos : Int)+f.datalen.toNat) = pos+f.datalen.toNat := u16_eq (by omega) (by omega)
    have behind : u16 (((pos+f.datalen.toNat : Nat) : Int)+1) = pos+f.datalen.toNat+1 := u16_eq (by omega) (by omega)
    rw [check,behind]
    exact ⟨by omega,by omega,by omega,by omega,by omega⟩
end

theorem send_storesWithin (cfg : Config) (x : Args) (block : S13762Format) (heapbuf : Option Mem) (frameindex : UInt8) :
    StoresWithin (elec_1376_2_send cfg x (some block) heapbuf frameindex) (fun _ => cfg.trans_max_len)
      ↔ (if heapbuf = none then 12 else x.overhead)+x.d_len.toNat ≤ cfg.trans_max_len := by
  have range := cfg.range
  have positive := overhead_pos x
  cases heapbuf with
  | none =>
    simp only [elec_1376_2_send,storesWithin_bind,storesWithin_pure,fill_storesWithin,and_true,if_true]
  | some buf =>
    have flag : (if (fill cfg x block).val.module_flag = 0 then 15 else 27) = x.overhead := by
      rw [fill_val,Args.overhead]
      cases x.slave_addr with
      | none => rfl
      | some slave_addr => rfl
    have size : (fill cfg x block).val.datalen = x.d_len := by rw [fill_val]
    simp only [elec_1376_2_send,storesWithin_bind,storesWithin_stored,storesWithin_ite,storesWithin_pure,fill_storesWithin,
      encode_storesWithin _ _ _ _ range.2,flag,size,implies_true,and_true,reduceCtorEq,if_false]
    constructor
    · intro all
      exact all.2.2
    · intro room
      exact ⟨by omega,by omega,room⟩

/-! A call is all or nothing. -/

def Transmitted (x : Args) (frameindex : UInt8) (o : Outcome) : Prop :=
  ∃ f, Carries x frameindex f ∧ o.sent = f.wire ∧ o.ret = f.wire.length

def Refused (o : Outcome) : Prop := o.sent = [] ∧ o.ret = -1

/-- A call sends the frame of its arguments and returns the length of it, or sends
    nothing and returns -1, and it writes only to its blocks, exactly when it does not get
    the first block, does not get the second one and the payload fits the first, or the
    frame fits the second. -/
theorem all_or_nothing_iff (cfg : Config) (x : Args) (heap : Option S13762Format) (heapbuf : Option Mem)
    (frameindex : UInt8) :
    ((Transmitted x frameindex (elec_1376_2_send cfg x heap heapbuf frameindex).val
          ∨ Refused (elec_1376_2_send cfg x heap heapbuf frameindex).val)
        ∧ StoresWithin (elec_1376_2_send cfg x heap heapbuf frameindex) fun _ => cfg.trans_max_len)
      ↔ heap = none ∨ (heapbuf = none ∧ 12+x.d_len.toNat ≤ cfg.trans_max_len)
        ∨ x.overhead+x.d_len.toNat ≤ cfg.trans_max_len := by
  have positive := overhead_pos x
  cases heap with
  | none =>
    rw [send_failed (.inl rfl)]
    exact iff_of_true ⟨.inr ⟨rfl,rfl⟩,storesWithin_pure _ _⟩ (.inl rfl)
  | some block =>
    rw [send_storesWithin]
    cases heapbuf with
    | none =>
      rw [send_failed (.inr rfl)]
      simp only [reduceCtorEq,if_true,true_and,false_or]
      constructor
      · rintro ⟨-,room⟩
        exact .inl room
      · intro room
        exact ⟨.inr ⟨rfl,rfl⟩,by omega⟩
    | some buf =>
      simp only [reduceCtorEq,if_false,false_and,false_or]
      constructor
      · exact fun all => all.2
      · intro fits
        refine ⟨.inl ⟨sentFrame x frameindex buf,sentFrame_carries x frameindex buf,?_⟩,fits⟩
        rw [send_fits fits]
        exact ⟨rfl,rfl⟩

/-- With 242 bytes of payload the tail is stored behind the buffer. -/
theorem tail_outside :
    ¬StoresWithin (elec_1376_2_send defaultConfig { request with d_len := 242 } (some zeroed) (some fun _ => 0) 0)
      fun _ => defaultConfig.trans_max_len := by
  rw [send_storesWithin]
  decide

end Ucm108e.Transmission
