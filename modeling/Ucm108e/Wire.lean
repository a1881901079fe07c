import Ucm108e.PackedFrames

/-!
The two frame formats as they stand on the line, made from their fields, and
what the decoders make of a buffer that holds such a frame.
-/
namespace Ucm108e.Wire
open Ucm108e.Bytes Ucm108e.Access Ucm108e.Packer Ucm108e.Codec Ucm108e.PackedFrames
set_option linter.unusedSimpArgs false

theorem window_split {m : Mem} {a n : Nat} {left right : List UInt8} (holds : window m a n = left ++ right) :
    window m a left.length = left ∧ window m (a+left.length) right.length = right := by
  have size : n = left.length+right.length := by simpa using congrArg List.length holds
  rw [size,window_add] at holds
  exact List.append_inj holds (by simp)

/-! ### DL/T 645 -/

/-- The fields of a 645 frame, the address as it is sent. -/
structure Frame645 where
  addr : Fin 6 → UInt8
  ctrl : UInt8
  data : List UInt8
  short : data.length < 256

namespace Frame645

/-- The bytes that the checksum covers; data are sent with 0x33 added. -/
def covered (x : Frame645) : List UInt8 :=
  0x68 :: (List.ofFn x.addr ++ 0x68 :: x.ctrl :: UInt8.ofNat x.data.length :: x.data.map (· + 0x33))

def wire (x : Frame645) : List UInt8 := x.covered ++ [x.covered.sum,0x16]

@[simp] theorem covered_length (x : Frame645) : x.covered.length = 10+x.data.length := by
  simp [covered]
  omega

@[simp] theorem wire_length (x : Frame645) : x.wire.length = 12+x.data.length := by
  simp [wire]
  omega

theorem datalen_toNat (x : Frame645) : (UInt8.ofNat x.data.length).toNat = x.data.length := by
  have := x.short
  simp
  omega
end Frame645

/-- The structure carries the fields of the frame, the address turned around. -/
structure Received645 (x : Frame645) (out : Dlt645.SDlt645Format) : Prop where
  addr : ∀ i : Fin 6, out.addr i = x.addr i.rev
  ctrlcode : out.ctrlcode = x.ctrl
  datalen : out.datalen.toNat = x.data.length
  data : window out.data 0 x.data.length = x.data

section
variable {x : Frame645} {inp : Mem} (holds : window inp 0 x.wire.length = x.wire)
include holds

theorem wire645_byte {i : Nat} (inside : i < 10+x.data.length) : inp i = x.covered.getD i 0 := by
  have covered := (window_split holds).1
  rw [x.covered_length] at covered
  have := window_byte covered inside
  rwa [Nat.zero_add] at this

theorem wire645_datalen : inp 9 = UInt8.ofNat x.data.length := by
  rw [wire645_byte holds (by omega)]
  simp [Frame645.covered]

theorem wire645_data {i : Nat} (inside : i < x.data.length) : inp (10+i) = x.data[i]+0x33 := by
  rw [wire645_byte holds (by omega)]
  simp [Frame645.covered,Nat.add_comm 10 i,inside]

/-- The decoder accepts a frame whose data fit its own check. -/
theorem accepts_wire645 {cfg : Config} (fits : x.data.length ≤ cfg.trans_max_len) :
    Dlt645.Accepts cfg inp x.wire.length := by
  have datalen : (inp 9).toNat = x.data.length := by rw [wire645_datalen holds,x.datalen_toNat]
  obtain ⟨covered,tail⟩ := window_split holds
  rw [x.covered_length] at covered tail
  have check := window_byte tail (i := 0) (by simp)
  have last := window_byte tail (i := 1) (by simp)
  constructor
  · rw [wire645_byte holds (by omega)]; simp [Frame645.covered]
  · rw [wire645_byte holds (by omega)]; simp [Frame645.covered]
  · omega
  · rw [datalen,x.wire_length]
  · rw [datalen,covered]
    simpa using check.symm
  · rw [datalen]
    have : 0+(10+x.data.length)+1 = 11+x.data.length := by omega
    rw [this] at last
    simpa using last

theorem contents_wire645 (out : Dlt645.SDlt645Format) : Received645 x (Dlt645.contents inp out) := by
  have datalen : (inp 9).toNat = x.data.length := by rw [wire645_datalen holds,x.datalen_toNat]
  constructor
  · intro i
    simp only [Dlt645.contents]
    rw [wire645_byte holds (by omega)]
    fin_cases i <;> simp [Frame645.covered]
  · simp only [Dlt645.contents]
    rw [wire645_byte holds (by omega)]
    simp [Frame645.covered]
  · exact datalen
  · apply (window_eq_iff _ _ _).mpr
    intro i inside
    simp only [Dlt645.contents,Nat.zero_add,datalen,inside,if_true,wire645_data holds inside]
    simp
end

section
variable {x : Frame645} {m : Mem} {k len : Nat} (few : k ≤ 4) (holds : window m 0 len = List.replicate k 0xFE ++ x.wire)
include holds

/-- A buffer that holds a preamble and a frame has the frame behind the preamble. -/
theorem wire645_behind : len = k+x.wire.length ∧ window (shift m k) 0 x.wire.length = x.wire := by
  have behind := (window_split holds).2
  refine ⟨by simpa using congrArg List.length holds,?_⟩
  rw [window_shift,← behind]
  simp

include few

theorem framed_wire645 : Framed645 m len k := by
  obtain ⟨size,frame⟩ := wire645_behind holds
  have preamble := (window_eq_iff m 0 (List.replicate k 0xFE)).mp (window_split holds).1
  have head := wire645_byte frame (i := 0) (by omega)
  have datalen := wire645_datalen frame
  rw [shift_apply] at head datalen
  refine ⟨few,fun i lt => ?_,by simpa [Frame645.covered] using head,?_⟩
  · have byte := preamble i (by simpa using lt)
    rwa [List.getElem_replicate,Nat.zero_add] at byte
  rw [size,datalen,x.wire_length,x.datalen_toNat]
  omega

theorem decoded_wire645 (cfg : Config) (block : Dlt645.SDlt645Format) :
    decoded (Dlt645.protocol645 cfg) block m len =
      (Dlt645.dlt_645_decode cfg (shift m k) x.wire.length (Dlt645.memset cfg block)).val := by
  have rest : len-k = x.wire.length := by have := (wire645_behind holds).1; omega
  rw [decoded,decodeCall645 cfg block (framed_wire645 few holds),rest]

/-- A frame that fits the block is parsed into its fields. -/
theorem parse_wire645 {cfg : Config} (fits : 8+x.data.length ≤ cfg.trans_max_len) (block outbuf : Dlt645.SDlt645Format) :
    (Dlt645.elec_dev_parse_645_frame cfg (some block) m len outbuf).1 = 0 ∧
      Received645 x (Dlt645.elec_dev_parse_645_frame cfg (some block) m len outbuf).2 := by
  have frame := (wire645_behind holds).2
  have ok := decoded_wire645 few holds cfg block
  rw [Dlt645.decode_accepted (accepts_wire645 frame (by omega))] at ok
  rw [Dlt645.elec_dev_parse_645_frame,parseFrame_ok _ block outbuf ok]
  obtain ⟨addr,ctrlcode,datalen,data⟩ := contents_wire645 frame (Dlt645.memset cfg block)
  refine ⟨rfl,addr,ctrlcode,datalen,?_⟩
  refine Eq.trans (window_congr fun i inside => ?_) data
  have block : 8+(0+i) < cfg.trans_max_len := by omega
  simp only [Dlt645.protocol645,Dlt645.memcpy,block,if_true]
end

/-! ### Q/GDW 1376.2 -/

/-- The fields of a 1376.2 frame. The addresses are sent when the module flag,
    bit 2 of the first information byte, is set. -/
structure Frame13762 where
  control : UInt8
  info : Fin 6 → UInt8
  source : Fin 6 → UInt8
  destination : Fin 6 → UInt8
  afn : UInt8
  fn : UInt16
  payload : List UInt8

namespace Frame13762

def module_flag (x : Frame13762) : Bool := x.info 0 &&& 0x04 ≠ 0

def addresses (x : Frame13762) : List UInt8 :=
  if x.module_flag then List.ofFn x.source ++ List.ofFn x.destination else []

/-- The bytes that the checksum covers. -/
def covered (x : Frame13762) : List UInt8 :=
  x.control :: (List.ofFn x.info ++ (x.addresses ++ x.afn :: x.fn.toUInt8 :: (x.fn >>> 8).toUInt8 :: x.payload))

def length (x : Frame13762) : Nat := x.covered.length+5

def wire (x : Frame13762) : List UInt8 :=
  0x68 :: UInt8.ofNat x.length :: UInt8.ofNat (x.length/256) :: (x.covered ++ [x.covered.sum,0x16])

@[simp] theorem wire_length (x : Frame13762) : x.wire.length = x.length := by
  simp [wire,length]

theorem length_eq (x : Frame13762) : x.length = (if x.module_flag then 27 else 15)+x.payload.length := by
  unfold length covered addresses
  split <;> simp <;> omega
end Frame13762

structure Received13762 (x : Frame13762) (out : Gdw13762.S13762Format) : Prop where
  module_flag : out.module_flag = if x.module_flag then 1 else 0
  tn_addr : x.module_flag → out.tn_addr = x.source
  afn : out.afn = x.afn
  fn : out.fn = x.fn
  data : window out.data 0 x.payload.length = x.payload

section
variable {x : Frame13762} {inp : Mem} (holds : window inp 0 x.wire.length = x.wire) (small : x.length < 65536)
include holds

theorem wire13762_parts : window inp 0 3 = [0x68,UInt8.ofNat x.length,UInt8.ofNat (x.length/256)] ∧
    window inp 3 x.covered.length = x.covered ∧ window inp (3+x.covered.length) 2 = [x.covered.sum,0x16] := by
  have parts := @window_split inp 0 x.wire.length [0x68,UInt8.ofNat x.length,UInt8.ofNat (x.length/256)]
    (x.covered ++ [x.covered.sum,0x16]) holds
  exact ⟨parts.1,window_split parts.2⟩

theorem wire13762_head : inp 0 = 0x68 := window_byte (wire13762_parts holds).1 (by decide : 0 < 3)

theorem wire13762_byte {i : Nat} (inside : i+5 < x.length) : inp (3+i) = x.covered.getD i 0 :=
  window_byte (wire13762_parts holds).2.1 (by unfold Frame13762.length at inside; omega)

theorem wire13762_flag : Gdw13762.flagged inp = x.module_flag := by
  have size := x.length_eq
  have info := wire13762_byte holds (i := 1) (by split at size <;> omega)
  rw [Gdw13762.flagged,info]
  simp [Frame13762.covered,Frame13762.module_flag]

theorem wire13762_dataPos : Gdw13762.dataPos inp = if x.module_flag then 25 else 13 := by
  rw [Gdw13762.dataPos,wire13762_flag holds]

theorem wire13762_function {i : Nat} (inside : i < 3+x.payload.length) : inp (Gdw13762.dataPos inp-3+i) =
    (x.afn :: x.fn.toUInt8 :: (x.fn >>> 8).toUInt8 :: x.payload).getD i 0 := by
  have size := x.length_eq
  rw [wire13762_dataPos holds]
  cases flag : x.module_flag
  · have at10 : (if false = true then 25 else 13)-3+i = 3+(i+7) := by simp; omega
    rw [at10,wire13762_byte holds (by rw [size,flag]; simp; omega)]
    simp [Frame13762.covered,Frame13762.addresses,flag]
  · have at22 : (if true = true then 25 else 13)-3+i = 3+(i+19) := by simp; omega
    rw [at22,wire13762_byte holds (by rw [size,flag]; simp; omega)]
    simp [Frame13762.covered,Frame13762.addresses,flag]

include small

theorem wire13762_length : (Gdw13762.lengthField inp).toNat = x.length := by
  have parts := (wire13762_parts holds).1
  have low := window_byte parts (by decide : 1 < 3)
  have high := window_byte parts (by decide : 2 < 3)
  simp only [Nat.zero_add] at low high
  rw [Gdw13762.lengthField,low,high]
  exact le16_bytes x.length small

theorem wire13762_checkPos : Gdw13762.checkPos inp = 3+x.covered.length := by
  rw [Gdw13762.checkPos,wire13762_length holds small]
  unfold u16 Frame13762.length at *
  omega

theorem verdict_wire13762 : Gdw13762.verdictAt inp (Gdw13762.checkPos inp) = 0 := by
  obtain ⟨_,covered,tail⟩ := wire13762_parts holds
  have check := window_byte tail (by decide : 0 < 2)
  have last := window_byte tail (by decide : 1 < 2)
  have next : u16 ((3+x.covered.length : Nat)+1) = 3+x.covered.length+1 := by
    unfold u16 Frame13762.length at *
    omega
  rw [wire13762_checkPos holds small,Gdw13762.verdictAt,Nat.add_sub_cancel_left,covered,next,last]
  simpa using check.symm

theorem contents_wire13762 (out : Gdw13762.S13762Format) : Received13762 x (Gdw13762.contents inp out) := by
  have size := x.length_eq
  have position := wire13762_dataPos holds
  constructor
  · simp only [Gdw13762.contents,wire13762_flag holds]
  · intro flag
    funext i
    simp only [Gdw13762.contents,wire13762_flag holds,flag,if_true]
    have byte := wire13762_byte holds (i := 7+i) (by rw [size,flag]; simp; omega)
    have place : 3+(7+(i : Nat)) = 10+i := by omega
    rw [place] at byte
    rw [byte]
    fin_cases i <;> simp [Frame13762.covered,Frame13762.addresses,flag]
  · have byte := wire13762_function holds (i := 0) (by omega)
    simpa [Gdw13762.contents] using byte
  · have low := wire13762_function holds (i := 1) (by omega)
    have high := wire13762_function holds (i := 2) (by omega)
    have after : Gdw13762.dataPos inp-3+1 = Gdw13762.dataPos inp-2 := by rw [position]; split <;> omega
    have last : Gdw13762.dataPos inp-3+2 = Gdw13762.dataPos inp-1 := by rw [position]; split <;> omega
    rw [after] at low
    rw [last] at high
    simp only [Gdw13762.contents,low,high]
    exact le16_split x.fn
  · have count : u16 ((Gdw13762.lengthField inp).toNat-Gdw13762.dataPos inp-2) = x.payload.length := by
      rw [wire13762_length holds small,position]
      unfold u16
      split at size <;> simp_all <;> omega
    apply (window_eq_iff _ _ _).mpr
    intro i inside
    have byte := wire13762_function holds (i := 3+i) (by omega)
    have place : Gdw13762.dataPos inp-3+(3+i) = Gdw13762.dataPos inp+i := by rw [position]; split <;> omega
    rw [place] at byte
    simp only [Gdw13762.contents,Nat.zero_add,count,inside,if_true,byte]
    simp [Nat.add_comm 3 i,inside]

/-- The decoder is content with a frame and fills a cleared structure from its fields. -/
theorem decode_wire13762 {out : Gdw13762.S13762Format} (cleared : out.module_flag = 0) :
    (Gdw13762.gdw_1376_2_decode inp x.wire.length out).val = (0,Gdw13762.contents inp out) := by
  have size := x.length_eq
  have long : 7 ≤ x.wire.length := by rw [x.wire_length]; split at size <;> omega
  rw [Gdw13762.decode_val long (wire13762_head holds) cleared,verdict_wire13762 holds small]

theorem framed_wire13762 : Framed13762 inp x.wire.length := by
  have size := x.length_eq
  refine ⟨wire13762_head holds,by rw [wire13762_length holds small,x.wire_length],?_⟩
  rw [x.wire_length]
  split at size <;> omega
end

/-- A frame that fits the block is parsed into its fields. -/
theorem parse_wire13762 {x : Frame13762} {m : Mem} (holds : window m 0 x.wire.length = x.wire) {cfg : Config}
    (fits : x.length ≤ cfg.trans_max_len) (block outbuf : Gdw13762.S13762Format) :
    (Gdw13762.elec_dev_parse_1376_2_frame cfg (some block) m x.wire.length outbuf).1 = 0 ∧
      Received13762 x (Gdw13762.elec_dev_parse_1376_2_frame cfg (some block) m x.wire.length outbuf).2 := by
  have range := cfg.range
  have size := x.length_eq
  have small : x.length < 65536 := by omega
  have call := decodeCall13762 cfg block (by rw [x.wire_length]; exact small) (framed_wire13762 holds small)
  have ok : decoded (Gdw13762.protocol13762 cfg) block m x.wire.length =
      (0,Gdw13762.contents m (Gdw13762.memset cfg block)) := by
    rw [decoded,call]
    exact decode_wire13762 holds small rfl
  rw [Gdw13762.elec_dev_parse_1376_2_frame,parseFrame_ok _ block outbuf ok]
  obtain ⟨module_flag,tn_addr,afn,fn,data⟩ := contents_wire13762 holds small (Gdw13762.memset cfg block)
  refine ⟨rfl,module_flag,tn_addr,afn,fn,Eq.trans (window_congr fun i inside => ?_) data⟩
  have within : 12+(0+i) < cfg.trans_max_len := by split at size <;> omega
  simp only [Gdw13762.protocol13762,Gdw13762.memcpy,within,if_true]

end Ucm108e.Wire
