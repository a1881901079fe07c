import Ucm108e.Codec

/-!
The Q/GDW 1376.2 codec of `elec_1376_2.c`. The decoder computes the length of
the payload from the length field in 16 bits, so frames shorter than their
fixed fields make it run far past both memories; `decode_within_iff` says which
frames those are.
-/
namespace Ucm108e.Gdw13762
open Ucm108e.Bytes Ucm108e.Access Ucm108e.Packer Ucm108e.Codec
set_option linter.unusedSimpArgs false

/-- `s_1376_2_format`: `module_flag` at offset 0, `tn_addr` at 1 to 6, `afn` at 7,
    `fn` at 8, `datalen` at 10 and `data` from 12 on, which goes on into whatever
    follows the structure. The block has `ELEC_DEV_TRANS_MAX_LEN` bytes; a store
    behind them stands in the record of the accesses, and what it destroys is not
    modelled. -/
structure S13762Format where
  module_flag : UInt8
  tn_addr : Fin 6 → UInt8
  afn : UInt8
  fn : UInt16
  datalen : UInt16
  data : Mem

/-- The decoder from `out->afn` to `out->fn`, at `pos`. -/
def decode_function (inp : Mem) (out : S13762Format) (pos : Nat) : Traced Buf (S13762Format × Nat) := do
  let afn ← load .inp inp pos
  stored .out 7 1
  let low ← load .inp inp (pos+1)
  stored .out 8 2
  let high ← load .inp inp (pos+2)
  loaded .out 8 2
  stored .out 8 2
  pure ({ out with afn := afn, fn := le16 low high },pos+3)

/-- The decoder from the length field on, up to the payload: the fields so far
    and `pos`. -/
def decode_fields (inp : Mem) (out : S13762Format) : Traced Buf (S13762Format × Nat) := do
  let low ← load .inp inp 1
  stored .out 10 2
  let high ← load .inp inp 2
  loaded .out 10 2
  stored .out 10 2
  let out := { out with datalen := le16 low high }
  let info ← load .inp inp 4
  let out ← if info &&& 0x04 ≠ 0 then do
      stored .out 0 1
      pure { out with module_flag := 1 }
    else pure out
  loaded .out 0 1
  if out.module_flag = 1 then do
    loaded .inp 10 6
    stored .out 1 6
    decode_function inp { out with tn_addr := fun i => inp (10+i) } 22
  else decode_function inp out 10

def decode_data (inp : Mem) (out : S13762Format) (pos : Nat) : Traced Buf (Int × S13762Format) := do
  loaded .out 10 2
  let len := u16 ((out.datalen.toNat : Int)-pos-2)
  let data ← mapLoop .inp inp pos .out 12 id len out.data
  let out := { out with data := data }
  let pos := u16 (pos+len)
  let cs ← sumLoop .inp inp 3 pos
  let check ← load .inp inp pos
  if cs ≠ check then pure (-2,out) else do
  let pos := u16 (pos+1)
  let tail ← load .inp inp pos
  if tail ≠ 0x16 then pure (-3,out) else pure (0,out)

/-- `gdw_1376_2_decode` (its callers never pass a null `in`). -/
def gdw_1376_2_decode (inp : Mem) (inlen : Nat) (out : S13762Format) : Traced Buf (Int × S13762Format) :=
  if inlen < 7 then pure (-1,out) else do
  let head ← load .inp inp 0
  if head ≠ 0x68 then pure (-1,out) else do
  let (out,pos) ← decode_fields inp out
  decode_data inp out pos

/-- `cs` of the encoder, which is 16 bits wide. -/
def sumLoop16 (out : Mem) (a b : Nat) : Traced Buf UInt16 :=
  forLoop (b-a) 0 fun i cs => do
    let x ← load .out out (a+i)
    pure (cs+x.toUInt16)

/-- The encoder up to the function number: what the buffer holds then, and `pos`. -/
def encode_fields (sys_addr : Fin 6 → UInt8) (inp : S13762Format) (frameindex : UInt8) (out : Mem) :
    Traced Buf (Mem × Nat) := do
  stored .out 0 1
  let out := store out 0 [0x68]
  stored .out 3 1
  let out := store out 3 [0x41]
  loaded .inp 0 1
  stored .out 4 1
  let out := store out 4 [(0x00 : UInt8) ||| inp.module_flag <<< 2]
  stored .out 9 1
  let out := store out 9 [frameindex]
  let (out,pos) ← if inp.module_flag ≠ 0 then do
      stored .out 10 6
      let out := store out 10 (List.ofFn sys_addr)
      loaded .inp 1 6
      stored .out 16 6
      pure (store out 16 (List.ofFn inp.tn_addr),22)
    else pure (out,10)
  loaded .inp 7 3
  stored .out pos 3
  pure (store out pos [inp.afn,inp.fn.toUInt8,(inp.fn >>> 8).toUInt8],pos+3)

/-- `gdw_1376_2_encode`, for the static `frameindex` and an output buffer of any
    contents: the returned length, the buffer and `frameindex` afterwards. -/
def gdw_1376_2_encode (sys_addr : Fin 6 → UInt8) (inp : S13762Format) (frameindex : UInt8) (out : Mem) :
    Traced Buf (Nat × Mem × UInt8) := do
  let (out,pos) ← encode_fields sys_addr inp frameindex out
  loaded .inp 12 inp.datalen.toNat
  stored .out pos inp.datalen.toNat
  let out := store out pos (window inp.data 0 inp.datalen.toNat)
  let pos := u16 (pos+inp.datalen.toNat)
  let cs ← sumLoop16 out 3 pos
  stored .out pos 1
  let out := store out pos [cs.toUInt8]
  let pos := u16 (pos+1)
  stored .out pos 1
  let out := store out pos [0x16]
  let pos := u16 (pos+1)
  stored .out 1 2
  pure (pos,store out 1 [UInt8.ofNat pos,UInt8.ofNat (pos/256)],frameindex+1)

def gdw1376_2_precode_detect (inp : Mem) (inlen : Nat) : Int :=
  match precodeScan inp inlen 0 with
  | some location => location
  | none => -1

/-- `rt_memset(plcdata, 0, ELEC_DEV_TRANS_MAX_LEN)`. -/
def memset (cfg : Config) (block : S13762Format) : S13762Format :=
  { module_flag := 0, tn_addr := fun _ => 0, afn := 0, fn := 0, datalen := 0,
    data := fun i => if 12+i < cfg.trans_max_len then 0 else block.data i }

/-- `rt_memcpy(outbuf, plcdata, ELEC_DEV_TRANS_MAX_LEN)`. -/
def memcpy (cfg : Config) (outbuf plcdata : S13762Format) : S13762Format :=
  { plcdata with data := fun i => if 12+i < cfg.trans_max_len then plcdata.data i else outbuf.data i }

def protocol13762 (cfg : Config) : Protocol S13762Format :=
  ⟨gdw1376_2_precode_detect,gdw_1376_2_decode,memset cfg,memcpy cfg⟩

def elec_dev_parse_1376_2_frame (cfg : Config) :
    Option S13762Format → Mem → Nat → S13762Format → Int × S13762Format :=
  parseFrame (protocol13762 cfg)

/-! ### What the decoder does with a cleared block -/

def flagged (inp : Mem) : Bool := inp 4 &&& 0x04 ≠ 0

def dataPos (inp : Mem) : Nat := if flagged inp then 25 else 13

def lengthField (inp : Mem) : UInt16 := le16 (inp 1) (inp 2)

def checkPos (inp : Mem) : Nat := u16 ((lengthField inp).toNat-2)

/-- What the decoder makes of a frame that gets as far as the payload. -/
def contents (inp : Mem) (out : S13762Format) : S13762Format :=
  { module_flag := if flagged inp then 1 else 0
    tn_addr := if flagged inp then fun i => inp (10+i) else out.tn_addr
    afn := inp (dataPos inp-3)
    fn := le16 (inp (dataPos inp-2)) (inp (dataPos inp-1))
    datalen := lengthField inp
    data := fun i => if i < u16 ((lengthField inp).toNat-dataPos inp-2) then inp (dataPos inp+i) else out.data i }

theorem decode_fields_val (inp : Mem) {out : S13762Format} (cleared : out.module_flag = 0) :
    (decode_fields inp out).val = ({ contents inp out with data := out.data },dataPos inp) := by
  by_cases flag : inp 4 &&& 0x04 = 0
  · simp [decode_fields,decode_function,contents,flagged,dataPos,lengthField,flag,cleared]
  · simp [decode_fields,decode_function,contents,flagged,dataPos,lengthField,flag]

/-- However the payload length wraps, and wherever the payload starts, it ends where the
    length field says. -/
theorem checkPos_of (inp : Mem) (pos : Nat) : u16 (pos+u16 ((lengthField inp).toNat-pos-2)) = checkPos inp := by
  unfold checkPos u16
  omega

def verdictAt (inp : Mem) (pos : Nat) : Int :=
  if (window inp 3 (pos-3)).sum ≠ inp pos then -2
  else if inp (u16 (pos+1)) ≠ 0x16 then -3
  else 0

theorem decode_data_val (inp : Mem) (out : S13762Format) (pos : Nat) :
    (decode_data inp out pos).val = (verdictAt inp (u16 (pos+u16 (out.datalen.toNat-pos-2))),
      { out with data := fun i => if i < u16 (out.datalen.toNat-pos-2) then inp (pos+i) else out.data i }) := by
  simp only [decode_data,val_ite,val_bind,val_pure]
  simp only [val_load,mapLoop_val,sumLoop_val,verdictAt,id_eq]
  split_ifs <;> rfl

theorem decode_val {inp : Mem} {inlen : Nat} (long : 7 ≤ inlen) (head : inp 0 = 0x68) {out : S13762Format}
    (cleared : out.module_flag = 0) :
    (gdw_1376_2_decode inp inlen out).val = (verdictAt inp (checkPos inp),contents inp out) := by
  have position := checkPos_of inp (dataPos inp)
  have short : ¬ inlen < 7 := by omega
  simp only [gdw_1376_2_decode,val_ite,val_bind,val_pure,decode_fields_val inp cleared,decode_data_val]
  simp [head,short,contents,position]
  rfl

/-! ### Which frames are decoded within bounds -/

theorem decode_function_within (inp : Mem) (out : S13762Format) (pos : Nat) {n max : Nat} (room : 12 ≤ max) :
    Within (decode_function inp out pos) (sizes n max) ↔ pos+3 ≤ n := by
  simp only [decode_function,within_bind,within_pure,within_load,within_loaded,within_stored,sizes_inp,sizes_out]
  constructor
  · rintro ⟨_,_,_,_,last,_⟩
    omega
  · intro le
    refine ⟨by omega,by omega,by omega,by omega,by omega,by omega,by omega,trivial⟩

theorem decode_fields_within (inp : Mem) {out : S13762Format} (cleared : out.module_flag = 0) {n max : Nat}
    (room : 12 ≤ max) : Within (decode_fields inp out) (sizes n max) ↔ dataPos inp ≤ n := by
  simp only [decode_fields,within_bind,within_ite,within_pure,val_ite,val_bind,val_pure,decode_function_within _ _ _ room]
  simp only [within_load,within_loaded,within_stored,val_load,sizes_inp,sizes_out,dataPos,flagged]
  by_cases flag : inp 4 &&& 0x04 = 0
  · simp [flag,cleared]
    constructor
    · rintro ⟨_,_,_,_,_,_,le⟩
      exact le
    · intro le
      exact ⟨by omega,by intro i lt; omega,by omega,by intro i lt; omega,by omega,by omega,le⟩
  · simp [flag]
    constructor
    · rintro ⟨_,_,_,_,_,_,_,_,le⟩
      exact le
    · intro le
      exact ⟨by omega,by intro i lt; omega,by omega,by intro i lt; omega,by omega,by omega,by intro i lt; omega,
        by intro i lt; omega,le⟩

/-- A frame that fills its `n` bytes, or one for which the subtraction of the
    preamble has wrapped, so that `n` bounds nothing. -/
def Measured (cfg : Config) (inp : Mem) (n : Nat) : Prop :=
  ((lengthField inp).toNat = n ∧ n ≤ cfg.trans_max_len) ∨ (65533 ≤ n ∧ n < 65536)

/-- The frame has room for the fixed fields, the checksum and the tail, ends
    within its `n` bytes, and its payload fits the block behind the fields. -/
def Roomy (cfg : Config) (inp : Mem) (n : Nat) : Prop :=
  dataPos inp+2 ≤ (lengthField inp).toNat ∧ (lengthField inp).toNat ≤ n ∧
    12+((lengthField inp).toNat-dataPos inp-2) ≤ cfg.trans_max_len

/-- The decoder turns the frame down before it reads the length field, or the
    frame is roomy. -/
def DecodeFits (cfg : Config) (inp : Mem) (n : Nat) : Prop := n < 7 ∨ inp 0 ≠ 0x68 ∨ Roomy cfg inp n

instance (cfg : Config) (inp : Mem) (n : Nat) : Decidable (Roomy cfg inp n) :=
  inferInstanceAs (Decidable (_ ∧ _ ∧ _))

instance (cfg : Config) (inp : Mem) (n : Nat) : Decidable (DecodeFits cfg inp n) :=
  inferInstanceAs (Decidable (_ ∨ _ ∨ _))

theorem dataPos_range (inp : Mem) : 13 ≤ dataPos inp ∧ dataPos inp ≤ 25 := by
  unfold dataPos
  split <;> omega

theorem roomy_header {cfg : Config} {inp : Mem} {n : Nat} (roomy : Roomy cfg inp n) : dataPos inp ≤ n := by
  obtain ⟨room,whole,_⟩ := roomy
  omega

theorem payload_len {inp : Mem} (room : dataPos inp+2 ≤ (lengthField inp).toNat) :
    u16 ((lengthField inp).toNat-dataPos inp-2) = (lengthField inp).toNat-dataPos inp-2 := by
  have wide := (lengthField inp).toNat_lt
  exact u16_eq (by omega) (by omega)

/-- The payload is copied and summed within bounds exactly when the frame is roomy. -/
theorem decode_data_within (cfg : Config) {inp : Mem} {n : Nat} (measured : Measured cfg inp n)
    {out : S13762Format} (field : out.datalen = lengthField inp) :
    Within (decode_data inp out (dataPos inp)) (sizes n cfg.trans_max_len) ↔ Roomy cfg inp n := by
  have range := cfg.range
  have position := dataPos_range inp
  have wide := (lengthField inp).toNat_lt
  simp only [decode_data,within_bind,within_ite,within_pure,val_bind,field]
  simp only [within_load,within_loaded,mapLoop_within,sumLoop_within,sizes_inp,sizes_out]
  unfold Measured at measured
  unfold Roomy
  constructor
  · rintro ⟨_,copied,_,checked,_⟩
    have room : dataPos inp+2 ≤ (lengthField inp).toNat := by
      by_contra less
      -- Without room the payload length wraps, and the copy leaves the block.
      have wraps : 65000 < u16 ((lengthField inp).toNat-dataPos inp-2) := by unfold u16; omega
      have := (copied 65000 wraps).2
      omega
    rw [payload_len room] at copied
    have block : 12+((lengthField inp).toNat-dataPos inp-2) ≤ cfg.trans_max_len := by
      by_contra less
      have := (copied ((lengthField inp).toNat-dataPos inp-3) (by omega)).2
      omega
    exact ⟨room,by omega,block⟩
  · rintro ⟨room,whole,block⟩
    have check : u16 ((dataPos inp : Int)+((lengthField inp).toNat-dataPos inp-2 : Nat)) = (lengthField inp).toNat-2 :=
      u16_eq (by omega) (by omega)
    have last : u16 (((lengthField inp).toNat-2 : Nat)+1) = (lengthField inp).toNat-1 :=
      u16_eq (by omega) (by omega)
    rw [payload_len room,check,last]
    exact ⟨by omega,by intro i lt; omega,by intro i lt; omega,by omega,fun _ => trivial,
      fun _ => ⟨by omega,fun _ => trivial,fun _ => trivial⟩⟩

theorem decode_within_iff (cfg : Config) {inp : Mem} {n : Nat} (measured : Measured cfg inp n) {out : S13762Format}
    (cleared : out.module_flag = 0) :
    Within (gdw_1376_2_decode inp n out) (sizes n cfg.trans_max_len) ↔ DecodeFits cfg inp n := by
  have range := cfg.range
  unfold DecodeFits
  simp only [gdw_1376_2_decode,within_ite,within_bind,within_pure]
  simp only [within_load,val_load,decode_fields_within inp cleared range.1,decode_fields_val inp cleared,sizes_inp]
  by_cases short : n < 7
  · simp [short]
  · by_cases head : inp 0 = 0x68
    · have fields : ({ contents inp out with data := out.data } : S13762Format).datalen = lengthField inp := rfl
      simp only [short,head,ne_eq,not_true_eq_false,not_false_eq_true,false_or,forall_true_left,true_and,false_implies]
      constructor
      · rintro ⟨_,_,data⟩
        exact (decode_data_within cfg measured fields).mp data
      · intro roomy
        exact ⟨by omega,roomy_header roomy,(decode_data_within cfg measured fields).mpr roomy⟩
    · simp only [short,head,ne_eq,not_false_eq_true,forall_true_left,true_and,not_true_eq_false,false_implies,and_true,
        true_or,or_true,iff_true]
      omega

/-! ### The length that handlers are given -/

/-- The number of payload bytes that were stored, `data` being at offset 12. -/
def copied {α : Type} (t : Traced Buf α) : Nat := t.stores.countP fun a => a.1 = Buf.out ∧ 12 ≤ a.2

/-- The frames that are decoded: the checksum and the tail stand where the length
    field says. -/
structure Accepts (inp : Mem) (inlen : Nat) : Prop where
  long : 7 ≤ inlen
  head : inp 0 = 0x68
  check : (window inp 3 (checkPos inp-3)).sum = inp (checkPos inp)
  tail : inp (u16 (checkPos inp+1)) = 0x16

theorem copied_none {α : Type} {t : Traced Buf α} (fields : StoresWithin t fun _ => 12) : copied t = 0 := by
  refine List.countP_eq_zero.mpr fun a member behind => ?_
  have before : a.2 < 12 := fields a member
  simp only [decide_eq_true_eq] at behind
  omega

theorem decode_function_storesWithin (inp : Mem) (out : S13762Format) (pos : Nat) :
    StoresWithin (decode_function inp out pos) fun _ => 12 := by
  simp only [decode_function,storesWithin_bind,storesWithin_load,storesWithin_loaded,storesWithin_stored,storesWithin_pure,
    and_true,true_and]
  exact ⟨by omega,by omega,by omega⟩

theorem decode_fields_storesWithin (inp : Mem) (out : S13762Format) :
    StoresWithin (decode_fields inp out) fun _ => 12 := by
  simp only [decode_fields,storesWithin_bind,storesWithin_ite,storesWithin_load,storesWithin_loaded,storesWithin_stored,
    storesWithin_pure,decode_function_storesWithin,and_true,true_and,implies_true]
  refine ⟨by omega,by omega,fun _ => ⟨by omega,fun _ => ?_⟩,fun _ _ => ?_⟩
  · omega
  · omega

/-- The fields of any block, cleared or not, take the length field of the frame and
    end before the payload. -/
theorem decode_fields_fixed (inp : Mem) (out : S13762Format) :
    (decode_fields inp out).val.1.datalen = lengthField inp
      ∧ ((decode_fields inp out).val.2 = 13 ∨ (decode_fields inp out).val.2 = 25) := by
  by_cases flag : inp 4 &&& 0x04 = 0
  · by_cases earlier : out.module_flag = 1
    · simp [decode_fields,decode_function,lengthField,flag,earlier]
    · simp [decode_fields,decode_function,lengthField,flag,earlier]
  · simp [decode_fields,decode_function,lengthField,flag]

theorem copied_data (inp : Mem) (out : S13762Format) (pos : Nat) :
    copied (decode_data inp out pos) = u16 ((out.datalen.toNat : Int)-pos-2) := by
  have behind : ((decode_data inp out pos).stores) = (stored Buf.out 12 (u16 ((out.datalen.toNat : Int)-pos-2))).stores := by
    simp only [decode_data,stores_bind,stores_loaded,mapLoop_stores,sumLoop_stores,stores_load,stores_ite,stores_pure,
      ite_self,List.nil_append,List.append_nil]
  rw [copied,behind,stored,List.countP_map,List.countP_eq_length.mpr,List.length_range]
  intro i _
  simp

theorem decode_zero_iff (inp : Mem) (inlen : Nat) (out : S13762Format) :
    (gdw_1376_2_decode inp inlen out).val.1 = 0 ↔ Accepts inp inlen := by
  obtain ⟨field,-⟩ := decode_fields_fixed inp out
  rw [gdw_1376_2_decode,val_ite]
  by_cases short : inlen < 7
  · rw [if_pos short]
    exact ⟨fun zero => (by cases zero),fun accepts => absurd accepts.long (by omega)⟩
  rw [if_neg short,val_bind,val_ite,val_load]
  by_cases head : inp 0 ≠ 0x68
  · rw [if_pos head]
    exact ⟨fun zero => (by cases zero),fun accepts => absurd accepts.head head⟩
  rw [if_neg head,val_bind,decode_data_val,field,checkPos_of,verdictAt]
  split_ifs with check tail
  · exact ⟨fun zero => (by cases zero),fun accepts => absurd accepts.check check⟩
  · exact ⟨fun zero => (by cases zero),fun accepts => absurd accepts.tail tail⟩
  · exact ⟨fun _ => ⟨by omega,not_not.mp head,not_not.mp check,not_not.mp tail⟩,fun _ => rfl⟩

/-- Of an accepted frame `datalen` holds the length of the whole frame; 15 or 27 bytes
    of it are not payload. -/
theorem accepted_datalen {inp : Mem} {inlen : Nat} (accepts : Accepts inp inlen) (out : S13762Format) :
    (gdw_1376_2_decode inp inlen out).val.2.datalen = lengthField inp
      ∧ (copied (gdw_1376_2_decode inp inlen out) = u16 ((lengthField inp).toNat-15)
        ∨ copied (gdw_1376_2_decode inp inlen out) = u16 ((lengthField inp).toNat-27)) := by
  have long := accepts.long
  obtain ⟨field,place⟩ := decode_fields_fixed inp out
  have none := copied_none (decode_fields_storesWithin inp out)
  have count : copied (gdw_1376_2_decode inp inlen out)
      = u16 (((lengthField inp).toNat : Int)-(decode_fields inp out).val.2-2) := by
    rw [gdw_1376_2_decode,if_neg (by omega),copied,stores_bind,val_load,if_neg (not_not.mpr accepts.head),stores_load,
      stores_bind,List.nil_append,List.countP_append]
    change copied (decode_fields inp out)+copied (decode_data inp _ _) = _
    rw [none,copied_data,field,Nat.zero_add]
  constructor
  · rw [gdw_1376_2_decode,if_neg (by omega),val_bind,val_load,if_neg (not_not.mpr accepts.head),val_bind,decode_data_val]
    exact field
  · rcases place with plain | module
    · exact .inl (by rw [count,plain]; unfold u16; omega)
    · exact .inr (by rw [count,module]; unfold u16; omega)

/-- A handler is given the length of the whole frame for that of the payload, so
    that the length is right for no frame that is decoded at all. -/
theorem payload_length_iff (inp : Mem) (inlen : Nat) (out : S13762Format) :
    ((gdw_1376_2_decode inp inlen out).val.1 = 0 →
        (gdw_1376_2_decode inp inlen out).val.2.datalen.toNat = copied (gdw_1376_2_decode inp inlen out))
      ↔ ¬Accepts inp inlen := by
  rw [decode_zero_iff]
  constructor
  · intro told accepts
    obtain ⟨field,count⟩ := accepted_datalen accepts out
    have same := told accepts
    have wide := (lengthField inp).toNat_lt
    rw [field] at same
    unfold u16 at count
    omega
  · intro refused accepts
    exact absurd accepts refused

/-- An empty frame without a module flag: fifteen bytes are reported and none is payload. -/
def emptyFrame : Mem := fun i => [0x68,15,0,0x41,0,0,0,0,0,1,0xf0,1,1,0x34,0x16].getD i 0

theorem emptyFrame_length :
    (gdw_1376_2_decode emptyFrame 15 ⟨0,fun _ => 0,0,0,0,fun _ => 0⟩).val.1 = 0
      ∧ (gdw_1376_2_decode emptyFrame 15 ⟨0,fun _ => 0,0,0,0,fun _ => 0⟩).val.2.datalen = 15
      ∧ copied (gdw_1376_2_decode emptyFrame 15 ⟨0,fun _ => 0,0,0,0,fun _ => 0⟩) = 0 := by
  decide

theorem decode_short (inp : Mem) {n : Nat} (short : n < 7) (out : S13762Format) :
    gdw_1376_2_decode inp n out = pure (-1,out) := by
  simp [gdw_1376_2_decode,short]

end Ucm108e.Gdw13762
