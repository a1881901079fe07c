import Ucm108e.Codec

/-!
The DL/T 645 codec of `elec_dlt645.c`. The decoder is content with exactly the
frames of `Accepts`, and its accesses are bounded by what `decode_within` says.
-/
namespace Ucm108e.Dlt645
open Ucm108e.Bytes Ucm108e.Access Ucm108e.Packer Ucm108e.Codec
set_option linter.unusedSimpArgs false

/-- `s_dlt645_format`: `addr` at offsets 0 to 5, `ctrlcode` at 6, `datalen` at 7
    and `data` from 8 on, which goes on into whatever follows the structure. -/
structure SDlt645Format where
  addr : Fin 6 → UInt8
  ctrlcode : UInt8
  datalen : UInt8
  data : Mem

/-- `dlt_645_decode` (its callers never pass a null `in`). -/
def dlt_645_decode (cfg : Config) (inp : Mem) (inlen : Nat) (out : SDlt645Format) : Traced Buf (Int × SDlt645Format) :=
  if inlen < 12 then pure (-1,out) else do
  let head ← load .inp inp 0
  if head ≠ 0x68 then pure (-1,out) else do
  loaded .inp 1 6
  stored .out 0 6
  let out := { out with addr := fun i => inp (1+5-i) }
  let second ← load .inp inp 7
  if second ≠ 0x68 then pure (-1,out) else do
  let ctrlcode ← load .inp inp 8
  stored .out 6 1
  let datalen ← load .inp inp 9
  stored .out 7 1
  let out := { out with ctrlcode := ctrlcode, datalen := datalen }
  if datalen.toNat > cfg.trans_max_len then pure (-1,out) else do
  let data ← mapLoop .inp inp 10 .out 8 (fun b => b-0x33) datalen.toNat out.data
  let out := { out with data := data }
  let pos := 10+datalen.toNat
  let cs ← sumLoop .inp inp 0 pos
  let check ← load .inp inp pos
  if cs ≠ check then pure (-2,out) else do
  let tail ← load .inp inp (pos+1)
  if tail ≠ 0x16 then pure (-3,out) else
  if pos+2 ≠ inlen then pure (-4,out) else pure (0,out)

/-- `dlt_645_encode`, for an output buffer of any contents: the returned length
    and what the buffer holds then. -/
def dlt_645_encode (inp : SDlt645Format) (out : Mem) : Traced Buf (Nat × Mem) := do
  stored .out 0 4
  let out := store out 0 [0xFE,0xFE,0xFE,0xFE]
  stored .out 4 1
  let out := store out 4 [0x68]
  loaded .inp 0 6
  stored .out 5 6
  let out := store out 5 (List.ofFn inp.addr)
  stored .out 11 1
  let out := store out 11 [0x68]
  loaded .inp 6 1
  stored .out 12 1
  let out := store out 12 [inp.ctrlcode]
  loaded .inp 7 1
  stored .out 13 1
  let out := store out 13 [inp.datalen]
  loaded .inp 8 inp.datalen.toNat
  stored .out 14 inp.datalen.toNat
  let out := store out 14 ((window inp.data 0 inp.datalen.toNat).map fun b => b+0x33)
  let pos := 14+inp.datalen.toNat
  let cs ← sumLoop .out out 4 pos
  stored .out pos 1
  let out := store out pos [cs]
  stored .out (pos+1) 1
  let out := store out (pos+1) [0x16]
  pure (pos+2,out)

/-- `dlt645_precode_detect`, whose result is kept in a 16-bit variable. -/
def dlt645_precode_detect (inp : Mem) (inlen : Nat) : Int :=
  match precodeScan inp inlen 0 with
  | some location => i16 location
  | none => -1

/-- `rt_memset(plcdata, 0, ELEC_DEV_TRANS_MAX_LEN)`. -/
def memset (cfg : Config) (block : SDlt645Format) : SDlt645Format :=
  { addr := fun _ => 0, ctrlcode := 0, datalen := 0,
    data := fun i => if 8+i < cfg.trans_max_len then 0 else block.data i }

/-- `rt_memcpy(outbuf, plcdata, ELEC_DEV_TRANS_MAX_LEN)`. -/
def memcpy (cfg : Config) (outbuf plcdata : SDlt645Format) : SDlt645Format :=
  { plcdata with data := fun i => if 8+i < cfg.trans_max_len then plcdata.data i else outbuf.data i }

def protocol645 (cfg : Config) : Protocol SDlt645Format :=
  ⟨dlt645_precode_detect,dlt_645_decode cfg,memset cfg,memcpy cfg⟩

def elec_dev_parse_645_frame (cfg : Config) :
    Option SDlt645Format → Mem → Nat → SDlt645Format → Int × SDlt645Format :=
  parseFrame (protocol645 cfg)

/-! ### What the decoder accepts -/

/-- The frames of the protocol, in the first `inlen` bytes of `inp`. -/
structure Accepts (cfg : Config) (inp : Mem) (inlen : Nat) : Prop where
  head : inp 0 = 0x68
  second : inp 7 = 0x68
  fits : (inp 9).toNat ≤ cfg.trans_max_len
  length : inlen = 12+(inp 9).toNat
  check : (window inp 0 (10+(inp 9).toNat)).sum = inp (10+(inp 9).toNat)
  tail : inp (11+(inp 9).toNat) = 0x16

def contents (inp : Mem) (out : SDlt645Format) : SDlt645Format :=
  { addr := fun i => inp (1+5-i), ctrlcode := inp 8, datalen := inp 9,
    data := fun i => if i < (inp 9).toNat then inp (10+i)-0x33 else out.data i }

theorem decode_accepted {cfg : Config} {inp : Mem} {inlen : Nat} (accepts : Accepts cfg inp inlen) (out : SDlt645Format) :
    (dlt_645_decode cfg inp inlen out).val = (0,contents inp out) := by
  obtain ⟨head,second,fits,length,check,tail⟩ := accepts
  have long : ¬ inlen < 12 := by omega
  have whole : 10+(inp 9).toNat+2 = inlen := by omega
  have fits' : ¬ (inp 9).toNat > cfg.trans_max_len := by omega
  have tail' : inp (10+(inp 9).toNat+1) = 0x16 := by rw [← tail]; congr 1; omega
  simp only [dlt_645_decode,val_ite,val_bind,val_pure]
  simp [long,head,second,fits',mapLoop_val,sumLoop_val,check,tail',whole,contents]

/-- Every path that returns 0 has checked the whole grammar. -/
theorem decode_zero {cfg : Config} {inp : Mem} {inlen : Nat} {out : SDlt645Format}
    (zero : (dlt_645_decode cfg inp inlen out).val.1 = 0) : Accepts cfg inp inlen := by
  simp only [dlt_645_decode,val_ite,val_bind,val_pure] at zero
  split_ifs at zero with short head second fits check tail length
  -- Only the last path does not return a negative value.
  iterate 7 cases zero
  simp only [val_load,sumLoop_val,Nat.sub_zero,ne_eq,not_not] at head second fits check tail length
  refine ⟨head,second,by omega,by omega,check,?_⟩
  rw [← tail]
  congr 1
  omega

theorem decode_zero_iff (cfg : Config) (inp : Mem) (inlen : Nat) (out : SDlt645Format) :
    (dlt_645_decode cfg inp inlen out).val.1 = 0 ↔ Accepts cfg inp inlen :=
  ⟨decode_zero,fun accepts => by rw [decode_accepted accepts]⟩

/-- The loops read behind `inlen` where the length byte makes them, but no frame is
    accepted for what stands there. -/
theorem Accepts.congr {cfg : Config} {inp inp' : Mem} {inlen : Nat} (accepts : Accepts cfg inp inlen)
    (same : ∀ i < inlen, inp i = inp' i) : Accepts cfg inp' inlen := by
  have length := accepts.length
  have size : inp' 9 = inp 9 := (same 9 (by omega)).symm
  have summed : window inp' 0 (10+(inp 9).toNat) = window inp 0 (10+(inp 9).toNat) :=
    window_congr fun i inside => (same (0+i) (by omega)).symm
  constructor
  · rw [← same 0 (by omega)]
    exact accepts.head
  · rw [← same 7 (by omega)]
    exact accepts.second
  · rw [size]
    exact accepts.fits
  · rw [size]
    exact length
  · rw [size,summed,← same _ (by omega)]
    exact accepts.check
  · rw [size,← same _ (by omega)]
    exact accepts.tail

theorem contents_congr {cfg : Config} {inp inp' : Mem} {inlen : Nat} (accepts : Accepts cfg inp inlen)
    (same : ∀ i < inlen, inp i = inp' i) (out : SDlt645Format) : contents inp out = contents inp' out := by
  have length := accepts.length
  have size : inp 9 = inp' 9 := same 9 (by omega)
  rw [contents,contents,SDlt645Format.mk.injEq]
  refine ⟨funext fun i => same _ (by omega),same 8 (by omega),size,funext fun i => ?_⟩
  rw [← size]
  split
  · rw [same _ (by omega)]
  · rfl

theorem contents_out (inp : Mem) (out out' : SDlt645Format) : contents inp out'
    = { contents inp out with
        data := fun i => if i < (contents inp out).datalen.toNat then (contents inp out).data i else out'.data i } := by
  rw [contents,contents,SDlt645Format.mk.injEq]
  refine ⟨rfl,rfl,rfl,funext fun i => ?_⟩
  by_cases inside : i < (inp 9).toNat
  · rw [if_pos inside,if_pos inside]
    exact (if_pos inside).symm
  · rw [if_neg inside,if_neg inside]

/-- The decoder returns 0 for exactly the frames of its grammar, so that what it
    accepts and what it makes of it stands in the first `inlen` bytes. What the
    structure held before is left behind the data only. -/
theorem decode_grammar (cfg : Config) (inp : Mem) (inlen : Nat) (out : SDlt645Format) :
    ((dlt_645_decode cfg inp inlen out).val.1 = 0
        ↔ 12 ≤ inlen ∧ inp 0 = 0x68 ∧ inp 7 = 0x68 ∧ (inp 9).toNat ≤ cfg.trans_max_len ∧ inlen = 12+(inp 9).toNat
          ∧ (inp (10+(inp 9).toNat)).toNat = ((window inp 0 (10+(inp 9).toNat)).map UInt8.toNat).sum % 256
          ∧ inp (11+(inp 9).toNat) = 0x16)
      ∧ ∀ inp' out', (∀ i < inlen, inp i = inp' i) →
        ((dlt_645_decode cfg inp' inlen out').val.1 = 0 ↔ (dlt_645_decode cfg inp inlen out).val.1 = 0)
          ∧ ((dlt_645_decode cfg inp inlen out).val.1 = 0 →
            let decoded := (dlt_645_decode cfg inp inlen out).val.2
            (dlt_645_decode cfg inp' inlen out').val.2 = { decoded with
              data := fun i => if i < decoded.datalen.toNat then decoded.data i else out'.data i }) := by
  simp only [decode_zero_iff]
  constructor
  · constructor
    · rintro ⟨head,second,fits,length,check,tail⟩
      exact ⟨by omega,head,second,fits,length,by rw [← check,sum_toNat],tail⟩
    · rintro ⟨-,head,second,fits,length,check,tail⟩
      exact ⟨head,second,fits,length,UInt8.toNat_inj.mp (by rw [sum_toNat,check]),tail⟩
  · intro inp' out' same
    refine ⟨⟨fun accepts => accepts.congr fun i inside => (same i inside).symm,fun accepts => accepts.congr same⟩,?_⟩
    intro accepts
    rw [decode_accepted accepts,decode_accepted (accepts.congr same),← contents_congr accepts same]
    exact contents_out inp out out'

/-- A frame that fills its `inlen` bytes and fits the block is decoded within
    both. -/
theorem decode_within {cfg : Config} {inp : Mem} {inlen : Nat} (length : inlen = 12+(inp 9).toNat)
    (block : 8+(inp 9).toNat ≤ cfg.trans_max_len) (out : SDlt645Format) :
    Within (dlt_645_decode cfg inp inlen out) (sizes inlen cfg.trans_max_len) := by
  have range := cfg.range
  have data : ∀ i < (inp 9).toNat, 10+i < inlen ∧ 8+i < cfg.trans_max_len := by
    intro i lt
    omega
  have sum : ∀ i < 10+(inp 9).toNat-0, 0+i < inlen := by
    intro i lt
    omega
  simp only [dlt_645_decode,within_ite,within_bind,within_pure]
  simp only [within_load,within_loaded,within_stored,mapLoop_within,sumLoop_within,val_load,sizes_inp,sizes_out]
  refine ⟨fun _ => trivial,fun long => ⟨by omega,fun _ => trivial,fun _ => ⟨by omega,by omega,by omega,?_⟩⟩⟩
  refine ⟨fun _ => trivial,fun _ => ⟨by omega,by omega,by omega,by omega,fun _ => trivial,fun _ => ⟨data,sum,by omega,?_⟩⟩⟩
  exact ⟨fun _ => trivial,fun _ => ⟨by omega,by simp⟩⟩

end Ucm108e.Dlt645
