import Ucm108e.Wire

/-!
The encoders against the decoders. Each encoder writes a frame of `Wire`, made
from the fields of its structure; what comes back is then what a decoder makes
of that frame.
-/
namespace Ucm108e.RoundTrip
open Ucm108e.Bytes Ucm108e.Access Ucm108e.Packer Ucm108e.Codec Ucm108e.Wire
set_option linter.unusedSimpArgs false

/-! ### DL/T 645 -/

def frame645 (f : Dlt645.SDlt645Format) : Frame645 where
  addr := f.addr
  ctrl := f.ctrlcode
  data := window f.data 0 f.datalen.toNat
  short := by simpa using f.datalen.toNat_lt

theorem encode_wire645 (f : Dlt645.SDlt645Format) (out : Mem) :
    (Dlt645.dlt_645_encode f out).val =
      (4+(frame645 f).wire.length,store out 0 (List.replicate 4 0xFE ++ (frame645 f).wire)) := by
  have size : (frame645 f).data.length = f.datalen.toNat := by simp [frame645]
  have covered : store (store (store (store (store (store (store out 0 [0xFE,0xFE,0xFE,0xFE]) 4 [0x68]) 5 (List.ofFn f.addr))
      11 [0x68]) 12 [f.ctrlcode]) 13 [f.datalen]) 14 ((window f.data 0 f.datalen.toNat).map fun b => b+0x33) =
      store out 0 (List.replicate 4 0xFE ++ (frame645 f).covered) := by
    simp (disch := simp) only [store_adjacent]
    simp [Frame645.covered,frame645]
  have length : (frame645 f).covered.length = 10+f.datalen.toNat := by rw [Frame645.covered_length,size]
  have sum : window (store out 0 (List.replicate 4 0xFE ++ (frame645 f).covered)) 4 (14+f.datalen.toNat-4) =
      (frame645 f).covered := by
    have behind := (window_split (window_store out 0 (List.replicate 4 0xFE ++ (frame645 f).covered))).2
    have rest : 14+f.datalen.toNat-4 = (frame645 f).covered.length := by omega
    rw [rest]
    simpa using behind
  have check : 14+f.datalen.toNat = 0+(List.replicate 4 (0xFE : UInt8) ++ (frame645 f).covered).length := by
    simp [length]
    omega
  have tail : 14+f.datalen.toNat+1 =
      0+(List.replicate 4 0xFE ++ (frame645 f).covered ++ [(frame645 f).covered.sum]).length := by
    simp [length]
    omega
  simp only [Dlt645.dlt_645_encode,val_bind,val_pure,sumLoop_val]
  rw [covered,sum,store_adjacent _ _ _ _ check,store_adjacent _ _ _ _ tail]
  refine Prod.ext_iff.mpr ⟨?_,?_⟩
  · simp only [Frame645.wire_length,size]
    omega
  · simp [Frame645.wire]

structure Same645 (f g : Dlt645.SDlt645Format) : Prop where
  addr : g.addr = f.addr
  ctrlcode : g.ctrlcode = f.ctrlcode
  datalen : g.datalen = f.datalen
  data : ∀ i < f.datalen.toNat, g.data i = f.data i

/-- `parse_frame` leaves its caller's memory behind the block as it was. -/
theorem parse645_behind (cfg : Config) (heap : Option Dlt645.SDlt645Format) (m : Mem) (len : Nat)
    (outbuf : Dlt645.SDlt645Format) {i : Nat} (behind : cfg.trans_max_len ≤ 8+i) :
    (Dlt645.elec_dev_parse_645_frame cfg heap m len outbuf).2.data i = outbuf.data i := by
  unfold Dlt645.elec_dev_parse_645_frame parseFrame
  cases heap with
  | none => rfl
  | some block =>
    simp only
    split
    · have outside : ¬ 8+i < cfg.trans_max_len := by omega
      simp [Dlt645.protocol645,Dlt645.memcpy,outside]
    · rfl

/-- A structure that was encoded comes back with its address turned around. -/
theorem parse_encoded645 {cfg : Config} {f : Dlt645.SDlt645Format} (fits : 8+f.datalen.toNat ≤ cfg.trans_max_len) (out : Mem)
    (block outbuf : Dlt645.SDlt645Format) :
    Received645 (frame645 f) (Dlt645.elec_dev_parse_645_frame cfg (some block) (Dlt645.dlt_645_encode f out).val.2
      (Dlt645.dlt_645_encode f out).val.1 outbuf).2 := by
  rw [encode_wire645]
  refine (parse_wire645 (k := 4) (by omega) ?_ (by simpa [frame645] using fits) block outbuf).2
  have holds := window_store out 0 (List.replicate 4 0xFE ++ (frame645 f).wire)
  rwa [List.length_append,List.length_replicate] at holds

/-- Encoding and parsing give a structure back, whatever the buffers held,
    exactly when its address reads the same from both ends and it fits the
    block of the parser. -/
theorem round_trip_645_iff (cfg : Config) (f : Dlt645.SDlt645Format) (out : Mem) :
    (∀ block outbuf, Same645 f (Dlt645.elec_dev_parse_645_frame cfg (some block) (Dlt645.dlt_645_encode f out).val.2
      (Dlt645.dlt_645_encode f out).val.1 outbuf).2) ↔
    (∀ i, f.addr i = f.addr i.rev) ∧ 8+f.datalen.toNat ≤ cfg.trans_max_len := by
  have range := cfg.range
  constructor
  · intro same
    have fits : 8+f.datalen.toNat ≤ cfg.trans_max_len := by
      by_contra large
      -- The last byte of the data is not copied, so another one can stand in its place.
      have last := (same f ⟨f.addr,0,0,fun i => f.data i+1⟩).data (f.datalen.toNat-1) (by omega)
      rw [parse645_behind _ _ _ _ _ (by omega)] at last
      simp at last
    refine ⟨fun i => ?_,fits⟩
    have turned := (parse_encoded645 fits out f f).addr i
    rw [(same f f).addr] at turned
    exact turned
  · rintro ⟨symmetric,fits⟩ block outbuf
    obtain ⟨addr,ctrlcode,datalen,data⟩ := parse_encoded645 fits out block outbuf
    simp only [frame645,window_length] at datalen data
    refine ⟨funext fun i => ?_,ctrlcode,UInt8.toNat_inj.mp datalen,fun i inside => ?_⟩
    · rw [addr i]
      exact (symmetric i).symm
    · simpa using window_agree data inside

theorem round_trip_645_symmetric :
    Same645 ⟨fun _ => 0x99,0x91,1,fun _ => 0xFE⟩
      (Dlt645.elec_dev_parse_645_frame defaultConfig (some ⟨fun _ => 0,0,0,fun _ => 0⟩)
        (Dlt645.dlt_645_encode ⟨fun _ => 0x99,0x91,1,fun _ => 0xFE⟩ fun _ => 0).val.2
        (Dlt645.dlt_645_encode ⟨fun _ => 0x99,0x91,1,fun _ => 0xFE⟩ fun _ => 0).val.1 ⟨fun _ => 0,0,0,fun _ => 0⟩).2 :=
  (round_trip_645_iff defaultConfig ⟨fun _ => 0x99,0x91,1,fun _ => 0xFE⟩ fun _ => 0).mpr ⟨by decide,by decide⟩ _ _

/-- The address 1, 2, 3, 4, 5, 6 comes back as 6, 5, 4, 3, 2, 1. -/
theorem round_trip_645_turned :
    ¬ Same645 ⟨fun i => UInt8.ofNat (i+1),0x11,0,fun _ => 0⟩
      (Dlt645.elec_dev_parse_645_frame defaultConfig (some ⟨fun _ => 0,0,0,fun _ => 0⟩)
        (Dlt645.dlt_645_encode ⟨fun i => UInt8.ofNat (i+1),0x11,0,fun _ => 0⟩ fun _ => 0).val.2
        (Dlt645.dlt_645_encode ⟨fun i => UInt8.ofNat (i+1),0x11,0,fun _ => 0⟩ fun _ => 0).val.1
        ⟨fun _ => 0,0,0,fun _ => 0⟩).2 := by
  intro same
  have turned := (@parse_encoded645 defaultConfig ⟨fun i => UInt8.ofNat (i+1),0x11,0,fun _ => 0⟩
    (by decide) (fun _ => 0) ⟨fun _ => 0,0,0,fun _ => 0⟩ ⟨fun _ => 0,0,0,fun _ => 0⟩).addr 0
  rw [same.addr] at turned
  exact absurd turned (by decide)

/-! ### Q/GDW 1376.2 -/

/-- The frame that a structure is encoded as: four information bytes are passed
    over and stay what the buffer held. -/
def frame13762 (sys_addr : Fin 6 → UInt8) (f : Gdw13762.S13762Format) (frameindex : UInt8) (out : Mem) : Frame13762 where
  control := 0x41
  info := ![(0x00 : UInt8) ||| f.module_flag <<< 2,out 5,out 6,out 7,out 8,frameindex]
  source := sys_addr
  destination := f.tn_addr
  afn := f.afn
  fn := f.fn
  payload := window f.data 0 f.datalen.toNat

/-- The bytes from the control byte to the function number. -/
def fields (x : Frame13762) : List UInt8 :=
  x.control :: (List.ofFn x.info ++ (x.addresses ++ [x.afn,x.fn.toUInt8,(x.fn >>> 8).toUInt8]))

theorem covered_fields (x : Frame13762) : x.covered = fields x ++ x.payload := by
  simp [Frame13762.covered,fields]

theorem flag_sent {flag : UInt8} (bit : flag = 0 ∨ flag = 1) :
    decide (((0x00 : UInt8) ||| flag <<< 2) &&& 0x04 ≠ 0) = decide (flag ≠ 0) := by
  rcases bit with rfl | rfl <;> decide

theorem sumLoop16_val (m : Mem) (a b : Nat) : (Gdw13762.sumLoop16 m a b).val.toUInt8 = (window m a (b-a)).sum := by
  refine forLoop_induct (P := fun k (cs : UInt16) => cs.toUInt8 = (window m a k).sum) (b-a) (by simp) ?_
  rintro i _ cs same
  simp [window_succ,← same]

section
variable (sys_addr : Fin 6 → UInt8) {f : Gdw13762.S13762Format} (bit : f.module_flag = 0 ∨ f.module_flag = 1)
variable (frameindex : UInt8) (out : Mem)
include bit

theorem frame13762_flag : (frame13762 sys_addr f frameindex out).module_flag = decide (f.module_flag ≠ 0) := by
  rw [← flag_sent bit]
  rfl

theorem frame13762_addresses : (frame13762 sys_addr f frameindex out).addresses =
    if f.module_flag ≠ 0 then List.ofFn sys_addr ++ List.ofFn f.tn_addr else [] := by
  rw [Frame13762.addresses,frame13762_flag sys_addr bit frameindex out]
  simp [frame13762]

theorem encode_fields_val :
    (Gdw13762.encode_fields sys_addr f frameindex out).val =
      (store out 0 ([0x68] ++ (window out 1 2 ++ fields (frame13762 sys_addr f frameindex out))),
        3+(fields (frame13762 sys_addr f frameindex out)).length) := by
  have addresses := frame13762_addresses sys_addr bit frameindex out
  have start : store (store (store (store out 0 [0x68]) 3 [0x41]) 4 [(0x00 : UInt8) ||| f.module_flag <<< 2]) 9 [frameindex] =
      store out 0 ([0x68] ++ (window out 1 2 ++
        0x41 :: List.ofFn (frame13762 sys_addr f frameindex out).info)) := by
    rw [store_passing out 0 [0x68] [0x41] 2 (b := 3) rfl,store_adjacent _ _ _ _ (b := 4) (by simp),
      store_passing _ _ _ _ 4 (b := 9) (by simp)]
    simp [window,frame13762,List.range_succ]
  simp only [Gdw13762.encode_fields,val_bind,val_ite,val_pure]
  rw [start]
  rcases bit with clear | set
  · rw [if_neg (by simp [clear]),store_adjacent _ _ _ _ (b := 10) (by simp)]
    simp only [fields,addresses,clear]
    simp [frame13762]
  · rw [if_pos (by simp [set]),store_adjacent _ _ _ _ (b := 10) (by simp),store_adjacent _ _ _ _ (b := 16) (by simp),
      store_adjacent _ _ _ _ (b := 22) (by simp)]
    simp only [fields,addresses,set]
    simp [frame13762]

theorem fields_length :
    (fields (frame13762 sys_addr f frameindex out)).length = if f.module_flag = 0 then 10 else 22 := by
  rw [fields,frame13762_addresses sys_addr bit frameindex out]
  rcases bit with clear | set
  · simp [clear]
  · simp [set]

theorem encode_wire13762 (fits : f.datalen.toNat < 1000) :
    (Gdw13762.gdw_1376_2_encode sys_addr f frameindex out).val =
      ((frame13762 sys_addr f frameindex out).wire.length,store out 0 (frame13762 sys_addr f frameindex out).wire,
        frameindex+1) := by
  have written := encode_fields_val sys_addr bit frameindex out
  have count := fields_length sys_addr bit frameindex out
  have payload : window f.data 0 f.datalen.toNat = (frame13762 sys_addr f frameindex out).payload := rfl
  have size : (frame13762 sys_addr f frameindex out).payload.length = f.datalen.toNat := window_length _ _ _
  simp only [Gdw13762.gdw_1376_2_encode,val_bind,val_pure,written,payload]
  generalize frame13762 sys_addr f frameindex out = x at count size
  have covered : x.covered.length = (fields x).length+f.datalen.toNat := by simp [covered_fields,size]
  have few : x.covered.length < 2000 := by split at count <;> omega
  have data : store (store out 0 ([0x68] ++ (window out 1 2 ++ fields x))) (3+(fields x).length) x.payload =
      store out 0 ([0x68] ++ (window out 1 2 ++ x.covered)) := by
    rw [store_adjacent _ _ _ _ (by simp; omega),covered_fields]
    simp
  have ends : u16 (((3+(fields x).length : Nat) : Int)+f.datalen.toNat) = 3+x.covered.length := u16_eq (by omega) (by omega)
  have sum : window (store out 0 ([0x68] ++ (window out 1 2 ++ x.covered))) 3 (3+x.covered.length-3) = x.covered := by
    have behind := window_split (window_split (window_store out 0 ([0x68] ++ (window out 1 2 ++ x.covered)))).2
    simpa using behind.2
  have next : u16 (((3+x.covered.length : Nat) : Int)+1) = 3+x.covered.length+1 := u16_eq (by omega) (by omega)
  have last : u16 (((3+x.covered.length+1 : Nat) : Int)+1) = x.length := by unfold u16 Frame13762.length; omega
  have check : 3+x.covered.length = 0+([0x68] ++ (window out 1 2 ++ x.covered)).length := by simp; omega
  have tail : 3+x.covered.length+1 = 0+([0x68] ++ (window out 1 2 ++ x.covered) ++ [x.covered.sum]).length := by
    simp; omega
  have whole : [0x68] ++ (window out 1 2 ++ x.covered) ++ [x.covered.sum] ++ [0x16] =
      [0x68] ++ (window out 1 2 ++ (x.covered ++ [x.covered.sum,0x16])) := by simp
  rw [data,ends,sumLoop16_val,sum,next,last,store_adjacent _ _ _ _ check,store_adjacent _ _ _ _ tail,whole,
    store_replacing out 0 [0x68] _ [UInt8.ofNat x.length,UInt8.ofNat (x.length/256)] _ (by simp) (b := 1) rfl,x.wire_length]
  rfl
end

/-- The structure decoded from what was encoded carries its fields; the address
    is the one the frame was sent from. -/
structure Recovered (sys_addr : Fin 6 → UInt8) (f g : Gdw13762.S13762Format) : Prop where
  module_flag : g.module_flag = f.module_flag
  afn : g.afn = f.afn
  fn : g.fn = f.fn
  data : ∀ i < f.datalen.toNat, g.data i = f.data i
  tn_addr : f.module_flag = 1 → g.tn_addr = sys_addr

def zeroed : Gdw13762.S13762Format := ⟨0,fun _ => 0,0,0,0,fun _ => 0⟩

/-- What the 1376.2 encoder writes, the decoder recovers. -/
theorem round_trip_1376_2 (cfg : Config) (f : Gdw13762.S13762Format) (bit : f.module_flag = 0 ∨ f.module_flag = 1)
    (fits : f.datalen.toNat ≤ cfg.trans_max_len) (sys_addr : Fin 6 → UInt8) (frameindex : UInt8) (out : Mem) :
    let encoded := (Gdw13762.gdw_1376_2_encode sys_addr f frameindex out).val
    let decoded := (Gdw13762.gdw_1376_2_decode encoded.2.1 encoded.1 zeroed).val
    decoded.1 = 0 ∧ Recovered sys_addr f decoded.2 := by
  have range := cfg.range
  have flag := frame13762_flag sys_addr bit frameindex out
  have payload : (frame13762 sys_addr f frameindex out).payload = window f.data 0 f.datalen.toNat := rfl
  have size : (frame13762 sys_addr f frameindex out).length < 65536 := by
    rw [Frame13762.length_eq,payload,window_length]
    split <;> omega
  have holds := window_store out 0 (frame13762 sys_addr f frameindex out).wire
  have cleared : zeroed.module_flag = 0 := rfl
  simp only [encode_wire13762 sys_addr bit frameindex out (by omega),decode_wire13762 holds size cleared]
  obtain ⟨module_flag,tn_addr,afn,fn,data⟩ := contents_wire13762 holds size zeroed
  refine ⟨trivial,?_,afn,fn,fun i inside => ?_,fun set => tn_addr (by simp [flag,set])⟩
  · rw [module_flag,flag]
    rcases bit with clear | set
    · simp [clear]
    · simp [set]
  · rw [payload,window_length] at data
    simpa using window_agree data inside

theorem round_trip_1376_2_slave :
    Recovered (fun i => UInt8.ofNat (i+1)) ⟨1,fun _ => 0xAA,0x13,0x0001,2,fun i => if i = 0 then 0x68 else 0x16⟩
      (Gdw13762.gdw_1376_2_decode
        (Gdw13762.gdw_1376_2_encode (fun i => UInt8.ofNat (i+1))
          ⟨1,fun _ => 0xAA,0x13,0x0001,2,fun i => if i = 0 then 0x68 else 0x16⟩ 255 fun _ => 0xFF).val.2.1
        (Gdw13762.gdw_1376_2_encode (fun i => UInt8.ofNat (i+1))
          ⟨1,fun _ => 0xAA,0x13,0x0001,2,fun i => if i = 0 then 0x68 else 0x16⟩ 255 fun _ => 0xFF).val.1
        zeroed).val.2 :=
  (round_trip_1376_2 defaultConfig ⟨1,fun _ => 0xAA,0x13,0x0001,2,fun i => if i = 0 then 0x68 else 0x16⟩ (.inr rfl)
    (by decide) (fun i => UInt8.ofNat (i+1)) 255 fun _ => 0xFF).2

end Ucm108e.RoundTrip
