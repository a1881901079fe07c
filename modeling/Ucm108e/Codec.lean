import Ucm108e.Access
import Ucm108e.Packer

/-!
What the two protocols' receive functions have in common: the search for the
end of the preamble, and `parse_frame`, which decodes a packed frame into a
fresh block and copies the block to the caller when the decoder is content.
-/
namespace Ucm108e.Codec
open Ucm108e.Bytes Ucm108e.Access Ucm108e.Packer

/-- The two memories a codec works on: what `in` and `out` point to. -/
inductive Buf where
  | inp
  | out
  deriving DecidableEq, Repr

def sizes (inlen outlen : Nat) : Buf → Nat
  | .inp => inlen
  | .out => outlen

@[simp] theorem sizes_inp (inlen outlen : Nat) : sizes inlen outlen .inp = inlen := rfl
@[simp] theorem sizes_out (inlen outlen : Nat) : sizes inlen outlen .out = outlen := rfl

/-- The loop of both `precode_detect` functions, from index `i` with `left`
    indices to go: behind four preamble bytes, or at a head byte. -/
def precodeScan (inp : Mem) : Nat → Nat → Option Nat
  | 0, _ => none
  | left+1, i =>
    if inp i = 0xFE ∧ inp (i+1) = 0xFE ∧ inp (i+2) = 0xFE ∧ inp (i+3) = 0xFE then some (i+4)
    else if inp i = 0x68 then some i
    else precodeScan inp left (i+1)

/-- Preamble bytes in front of a head byte are skipped: four at once, fewer one
    by one. -/
theorem precodeScan_preamble {inp : Mem} {k i : Nat} (few : k ≤ 4) (preamble : ∀ j < k, inp (i+j) = 0xFE)
    (head : inp (i+k) = 0x68) {left : Nat} (enough : k < left) : precodeScan inp left i = some (i+k) := by
  induction k generalizing i left with
  | zero =>
    obtain ⟨left,rfl⟩ : ∃ l, left = l+1 := ⟨left-1,by omega⟩
    simp only [Nat.add_zero] at head
    simp [precodeScan,head]
  | succ k ih =>
    obtain ⟨left,rfl⟩ : ∃ l, left = l+1 := ⟨left-1,by omega⟩
    have first : inp i = 0xFE := by simpa using preamble 0 (by omega)
    rw [precodeScan]
    rcases Nat.lt_or_eq_of_le few with three | four
    · -- The head byte stands among the next three, so this is no full preamble.
      have broken : ¬ (inp i = 0xFE ∧ inp (i+1) = 0xFE ∧ inp (i+2) = 0xFE ∧ inp (i+3) = 0xFE) := by
        rintro ⟨_,b1,b2,b3⟩
        have cases : k = 0 ∨ k = 1 ∨ k = 2 := by omega
        rcases cases with rfl | rfl | rfl <;> simp_all
      rw [if_neg broken,if_neg (by rw [first]; decide),
        ih (i := i+1) (by omega) (fun j lt => by rw [Nat.add_right_comm]; exact preamble (j+1) (by omega))
          (by rw [← head]; congr 1; omega) (by omega)]
      congr 1
      omega
    · have full : inp i = 0xFE ∧ inp (i+1) = 0xFE ∧ inp (i+2) = 0xFE ∧ inp (i+3) = 0xFE :=
        ⟨first,preamble 1 (by omega),preamble 2 (by omega),preamble 3 (by omega)⟩
      rw [if_pos full]
      congr 1
      omega

theorem precodeScan_le {inp : Mem} {left i location : Nat} (found : precodeScan inp left i = some location) :
    location < i+left+4 := by
  induction left generalizing i with
  | zero => cases found
  | succ left ih =>
    rw [precodeScan] at found
    split_ifs at found
    · cases found; omega
    · cases found; omega
    · have := ih found
      omega

/-- A protocol: how it finds the frame, how it decodes one into a structure of
    type `F`, and what clearing and copying `ELEC_DEV_TRANS_MAX_LEN` bytes means
    for such a structure. -/
structure Protocol (F : Type) where
  precode_detect : Mem → Nat → Int
  decode : Mem → Nat → F → Traced Buf (Int × F)
  memset : F → F
  memcpy : F → F → F

variable {F : Type}

/-- The decoder call that `parse_frame` makes for the block that `rt_malloc`
    returned, if it makes one. -/
def decodeCall (k : Protocol F) (block : F) (parsebuf : Mem) (parselen : Nat) : Option (Nat × Traced Buf (Int × F)) :=
  let precode_location := k.precode_detect parsebuf parselen
  if precode_location ≥ 0 then
    let inlen := u16 (parselen-precode_location)
    some (inlen,k.decode (shift parsebuf precode_location.toNat) inlen (k.memset block))
  else none

/-- `decode_ret` and the block, once the decoder has returned. -/
def decoded (k : Protocol F) (block : F) (parsebuf : Mem) (parselen : Nat) : Int × F :=
  match decodeCall k block parsebuf parselen with
  | some (_,call) => call.val
  | none => (-1,k.memset block)

/-- Both `parse_frame` functions: the return value, and what `outbuf` holds
    then. `heap` is what `rt_malloc` returns, a block of any contents or none. -/
def parseFrame (k : Protocol F) (heap : Option F) (parsebuf : Mem) (parselen : Nat) (outbuf : F) : Int × F :=
  match heap with
  | some block =>
    let (decode_ret,plcdata) := decoded k block parsebuf parselen
    if decode_ret = 0 then (0,k.memcpy outbuf plcdata) else (0,outbuf)
  | none => (-1,outbuf)

/-- With a block, `parse_frame` returns 0 whatever the decoder has returned. -/
theorem parseFrame_some (k : Protocol F) (block : F) (parsebuf : Mem) (parselen : Nat) (outbuf : F) :
    parseFrame k (some block) parsebuf parselen outbuf =
      (0,if (decoded k block parsebuf parselen).1 = 0 then k.memcpy outbuf (decoded k block parsebuf parselen).2
        else outbuf) := by
  simp only [parseFrame]
  split <;> simp_all

theorem parseFrame_ok (k : Protocol F) (block : F) {parsebuf : Mem} {parselen : Nat} (outbuf : F) {plcdata : F}
    (ok : decoded k block parsebuf parselen = (0,plcdata)) :
    parseFrame k (some block) parsebuf parselen outbuf = (0,k.memcpy outbuf plcdata) := by
  simp [parseFrame_some,ok]

end Ucm108e.Codec
