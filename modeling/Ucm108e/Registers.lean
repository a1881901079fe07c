import Mathlib
import Ucm108e.Words

/-!
Fields of a register: the bits from `L` to `H` of a word, read and replaced with
masks. A field that is replaced is read back, and the others stay.
-/
namespace Ucm108e.Registers
open Ucm108e.Words

def BIT (x : Nat) : Word := 1#32 <<< x

def MASK (H L : Nat) : Word := (~~~((0xffffffff#32 <<< H) <<< 1)) &&& (0xffffffff#32 <<< L)

/-- The value of a field. -/
def field (H L : Nat) (reg : Word) : Word := (reg &&& MASK H L) >>> L

/-- The register with a field replaced by the low bits of a value. -/
def setField (H L : Nat) (code reg : Word) : Word := (reg &&& ~~~MASK H L) ||| ((code <<< L) &&& MASK H L)

theorem MASK_bit (H L : Nat) {i : Nat} (small : i < 32) : (MASK H L).getLsbD i = decide (L ≤ i ∧ i ≤ H) := by
  have ones : 0xffffffff#32 = BitVec.allOnes 32 := rfl
  simp only [MASK,ones,BitVec.getLsbD_and,BitVec.getLsbD_not,BitVec.getLsbD_shiftLeft,BitVec.getLsbD_allOnes,small,
    decide_true,Bool.true_and]
  by_cases low : L ≤ i <;> by_cases high : i ≤ H
  · simp [low,high]
    omega
  · simp [low,high]
    omega
  · simp [low]
  · simp [low]

theorem field_bit (H L : Nat) (reg : Word) (i : Nat) :
    (field H L reg).getLsbD i = (decide (L+i ≤ H ∧ L+i < 32) && reg.getLsbD (L+i)) := by
  rw [field,BitVec.getLsbD_ushiftRight,BitVec.getLsbD_and]
  by_cases small : L+i < 32
  · rw [MASK_bit H L small,Bool.and_comm]
    simp [small]
  · simp [small,BitVec.getLsbD_of_ge reg (L+i) (by omega)]

theorem setField_bit (H L : Nat) (code reg : Word) {i : Nat} (small : i < 32) :
    (setField H L code reg).getLsbD i = if L ≤ i ∧ i ≤ H then code.getLsbD (i-L) else reg.getLsbD i := by
  simp only [setField,BitVec.getLsbD_or,BitVec.getLsbD_and,BitVec.getLsbD_not,BitVec.getLsbD_shiftLeft,
    MASK_bit H L small,small,decide_true,Bool.true_and]
  by_cases inside : L ≤ i ∧ i ≤ H
  · simp [inside,show ¬ i < L by omega]
  · simp [inside]

theorem high_bit {w : Word} {n i : Nat} (small : w.toNat < 2^n) (high : n ≤ i) : w.getLsbD i = false :=
  Nat.testBit_lt_two_pow (Nat.lt_of_lt_of_le small (Nat.pow_le_pow_right (by omega) high))

theorem field_setField {H L n : Nat} {code : Word} (reg : Word) (width : H+1 = L+n) (high : H < 32)
    (small : code.toNat < 2^n) : field H L (setField H L code reg) = code := by
  refine BitVec.eq_of_getLsbD_eq fun i _ => ?_
  rw [field_bit]
  by_cases inside : L+i ≤ H
  · rw [setField_bit H L code reg (by omega),if_pos (by omega),Nat.add_sub_cancel_left]
    simp [inside,show L+i < 32 by omega]
  · rw [high_bit small (show n ≤ i by omega)]
    simp [inside]

/-- Another field is not changed. -/
theorem field_setField_other {H L H' L' : Nat} (code reg : Word) (apart : H < L' ∨ H' < L) :
    field H' L' (setField H L code reg) = field H' L' reg := by
  refine BitVec.eq_of_getLsbD_eq fun i _ => ?_
  rw [field_bit,field_bit]
  by_cases inside : L'+i ≤ H' ∧ L'+i < 32
  · rw [setField_bit H L code reg inside.2,if_neg (by omega)]
  · simp only [inside,decide_false,Bool.false_and]

/-- Words that agree on the bits of a field have the same value there. -/
theorem field_congr {H L : Nat} {reg reg' : Word} (same : ∀ i, L ≤ i → i ≤ H → reg.getLsbD i = reg'.getLsbD i) :
    field H L reg = field H L reg' := by
  refine BitVec.eq_of_getLsbD_eq fun i _ => ?_
  rw [field_bit,field_bit]
  by_cases inside : L+i ≤ H ∧ L+i < 32
  · rw [same (L+i) (by omega) inside.1]
  · simp only [inside,decide_false,Bool.false_and]

theorem BIT_bit {x i : Nat} (other : i ≠ x) : (BIT x).getLsbD i = false := by
  rw [BIT,BitVec.getLsbD_shiftLeft]
  by_cases low : i < x
  · simp [low]
  · have zero : (1#32).getLsbD (i-x) = false := by
      rw [BitVec.getLsbD_one]
      simp
      omega
    simp [zero]

/-! ### Fields as numbers -/

theorem and_toNat {mask : Word} {n : Nat} (ones : mask.toNat = 2^n-1) (v : Word) : (v &&& mask).toNat = v.toNat % 2^n := by
  rw [BitVec.toNat_and,ones,Nat.and_two_pow_sub_one_eq_mod]

theorem shifted_toNat {mask : Word} {n : Nat} (ones : mask.toNat = 2^n-1) (L : Nat) (reg : Word) :
    ((reg >>> L) &&& mask).toNat = reg.toNat/2^L % 2^n := by
  rw [and_toNat ones,BitVec.toNat_ushiftRight,Nat.shiftRight_eq_div_pow]

/-- A field above the bits that are in use. -/
theorem or_shiftLeft_toNat {low v : Word} {a b L : Nat} (lowValue : low.toNat = a) (value : v.toNat = b)
    (small : a < 2^L) (fits : 2^L*b < 2^32) : (low ||| v <<< L).toNat = a+2^L*b := by
  have shifted : (v <<< L).toNat = 2^L*b := by
    rw [BitVec.toNat_shiftLeft,Nat.shiftLeft_eq,Nat.mul_comm,value,Nat.mod_eq_of_lt fits]
  rw [BitVec.toNat_or,lowValue,shifted,Nat.or_comm,← Nat.two_pow_add_eq_or_of_lt small,Nat.add_comm]

end Ucm108e.Registers
