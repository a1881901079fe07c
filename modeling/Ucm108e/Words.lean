import Mathlib
import Ucm108e.Bytes

/-!
Words of 32 bits and their four bytes, the least significant one first: what a
pointer to a word of a little-endian machine leads to.
-/
namespace Ucm108e.Words
open Ucm108e.Bytes

abbrev Word := BitVec 32

/-- The bytes of a word, by offset. -/
def byte (w : Word) : Mem := fun k => UInt8.ofBitVec (w.extractLsb' (8*k) 8)

/-- The word that lies in the first four bytes of a memory. -/
def ofBytes (m : Mem) : Word := (m 3).toBitVec ++ (m 2).toBitVec ++ (m 1).toBitVec ++ (m 0).toBitVec

theorem byte_getLsbD (w : Word) (k i : Nat) :
    (byte w k).toBitVec.getLsbD i = (decide (i < 8) && w.getLsbD (8*k+i)) := by
  simp [byte]

theorem byte_ext {b c : UInt8} (same : ∀ i < 8, b.toBitVec.getLsbD i = c.toBitVec.getLsbD i) : b = c :=
  UInt8.toBitVec_inj.mp (BitVec.eq_of_getLsbD_eq same)

@[simp] theorem byte_ofBytes (m : Mem) {k : Nat} (inside : k < 4) : byte (ofBytes m) k = m k := by
  refine byte_ext fun i small => ?_
  rw [byte_getLsbD]
  simp only [ofBytes,BitVec.getLsbD_append,small,decide_true,Bool.true_and]
  obtain rfl | rfl | rfl | rfl : k = 0 ∨ k = 1 ∨ k = 2 ∨ k = 3 := by omega
  · simp [small]
  · simp [show ¬ 8+i < 8 by omega,small]
  · simp [show ¬ 16+i < 8 by omega,show ¬ 16+i-8 < 8 by omega,show 16+i-8-8 = i by omega,small]
  · simp [show ¬ 24+i < 8 by omega,show ¬ 24+i-8 < 8 by omega,show ¬ 24+i-8-8 < 8 by omega,
      show 24+i-8-8-8 = i by omega]

/-- A word is told by its four bytes. -/
theorem word_ext {w v : Word} (same : ∀ k < 4, byte w k = byte v k) : w = v := by
  refine BitVec.eq_of_getLsbD_eq fun i small => ?_
  have bit := congrArg (fun b => b.toBitVec.getLsbD (i%8)) (same (i/8) (by omega))
  simp only [byte_getLsbD,Nat.div_add_mod,show i%8 < 8 by omega,decide_true,Bool.true_and] at bit
  exact bit

@[simp] theorem ofBytes_byte (w : Word) : ofBytes (byte w) = w := word_ext fun _ inside => byte_ofBytes _ inside

theorem ofBytes_congr {m m' : Mem} (same : ∀ k < 4, m k = m' k) : ofBytes m = ofBytes m' :=
  word_ext fun k inside => by rw [byte_ofBytes m inside,byte_ofBytes m' inside,same k inside]

/-! ### Numbers in memory -/

def load16 (m : Mem) (a : Nat) : UInt16 := le16 (m a) (m (a+1))
def load32 (m : Mem) (a : Nat) : Nat := (ofBytes (shift m a)).toNat

/-- The bytes of a number as it lies in memory. -/
def bytes16 (x : UInt16) : List UInt8 := [x.toUInt8,(x >>> 8).toUInt8]
def bytes32 (n : Nat) : List UInt8 := window (byte (BitVec.ofNat 32 n)) 0 4

@[simp] theorem bytes16_length (x : UInt16) : (bytes16 x).length = 2 := rfl
@[simp] theorem bytes32_length (n : Nat) : (bytes32 n).length = 4 := rfl

theorem load16_of_window {m : Mem} {a : Nat} {x : UInt16} (there : window m a 2 = bytes16 x) : load16 m a = x := by
  have low := window_byte there (i := 0) (by omega)
  have high := window_byte there (i := 1) (by omega)
  rw [load16,← Nat.add_zero a,low,Nat.add_zero,high]
  exact le16_split x

theorem load32_of_window {m : Mem} {a n : Nat} (there : window m a 4 = bytes32 n) (fits : n < 2^32) :
    load32 m a = n := by
  have same : ofBytes (shift m a) = BitVec.ofNat 32 n := by
    rw [← ofBytes_byte (BitVec.ofNat 32 n)]
    refine ofBytes_congr fun k inside => ?_
    rw [shift_apply,window_byte there inside,bytes32,← window_byte rfl inside,Nat.zero_add]
  rw [load32,same,BitVec.toNat_ofNat,Nat.mod_eq_of_lt fits]

theorem load16_congr {m m' : Mem} {a : Nat} (same : window m a 2 = window m' a 2) : load16 m a = load16 m' a := by
  rw [load16,load16,← Nat.add_zero a,window_agree same (i := 0) (by omega),Nat.add_zero,
    window_agree same (i := 1) (by omega)]

theorem load32_congr {m m' : Mem} {a : Nat} (same : window m a 4 = window m' a 4) : load32 m a = load32 m' a :=
  congrArg BitVec.toNat (ofBytes_congr fun _ inside => window_agree same inside)

end Ucm108e.Words
