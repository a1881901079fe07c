import Mathlib
import Ucm108e.Bytes
import Ucm108e.Loops

/-!
`FlashCrc` of `uc_spi_flash.c`, the exclusive or of a buffer. Its index is signed and
has 16 bits like the length, so that it never reaches a length of 32768 or more: it
turns negative, and the loop goes on in front of the buffer.
-/
namespace Ucm108e.Checksum
open Ucm108e.Bytes Ucm108e.Loops
set_option linter.unusedSimpArgs false

/-- The variables of `FlashCrc`, and the offsets from `pData` that were read. -/
structure Crc where
  i : Int
  ucRes : UInt8
  read : List Int

def more (usLen : UInt16) (s : Crc) : Bool := s.i < usLen.toNat

/-- One turn of the loop; `pData` leads to the bytes on both sides of it. -/
def turn (pData : Int → UInt8) (s : Crc) : Crc := ⟨i16 (s.i+1),s.ucRes ^^^ pData s.i,s.read ++ [s.i]⟩

/-- `FlashCrc`: what it returns, and what it has read. -/
def FlashCrc (turns : Nat) (pData : Int → UInt8) (usLen : UInt16) : Option (UInt8 × List Int) :=
  (run (more usLen) (turn pData) turns ⟨0,0,[]⟩).map fun s => (s.ucRes,s.read)

/-- The exclusive or of the first `n` bytes. -/
def xorSum (pData : Int → UInt8) (n : Nat) : UInt8 := ((List.range n).map fun k : Nat => pData k).foldl (· ^^^ ·) 0

theorem xorSum_succ (pData : Int → UInt8) (n : Nat) : xorSum pData (n+1) = xorSum pData n ^^^ pData n := by
  simp [xorSum,List.range_succ]

/-- The state after `k` turns over a short buffer. -/
def scanned (pData : Int → UInt8) (k : Nat) : Crc := ⟨k,xorSum pData k,(List.range k).map Int.ofNat⟩

theorem turn_scanned (pData : Int → UInt8) {k : Nat} (short : k < 32767) :
    turn pData (scanned pData k) = scanned pData (k+1) := by
  have next : i16 ((k : Int)+1) = (k+1 : Nat) := by
    unfold i16
    omega
  simp only [turn,scanned,next,xorSum_succ,List.range_succ,List.map_append]
  rfl

theorem crc_short (pData : Int → UInt8) {usLen : UInt16} (short : usLen.toNat ≤ 32767) :
    FlashCrc usLen.toNat pData usLen = some (xorSum pData usLen.toNat,(List.range usLen.toNat).map Int.ofNat) := by
  have pass : ∀ k s, s = scanned pData k ∧ k ≤ usLen.toNat → more usLen s = true →
      turn pData s = scanned pData (k+1) ∧ k+1 ≤ usLen.toNat := by
    rintro k s ⟨rfl,-⟩ again
    have before : k < usLen.toNat := by simpa [more,scanned] using again
    exact ⟨turn_scanned pData (by omega),before⟩
  obtain ⟨k,-,⟨state,inside⟩,all⟩ := after_counted pass usLen.toNat (i := 0) ⟨rfl,Nat.zero_le _⟩
  rw [Nat.zero_add] at state inside
  have whole : k = usLen.toNat := by
    by_contra part
    refine part (all ?_)
    have before := Nat.lt_of_le_of_ne inside part
    rw [state]
    simpa [more,scanned] using before
  rw [whole] at state
  have ended : more usLen (scanned pData usLen.toNat) = false := by simp [more,scanned]
  have start : (⟨0,0,[]⟩ : Crc) = scanned pData 0 := rfl
  rw [FlashCrc,start,run_eq_some.mpr ⟨state,ended⟩]
  rfl

/-- The index stays below a length that does not fit it. -/
theorem crc_endless (pData : Int → UInt8) {usLen : UInt16} (long : 32767 < usLen.toNat) (turns : Nat) :
    FlashCrc turns pData usLen = none := by
  have below : ∀ x, i16 x ≤ 32767 := by
    intro x
    unfold i16
    split <;> omega
  rw [FlashCrc,run_endless (I := fun s : Crc => s.i ≤ 32767) ?_ ?_ ?_ turns]
  · rfl
  · intro s index
    simp only [more,decide_eq_true_eq]
    omega
  · exact fun s _ => below _
  · decide

/-- `FlashCrc` comes to its end with the exclusive or of the buffer, and reads the
    buffer alone and once, exactly when the buffer has at most 32767 bytes. -/
theorem crc_whole_iff (pData : Int → UInt8) (usLen : UInt16) :
    (∃ turns, FlashCrc turns pData usLen
        = some (xorSum pData usLen.toNat,(List.range usLen.toNat).map Int.ofNat))
      ↔ usLen.toNat ≤ 32767 := by
  constructor
  · rintro ⟨turns,ends⟩
    by_contra long
    rw [crc_endless pData (by omega)] at ends
    cases ends
  · exact fun short => ⟨usLen.toNat,crc_short pData short⟩

/-- With 32768 bytes the loop does not end. -/
theorem crc_half : ¬ ∃ turns result, FlashCrc turns (fun _ => 0) 32768 = some result := by
  rintro ⟨turns,result,ends⟩
  rw [crc_endless (fun _ => 0) (by decide)] at ends
  cases ends

end Ucm108e.Checksum
