import Mathlib
import Ucm108e.Flash

/-!
How `FlashWrite` of `uc_spi_flash.c` cuts data into page programs. The parts are cut
from the start of the data, whatever the place of the address in its page, so that
data that starts inside a page runs over the end of it.
-/
namespace Ucm108e.Pages
open Ucm108e.Bytes Ucm108e.Flash
set_option linter.unusedSimpArgs false

/-- A call of `FlashPageProgram`; `pData` is an offset in the data of the write. -/
structure Program where
  nAddr : Nat
  pData : Nat
  usLen : Nat
  deriving DecidableEq

/-- The calls of `FlashPageProgram` that a write makes. -/
def programs (nAddr usLen : Nat) : List Program :=
  let usPage := if usLen % 256 > 0 then usLen/256+1 else usLen/256
  (List.range usPage).map fun i =>
    let nTmp := i*256
    ⟨(nAddr+nTmp) % 2^32,nTmp,if usLen ≥ nTmp+FLASH_PAGE_SIZE then FLASH_PAGE_SIZE else usLen-nTmp⟩

/-- A call, after the `FlashEnableWr` in front of it. -/
def Program.perform (pData : Mem) (c : Chip) (p : Program) : Chip :=
  FlashPageProgram (FlashEnableWr c) p.nAddr (shift pData p.pData) p.usLen

/-- The addresses that a call programs, each with the offset of its byte. -/
def Program.bytes (p : Program) : List (Nat × Nat) := (List.range p.usLen).map fun k => (p.nAddr+k,p.pData+k)

/-- The calls cover the range and the data once and in order, and each stays in a page. -/
structure Legal (nAddr usLen : Nat) (calls : List Program) : Prop where
  covers : calls.flatMap Program.bytes = (List.range usLen).map fun k => (nAddr+k,k)
  paged : ∀ p ∈ calls, p.nAddr/FLASH_PAGE_SIZE = (p.nAddr+p.usLen-1)/FLASH_PAGE_SIZE

theorem FlashWrite_programs (c : Chip) (nAddr : Nat) (pData : Mem) (usLen : Nat) :
    FlashWrite c nAddr pData usLen = (programs nAddr usLen).foldl (Program.perform pData) c := by
  rw [programs,List.foldl_map]
  rfl

/-! ### The parts -/

theorem part_pages (usLen : Nat) : (if usLen % 256 > 0 then usLen/256+1 else usLen/256) = (usLen+255)/256 := by
  split <;> omega

/-- As long as no address wraps around, the first parts hold the first bytes. -/
theorem bytes_parts {nAddr usLen : Nat} (n : Nat) (low : nAddr+256*n < 2^32+256) (within : 256*n < usLen+256) :
    ((List.range n).flatMap fun i =>
        (⟨(nAddr+i*256) % 2^32,i*256,if usLen ≥ i*256+256 then 256 else usLen-i*256⟩ : Program).bytes)
      = (List.range (min (256*n) usLen)).map fun k => (nAddr+k,k) := by
  induction n with
  | zero => simp
  | succ n ih =>
    have size : (if usLen ≥ n*256+256 then 256 else usLen-n*256) = min (256*(n+1)) usLen-256*n := by
      split <;> omega
    have before : min (256*n) usLen = 256*n := by omega
    have whole : min (256*(n+1)) usLen = 256*n+(min (256*(n+1)) usLen-256*n) := by omega
    have address : (nAddr+n*256) % 2^32 = nAddr+256*n := by omega
    rw [List.range_succ,List.flatMap_append,List.flatMap_singleton,ih (by omega) (by omega),before,size,whole,
      List.range_add,List.map_append,List.map_map]
    simp only [Program.bytes,address,Nat.add_sub_cancel_left]
    congr 1
    refine List.map_congr_left fun k _ => ?_
    simp only [Function.comp_apply,Prod.mk.injEq]
    omega

theorem mem_programs {nAddr usLen : Nat} {p : Program} : p ∈ programs nAddr usLen
    ↔ ∃ i, i*256 < usLen ∧ p = ⟨(nAddr+i*256) % 2^32,i*256,if usLen ≥ i*256+256 then 256 else usLen-i*256⟩ := by
  rw [programs,part_pages,List.mem_map]
  constructor
  · rintro ⟨i,inside,rfl⟩
    have small := List.mem_range.mp inside
    exact ⟨i,by omega,rfl⟩
  · rintro ⟨i,small,rfl⟩
    exact ⟨i,List.mem_range.mpr (by omega),rfl⟩

/-- All parts start at the place in a page at which the first one does. -/
theorem part_place {nAddr usLen : Nat} {p : Program} (member : p ∈ programs nAddr usLen) :
    p.nAddr % 256 = nAddr % 256 ∧ p.nAddr < 2^32 ∧ 0 < p.usLen ∧ p.usLen ≤ 256 ∧ p.usLen ≤ usLen := by
  obtain ⟨i,inside,rfl⟩ := mem_programs.mp member
  simp only
  split <;> omega

theorem legal_of_fits {nAddr usLen : Nat} (low : nAddr < 2^32)
    (fits : nAddr % 256 = 0 ∧ nAddr+usLen ≤ 2^32 ∨ nAddr % 256+usLen ≤ 256) :
    Legal nAddr usLen (programs nAddr usLen) where
  covers := by
    have parts := @bytes_parts nAddr usLen ((usLen+255)/256) (by omega) (by omega)
    rw [show min (256*((usLen+255)/256)) usLen = usLen by omega] at parts
    rw [programs,part_pages,List.flatMap_map]
    exact parts
  paged := by
    intro p member
    obtain ⟨place,-,some_bytes,page,all⟩ := part_place member
    rw [FLASH_PAGE_SIZE]
    omega

theorem fits_of_legal {nAddr usLen : Nat} (low : nAddr < 2^32) (legal : Legal nAddr usLen (programs nAddr usLen)) :
    nAddr % 256 = 0 ∧ nAddr+usLen ≤ 2^32 ∨ nAddr % 256+usLen ≤ 256 := by
  by_contra misfit
  have some_bytes : 0 < usLen := by omega
  -- the first part is the longest one, so that only an aligned one may be a page
  have first := legal.paged _ (mem_programs.mpr ⟨0,by omega,rfl⟩)
  simp only [FLASH_PAGE_SIZE,Nat.zero_mul,Nat.add_zero,Nat.zero_add,Nat.mod_eq_of_lt low] at first
  have aligned : nAddr % 256 = 0 := by
    split at first <;> omega
  have last : (nAddr+(usLen-1),usLen-1) ∈ (programs nAddr usLen).flatMap Program.bytes := by
    rw [legal.covers]
    exact List.mem_map.mpr ⟨usLen-1,List.mem_range.mpr (by omega),rfl⟩
  obtain ⟨p,member,inside⟩ := List.mem_flatMap.mp last
  obtain ⟨k,small,at_last⟩ := List.mem_map.mp inside
  obtain ⟨place,bound,-,page,-⟩ := part_place member
  have same := congrArg Prod.fst at_last
  have within := List.mem_range.mp small
  simp only at same
  omega

/-- A write makes its calls of `FlashPageProgram` one after another, each behind a
    `FlashEnableWr`. They cover its range in order without leaving a page exactly
    when the write starts at the start of a page and ends in the address space, or
    lies within one page. -/
theorem page_programs_iff (nAddr : UInt32) (usLen : UInt16) :
    (∀ c pData, FlashWrite c nAddr.toNat pData usLen.toNat
        = (programs nAddr.toNat usLen.toNat).foldl (Program.perform pData) c)
      ∧ (Legal nAddr.toNat usLen.toNat (programs nAddr.toNat usLen.toNat)
        ↔ nAddr.toNat % 256 = 0 ∧ nAddr.toNat+usLen.toNat ≤ 2^32 ∨ nAddr.toNat % 256+usLen.toNat ≤ 256) := by
  refine ⟨fun c pData => FlashWrite_programs c _ pData _,?_⟩
  exact ⟨fits_of_legal nAddr.toNat_lt,legal_of_fits nAddr.toNat_lt⟩

/-- Two bytes at the end of a page are programmed with one call. -/
theorem page_crossed : programs 255 2 = [⟨255,0,2⟩] ∧ ¬Legal 255 2 (programs 255 2) := by
  refine ⟨by decide,fun legal => ?_⟩
  have inside := legal.paged ⟨255,0,2⟩ (by decide)
  revert inside
  decide

end Ucm108e.Pages
