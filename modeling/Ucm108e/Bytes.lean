import Mathlib

/-!
Bytes in memory as C sees them: a pointer gives the byte at every offset, a
copy replaces a range, and integers are cut to the width of the variable they
are assigned to.
-/
namespace Ucm108e.Bytes

/-- The bytes a pointer leads to, by offset. -/
abbrev Mem := Nat → UInt8

/-- The `n` bytes from offset `a` on. -/
def window (m : Mem) (a n : Nat) : List UInt8 := (List.range n).map fun i => m (a+i)

/-- The memory after `bs` is copied to offset `a`. -/
def store (m : Mem) (a : Nat) (bs : List UInt8) : Mem :=
  fun i => if a ≤ i then (bs[i-a]?).getD (m i) else m i

/-- The memory as a pointer moved by `a` sees it. -/
def shift (m : Mem) (a : Nat) : Mem := fun i => m (a+i)

@[simp] theorem shift_apply (m : Mem) (a i : Nat) : shift m a i = m (a+i) := rfl
@[simp] theorem shift_zero (m : Mem) : shift m 0 = m := by funext i; simp
@[simp] theorem window_length (m : Mem) (a n : Nat) : (window m a n).length = n := by simp [window]
@[simp] theorem window_zero (m : Mem) (a : Nat) : window m a 0 = [] := rfl

theorem window_getElem (m : Mem) (a n i : Nat) (inside : i < (window m a n).length) : (window m a n)[i] = m (a+i) := by
  simp [window]

theorem window_succ (m : Mem) (a n : Nat) : window m a (n+1) = window m a n ++ [m (a+n)] := by
  simp [window,List.range_succ]

theorem window_add (m : Mem) (a n k : Nat) : window m a (n+k) = window m a n ++ window m (a+n) k := by
  induction k with
  | zero => simp
  | succ k ih => rw [← Nat.add_assoc,window_succ,ih,window_succ,List.append_assoc,Nat.add_assoc]

theorem window_shift (m : Mem) (a b n : Nat) : window (shift m a) b n = window m (a+b) n := by
  simp [window,Nat.add_assoc]

theorem window_congr {m m' : Mem} {a n : Nat} (same : ∀ i < n, m (a+i) = m' (a+i)) : window m a n = window m' a n :=
  List.map_congr_left fun i inside => same i (List.mem_range.mp inside)

theorem window_eq_iff (m : Mem) (a : Nat) (bs : List UInt8) :
    window m a bs.length = bs ↔ ∀ i (inside : i < bs.length), m (a+i) = bs[i] := by
  constructor
  · intro same i inside
    have := List.getElem_of_eq same (i := i) (by simpa using inside)
    rwa [window_getElem] at this
  · intro all
    apply List.ext_getElem (by simp)
    intro i _ inside
    rw [window_getElem,all i inside]

theorem window_byte {m : Mem} {a n : Nat} {bs : List UInt8} (same : window m a n = bs) {i : Nat} (inside : i < n) :
    m (a+i) = bs.getD i 0 := by
  subst same
  rw [List.getD_eq_getElem _ _ (by simpa using inside),window_getElem]

theorem window_agree {m m' : Mem} {a n : Nat} (same : window m a n = window m' a n) {i : Nat} (inside : i < n) :
    m (a+i) = m' (a+i) :=
  (window_byte same inside).trans (window_byte rfl inside).symm

theorem store_below {m : Mem} {a i : Nat} (bs : List UInt8) (below : i < a) : store m a bs i = m i := by
  simp [store,Nat.not_le.mpr below]

theorem store_at (m : Mem) (a : Nat) {bs : List UInt8} {i : Nat} (inside : i < bs.length) :
    store m a bs (a+i) = bs[i] := by
  simp [store,List.getElem?_eq_getElem inside]

@[simp] theorem store_nil (m : Mem) (a : Nat) : store m a [] = m := by
  funext i
  simp [store]

theorem window_store_below (m : Mem) {a b n : Nat} (bs : List UInt8) (below : b+n ≤ a) :
    window (store m a bs) b n = window m b n := by
  apply List.ext_getElem (by simp)
  intro i inside _
  rw [window_getElem,window_getElem,store_below bs (by simp at inside; omega)]

theorem window_store_grow (m : Mem) (a n : Nat) (bs : List UInt8) :
    window (store m (a+n) bs) a (n+bs.length) = window m a n ++ bs := by
  rw [window_add,window_store_below m bs (Nat.le_refl _)]
  congr 1
  exact (window_eq_iff _ _ _).mpr (fun i inside => store_at m (a+n) inside)

theorem store_apply (m : Mem) (a : Nat) (bs : List UInt8) (i : Nat) :
    store m a bs i = if a ≤ i then (bs[i-a]?).getD (m i) else m i := rfl

theorem window_store (m : Mem) (a : Nat) (bs : List UInt8) : window (store m a bs) a bs.length = bs :=
  (window_eq_iff _ _ _).mpr fun _ inside => store_at m a inside

theorem store_adjacent (m : Mem) (a : Nat) (bs cs : List UInt8) {b : Nat} (next : b = a+bs.length) :
    store (store m a bs) b cs = store m a (bs ++ cs) := by
  subst next
  funext i
  simp only [store_apply]
  rcases Nat.lt_or_ge i a with below | above
  · rw [if_neg (by omega),if_neg (by omega),if_neg (by omega)]
  · rw [if_pos above,if_pos above]
    rcases Nat.lt_or_ge i (a+bs.length) with inside | behind
    · rw [if_neg (by omega),List.getElem?_append_left (by omega)]
    · rw [if_pos behind,List.getElem?_append_right (by omega),List.getElem?_eq_none (l := bs) (by omega),Nat.sub_sub]
      rfl

theorem store_behind {m : Mem} {a i : Nat} {bs : List UInt8} (behind : a+bs.length ≤ i) : store m a bs i = m i := by
  rw [store_apply,if_pos (by omega),List.getElem?_eq_none (by omega)]
  rfl

theorem store_window (m : Mem) (a n : Nat) : store m a (window m a n) = m := by
  funext i
  rcases Nat.lt_or_ge i a with below | above
  · exact store_below _ below
  · rcases Nat.lt_or_ge i (a+n) with inside | behind
    · obtain ⟨j,rfl⟩ := Nat.exists_eq_add_of_le above
      rw [store_at m a (by simp; omega),window_getElem]
    · exact store_behind (by simpa using behind)

theorem window_take (m : Mem) (a : Nat) {n k : Nat} (short : k ≤ n) : (window m a n).take k = window m a k := by
  obtain ⟨rest,rfl⟩ := Nat.exists_eq_add_of_le short
  rw [window_add,List.take_left' (window_length m a k)]

theorem window_take_min (m : Mem) (a n k : Nat) : (window m a n).take k = window m a (min k n) := by
  simp [window,← List.map_take,List.take_range]

/-- A copy of other bytes. -/
theorem window_copy (m : Mem) (a b : Nat) {n k : Nat} (short : k ≤ n) :
    window (store m b (window m a n)) b k = window m a k := by
  have all : window (store m b (window m a n)) b n = window m a n := by
    simpa using window_store m b (window m a n)
  rw [← window_take _ b short,all,window_take m a short]

/-- Windows of equal size one behind the other. -/
theorem window_flatMap (f : Nat → Mem) {size : Nat} (some_size : 0 < size) (n : Nat) :
    (List.range n).flatMap (fun i => window (f i) 0 size) = window (fun j => f (j/size) (j % size)) 0 (size*n) := by
  induction n with
  | zero => rfl
  | succ n ih =>
    have last : window (fun j => f (j/size) (j % size)) (0+size*n) size = window (f n) 0 size := by
      simp only [window,Nat.zero_add]
      refine List.map_congr_left fun i inside => ?_
      have small := List.mem_range.mp inside
      rw [Nat.mul_add_div some_size,Nat.div_eq_of_lt small,Nat.add_zero,Nat.mul_add_mod,Nat.mod_eq_of_lt small]
    rw [List.range_succ,List.flatMap_append,List.flatMap_singleton,ih,Nat.mul_succ,window_add,last]

/-- Bytes stored one after the other. -/
theorem store_range (m f : Mem) (a n : Nat) :
    (List.range n).foldl (fun m i => store m (a+i) [f i]) m = store m a (window f 0 n) := by
  induction n with
  | zero => simp
  | succ n ih =>
    rw [List.range_succ,List.foldl_append,ih,List.foldl_cons,List.foldl_nil,window_succ,Nat.zero_add]
    exact store_adjacent m a _ _ (by simp)

/-- Bytes that are passed over are stored as they were. -/
theorem store_passing (m : Mem) (a : Nat) (bs cs : List UInt8) (n : Nat) {b : Nat} (next : b = a+bs.length+n) :
    store (store m a bs) b cs = store m a (bs ++ (window m (a+bs.length) n ++ cs)) := by
  have unchanged : window (store m a bs) (a+bs.length) n = window m (a+bs.length) n :=
    window_congr fun i _ => store_behind (by omega)
  have same : store m a bs = store m a (bs ++ window m (a+bs.length) n) := by
    rw [← store_adjacent m a bs _ rfl,← unchanged,store_window]
  rw [same,store_adjacent m a _ cs (by simpa [Nat.add_assoc] using next),List.append_assoc]

/-- Bytes stored over others of the same number replace them. -/
theorem store_replacing (m : Mem) (a : Nat) (bs old new cs : List UInt8) (size : new.length = old.length) {b : Nat}
    (next : b = a+bs.length) : store (store m a (bs ++ (old ++ cs))) b new = store m a (bs ++ (new ++ cs)) := by
  rw [← store_adjacent m a bs (old ++ cs) rfl,← store_adjacent m a bs (new ++ cs) rfl,next]
  generalize store m a bs = m
  generalize a+bs.length = a
  rw [← store_adjacent m a new cs rfl,← store_adjacent m a old cs rfl]
  funext i
  rcases Nat.lt_or_ge i a with below | above
  · rw [store_below _ below,store_below _ (by omega),store_below _ below,store_below _ (by omega),store_below _ below]
  · rcases Nat.lt_or_ge i (a+new.length) with inside | behind
    · obtain ⟨j,rfl⟩ := Nat.exists_eq_add_of_le above
      rw [store_at _ a (by omega),store_below _ inside,store_at _ a (by omega)]
    · have before : store m a old i = m i := store_behind (by omega)
      have after : store m a new i = m i := store_behind behind
      rw [store_behind behind,size,store_apply (store m a old),store_apply (store m a new),before,after]

/-- Bytes stored inside a window. -/
theorem window_store_inside (m : Mem) (a n at_ : Nat) (bs : List UInt8) (inside : at_+bs.length ≤ n) :
    window (store m (a+at_) bs) a n = (window m a n).take at_ ++ bs ++ (window m a n).drop (at_+bs.length) := by
  obtain ⟨rest,rfl⟩ := Nat.exists_eq_add_of_le inside
  have behind : window (store m (a+at_) bs) (a+(at_+bs.length)) rest = window m (a+(at_+bs.length)) rest :=
    window_congr fun i _ => store_behind (by omega)
  have length : (window m a (at_+bs.length)).length = at_+bs.length := window_length ..
  rw [window_add,behind,window_store_grow,window_take m a (by omega),window_add m a (at_+bs.length) rest,
    List.drop_left' length]

/-- A checksum of bytes is their sum, cut to a byte. -/
theorem sum_toNat (bs : List UInt8) : bs.sum.toNat = (bs.map UInt8.toNat).sum % 256 := by
  induction bs with
  | nil => rfl
  | cons b bs ih =>
    rw [List.sum_cons,UInt8.toNat_add,ih,List.map_cons,List.sum_cons]
    omega

/-! ### Integers of a fixed width -/

/-- An integer assigned to an unsigned 16-bit variable. -/
def u16 (x : Int) : Nat := (x % 65536).toNat

def u8 (x : Int) : Nat := (x % 256).toNat

/-- An integer assigned to a signed 16-bit variable. -/
def i16 (x : Int) : Int := if x % 65536 < 32768 then x % 65536 else x % 65536 - 65536

theorem u16_eq {x : Int} {n : Nat} (value : x = n) (small : n < 65536) : u16 x = n := by
  unfold u16
  omega

theorem u8_eq {x : Int} {n : Nat} (value : x = n) (small : n < 256) : u8 x = n := by
  unfold u8
  omega

/-- An integer assigned to an unsigned 32-bit variable. -/
def u32 (x : Int) : Nat := (x % 4294967296).toNat

def i32 (x : Int) : Int := if x % 4294967296 < 2147483648 then x % 4294967296 else x % 4294967296 - 4294967296

theorem u32_eq {x : Int} {n : Nat} (value : x = n) (small : n < 4294967296) : u32 x = n := by
  unfold u32
  omega

theorem i32_eq {x : Int} {n : Nat} (value : x = n) (small : n < 2147483648) : i32 x = n := by
  unfold i32
  omega

theorem i32_mod (x : Int) : i32 x % 4294967296 = x % 4294967296 := by
  unfold i32
  split <;> omega

/-- A value that does not fit a signed variable comes out negative, and as itself again
    from an unsigned one. -/
theorem i32_wrapped {x : Int} {n : Nat} (same : x % 4294967296 = n) (large : 2147483648 ≤ n) :
    i32 x = n-4294967296 := by
  unfold i32
  omega

theorem u32_wrapped {n : Nat} (fits : n < 4294967296) : u32 ((n : Int)-4294967296) = n := by
  unfold u32
  omega

theorem u16_lt (x : Int) : u16 x < 65536 := by unfold u16; omega

/-- `high << 8 | low` as an unsigned 16-bit value. -/
def le16 (low high : UInt8) : UInt16 := (high.toUInt16 <<< 8) ||| low.toUInt16

theorem le16_toNat (low high : UInt8) : (le16 low high).toNat = low.toNat + 256*high.toNat := by
  have lowSmall := low.toNat_lt
  have highSmall := high.toNat_lt
  have fits : high.toNat*256 % 65536 = high.toNat*256 := by omega
  have apart : high.toNat*256 ||| low.toNat = high.toNat*256 + low.toNat := by
    have or_add := Nat.shiftLeft_add_eq_or_of_lt (i := 8) lowSmall high.toNat
    rw [Nat.shiftLeft_eq] at or_add
    exact or_add.symm
  have value : (le16 low high).toNat = high.toNat*256 % 65536 ||| low.toNat := by simp [le16,Nat.shiftLeft_eq]
  rw [value,fits,apart]
  omega

theorem le16_bytes (n : Nat) (small : n < 65536) : (le16 (UInt8.ofNat n) (UInt8.ofNat (n/256))).toNat = n := by
  rw [le16_toNat]
  simp
  omega

theorem le16_split (x : UInt16) : le16 x.toUInt8 (x >>> 8).toUInt8 = x := by
  apply UInt16.toNat_inj.mp
  have wide := x.toNat_lt
  have shifted : (x >>> 8).toNat = x.toNat/256 := by simp [Nat.shiftRight_eq_div_pow]
  rw [le16_toNat,UInt16.toNat_toUInt8,UInt16.toNat_toUInt8,shifted]
  omega

end Ucm108e.Bytes
