import Ucm108e.Bytes

/-!
Computations that record which bytes of which memory region they load and
store. The record follows the control flow, so a bound on it is a statement
about the accesses themselves and not about what the result depends on.
-/
namespace Ucm108e.Access
open Ucm108e.Bytes

/-- A value with the accesses made on the way to it, as regions and offsets. -/
structure Traced (ρ α : Type) where
  val : α
  loads : List (ρ × Nat)
  stores : List (ρ × Nat)

variable {ρ α β σ : Type}

instance : Monad (Traced ρ) where
  pure a := ⟨a,[],[]⟩
  bind t f := ⟨(f t.val).val,t.loads ++ (f t.val).loads,t.stores ++ (f t.val).stores⟩

def load (r : ρ) (m : Mem) (i : Nat) : Traced ρ UInt8 := ⟨m i,[(r,i)],[]⟩

def loaded (r : ρ) (a n : Nat) : Traced ρ Unit := ⟨(),(List.range n).map fun i => (r,a+i),[]⟩

/-- The `n` bytes from offset `a` of region `r` are stored. -/
def stored (r : ρ) (a n : Nat) : Traced ρ Unit := ⟨(),[],(List.range n).map fun i => (r,a+i)⟩

/-- Every access stays below the size of its region. -/
def Within (t : Traced ρ α) (size : ρ → Nat) : Prop :=
  (∀ a ∈ t.loads, a.2 < size a.1) ∧ ∀ a ∈ t.stores, a.2 < size a.1

@[simp] theorem val_pure (a : α) : (pure a : Traced ρ α).val = a := rfl
@[simp] theorem val_bind (t : Traced ρ α) (f : α → Traced ρ β) : (t >>= f).val = (f t.val).val := rfl
@[simp] theorem val_load (r : ρ) (m : Mem) (i : Nat) : (load r m i).val = m i := rfl

@[simp] theorem stores_pure (a : α) : (pure a : Traced ρ α).stores = [] := rfl
@[simp] theorem stores_bind (t : Traced ρ α) (f : α → Traced ρ β) :
    (t >>= f).stores = t.stores ++ (f t.val).stores := rfl
@[simp] theorem stores_load (r : ρ) (m : Mem) (i : Nat) : (load r m i).stores = [] := rfl
@[simp] theorem stores_loaded (r : ρ) (a n : Nat) : (loaded r a n).stores = [] := rfl

/-- Every store stays below the size of its region. -/
def StoresWithin (t : Traced ρ α) (size : ρ → Nat) : Prop := ∀ a ∈ t.stores, a.2 < size a.1

@[simp] theorem storesWithin_pure (a : α) (size : ρ → Nat) : StoresWithin (pure a) size :=
  fun _ none => absurd none List.not_mem_nil

@[simp] theorem storesWithin_load (r : ρ) (m : Mem) (i : Nat) (size : ρ → Nat) : StoresWithin (load r m i) size :=
  fun _ none => absurd none List.not_mem_nil

@[simp] theorem storesWithin_loaded (r : ρ) (a n : Nat) (size : ρ → Nat) : StoresWithin (loaded r a n) size :=
  fun _ none => absurd none List.not_mem_nil

@[simp] theorem storesWithin_stored (r : ρ) (a n : Nat) (size : ρ → Nat) :
    StoresWithin (stored r a n) size ↔ ∀ i < n, a+i < size r := by
  simp [StoresWithin,stored]

/-- A row of bytes ends within a region in which it starts. -/
theorem offsets_lt {a n size : Nat} (start : a ≤ size) : (∀ i < n, a+i < size) ↔ a+n ≤ size := by
  constructor
  · intro all
    by_contra large
    have last := all (n-1) (by omega)
    omega
  · intro room i inside
    omega

@[simp] theorem storesWithin_bind (t : Traced ρ α) (f : α → Traced ρ β) (size : ρ → Nat) :
    StoresWithin (t >>= f) size ↔ StoresWithin t size ∧ StoresWithin (f t.val) size := by
  simp only [StoresWithin,stores_bind,List.mem_append,or_imp,forall_and]

theorem mem_stored {r : ρ} {a n : Nat} {x : ρ × Nat} : x ∈ (stored r a n).stores ↔ ∃ i < n, (r,a+i) = x := by
  simp [stored]

@[simp] theorem within_pure (a : α) (size : ρ → Nat) : Within (pure a) size := by
  simp [Within,pure]

@[simp] theorem within_bind (t : Traced ρ α) (f : α → Traced ρ β) (size : ρ → Nat) :
    Within (t >>= f) size ↔ Within t size ∧ Within (f t.val) size := by
  simp only [Within,bind,List.mem_append,or_imp,forall_and]
  tauto

theorem val_ite (c : Prop) [Decidable c] (t e : Traced ρ α) : (if c then t else e).val = if c then t.val else e.val :=
  apply_ite Traced.val c t e

theorem stores_ite (c : Prop) [Decidable c] (t e : Traced ρ α) :
    (if c then t else e).stores = if c then t.stores else e.stores :=
  apply_ite Traced.stores c t e

theorem storesWithin_ite (c : Prop) [Decidable c] (t e : Traced ρ α) (size : ρ → Nat) :
    StoresWithin (if c then t else e) size ↔ (c → StoresWithin t size) ∧ (¬ c → StoresWithin e size) := by
  split <;> simp_all

theorem within_ite (c : Prop) [Decidable c] (t e : Traced ρ α) (size : ρ → Nat) :
    Within (if c then t else e) size ↔ (c → Within t size) ∧ (¬ c → Within e size) := by
  split <;> simp_all

@[simp] theorem within_load (r : ρ) (m : Mem) (i : Nat) (size : ρ → Nat) : Within (load r m i) size ↔ i < size r := by
  simp [Within,load]

@[simp] theorem within_loaded (r : ρ) (a n : Nat) (size : ρ → Nat) :
    Within (loaded r a n) size ↔ ∀ i < n, a+i < size r := by
  simp [Within,loaded]

@[simp] theorem within_stored (r : ρ) (a n : Nat) (size : ρ → Nat) :
    Within (stored r a n) size ↔ ∀ i < n, a+i < size r := by
  simp [Within,stored]

/-! ### Loops -/

/-- `for (i = 0; i < n; i++)` over a state. -/
def forLoop : Nat → σ → (Nat → σ → Traced ρ σ) → Traced ρ σ
  | 0, s, _ => pure s
  | n+1, s, body => forLoop n s body >>= body n

theorem forLoop_induct {P : Nat → σ → Prop} (n : Nat) {s : σ} {body : Nat → σ → Traced ρ σ} (start : P 0 s)
    (pass : ∀ i < n, ∀ s, P i s → P (i+1) (body i s).val) : P n (forLoop n s body).val := by
  induction n with
  | zero => exact start
  | succ n ih => exact pass n (by omega) _ (ih (fun i lt => pass i (by omega)))

/-- A loop whose stores do not depend on its state. -/
theorem forLoop_stores {f : Nat → List (ρ × Nat)} (n : Nat) (s : σ) {body : Nat → σ → Traced ρ σ}
    (pass : ∀ i s, (body i s).stores = f i) : (forLoop n s body).stores = (List.range n).flatMap f := by
  induction n with
  | zero => rfl
  | succ n ih => rw [forLoop,stores_bind,ih,pass,List.range_succ,List.flatMap_append,List.flatMap_singleton]

theorem forLoop_no_stores (n : Nat) (s : σ) {body : Nat → σ → Traced ρ σ} (pass : ∀ i s, (body i s).stores = []) :
    (forLoop n s body).stores = [] := by
  rw [forLoop_stores (f := fun _ => []) n s pass]
  exact List.flatMap_eq_nil_iff.mpr fun _ _ => rfl

/-- A loop whose accesses do not depend on its state is within bounds exactly
    when every pass is. -/
theorem forLoop_within {Q : Nat → Prop} (n : Nat) (s : σ) {body : Nat → σ → Traced ρ σ} {size : ρ → Nat}
    (pass : ∀ i s, Within (body i s) size ↔ Q i) : Within (forLoop n s body) size ↔ ∀ i < n, Q i := by
  induction n with
  | zero => simp [forLoop]
  | succ n ih =>
    simp only [forLoop,within_bind,ih,pass,Nat.lt_succ_iff]
    constructor
    · rintro ⟨before,last⟩ i le
      rcases Nat.lt_or_eq_of_le le with lt | rfl
      · exact before i lt
      · exact last
    · intro all
      exact ⟨fun i lt => all i (by omega),all n (Nat.le_refl n)⟩

/-- `for (i = 0; i < n; i++) d[off + i] = f(s[pos + i])`, for `d` with prior
    contents `old`. -/
def mapLoop (src : ρ) (m : Mem) (pos : Nat) (dst : ρ) (off : Nat) (f : UInt8 → UInt8) (n : Nat) (old : Mem) :
    Traced ρ Mem :=
  forLoop n old fun i d => do
    let x ← load src m (pos+i)
    stored dst (off+i) 1
    pure (Function.update d i (f x))

theorem mapLoop_val (src : ρ) (m : Mem) (pos : Nat) (dst : ρ) (off : Nat) (f : UInt8 → UInt8) (n : Nat) (old : Mem) :
    (mapLoop src m pos dst off f n old).val = fun i => if i < n then f (m (pos+i)) else old i := by
  refine forLoop_induct (P := fun k d => d = fun i => if i < k then f (m (pos+i)) else old i) n (by simp) ?_
  rintro i _ d rfl
  funext j
  simp only [val_bind,val_load,val_pure,Function.update_apply]
  by_cases same : j = i
  · subst same; simp
  · have : j < i+1 ↔ j < i := by omega
    simp [same,this]

theorem mapLoop_within (src : ρ) (m : Mem) (pos : Nat) (dst : ρ) (off : Nat) (f : UInt8 → UInt8) (n : Nat) (old : Mem)
    (size : ρ → Nat) :
    Within (mapLoop src m pos dst off f n old) size ↔ ∀ i < n, pos+i < size src ∧ off+i < size dst :=
  forLoop_within n old (by simp)

theorem mapLoop_stores (src : ρ) (m : Mem) (pos : Nat) (dst : ρ) (off : Nat) (f : UInt8 → UInt8) (n : Nat) (old : Mem) :
    (mapLoop src m pos dst off f n old).stores = (stored dst off n).stores := by
  rw [mapLoop,forLoop_stores (f := fun i => [(dst,off+i)]) n old fun i s => by simp [stored],stored]
  exact List.map_eq_flatMap.symm

/-- `for (i = a; i < b; i++) cs += s[i]` for an 8-bit `cs` that starts at zero. -/
def sumLoop (src : ρ) (m : Mem) (a b : Nat) : Traced ρ UInt8 :=
  forLoop (b-a) 0 fun i cs => do
    let x ← load src m (a+i)
    pure (cs+x)

theorem sumLoop_val (src : ρ) (m : Mem) (a b : Nat) : (sumLoop src m a b).val = (window m a (b-a)).sum := by
  refine forLoop_induct (P := fun k cs => cs = (window m a k).sum) (b-a) (by simp) ?_
  rintro i _ cs rfl
  simp [window_succ]

theorem sumLoop_stores (src : ρ) (m : Mem) (a b : Nat) : (sumLoop src m a b).stores = [] :=
  forLoop_no_stores (b-a) 0 fun _ _ => rfl

theorem sumLoop_within (src : ρ) (m : Mem) (a b : Nat) (size : ρ → Nat) :
    Within (sumLoop src m a b) size ↔ ∀ i < b-a, a+i < size src :=
  forLoop_within (b-a) 0 (by simp)

end Ucm108e.Access
