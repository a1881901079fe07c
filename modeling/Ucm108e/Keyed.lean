import Mathlib

/-!
Lists of entries with distinct keys, as tables that are searched, changed in
place and appended to. The keys are distinct by type, so the entry that a search
finds is the only one with its key.
-/
namespace Ucm108e.Keyed

variable {κ ν : Type} {key : ν → κ}

/-- Entries with distinct keys, in the order they were inserted. -/
structure Table (key : ν → κ) where
  entries : List ν
  distinct : (entries.map key).Nodup

namespace Table

def empty : Table key := ⟨[],List.nodup_nil⟩

def keys (t : Table key) : List κ := t.entries.map key

theorem mem_keys {t : Table key} {x : ν} (member : x ∈ t.entries) : key x ∈ t.keys := List.mem_map_of_mem member

theorem eq_of_key {t : Table key} {x y : ν} (memberX : x ∈ t.entries) (memberY : y ∈ t.entries)
    (same : key x = key y) : x = y :=
  List.inj_on_of_nodup_map t.distinct memberX memberY same

variable [DecidableEq κ]

def find (t : Table key) (k : κ) : Option ν := t.entries.find? fun x => key x = k

theorem find_none {t : Table key} {k : κ} : t.find k = none ↔ k ∉ t.keys := by
  simp [find,keys]

theorem map_key_modify {f : ν → ν} (keeps : ∀ x, key (f x) = key x) (k : κ) (entries : List ν) :
    (entries.map fun x => if key x = k then f x else x).map key = entries.map key := by
  rw [List.map_map]
  apply List.map_congr_left
  intro x _
  simp only [Function.comp_apply]
  split
  · exact keeps x
  · rfl

/-- The table with the entry for a key changed, if there is one; the change
    keeps the key. -/
def modify (t : Table key) (k : κ) (f : ν → ν) (keeps : ∀ x, key (f x) = key x) : Table key where
  entries := t.entries.map fun x => if key x = k then f x else x
  distinct := by
    rw [map_key_modify keeps]
    exact t.distinct

/-- The table with an entry for a new key at its end. -/
def insert (t : Table key) (x : ν) (absent : t.find (key x) = none) : Table key where
  entries := t.entries ++ [x]
  distinct := by
    rw [List.map_append,List.map_singleton]
    refine List.nodup_append.mpr ⟨t.distinct,List.nodup_singleton _,?_⟩
    rintro k member _ last rfl
    rw [List.mem_singleton.mp last] at member
    exact find_none.mp absent member

variable {t : Table key}

theorem mem_modify {k : κ} {f : ν → ν} {keeps : ∀ x, key (f x) = key x} {y : ν} :
    y ∈ (t.modify k f keeps).entries ↔ ∃ x ∈ t.entries, (if key x = k then f x else x) = y :=
  List.mem_map

theorem keys_modify (k : κ) (f : ν → ν) (keeps : ∀ x, key (f x) = key x) : (t.modify k f keeps).keys = t.keys :=
  map_key_modify keeps k t.entries

theorem modify_absent {k : κ} {f : ν → ν} (keeps : ∀ x, key (f x) = key x) (absent : t.find k = none) :
    t.modify k f keeps = t := by
  have same : t.entries.map (fun x => if key x = k then f x else x) = t.entries := by
    refine (List.map_congr_left fun x member => ?_).trans (List.map_id _)
    refine if_neg ?_
    rintro rfl
    exact find_none.mp absent (mem_keys member)
  cases t
  simp only [modify,mk.injEq]
  exact same

theorem mem_insert {x : ν} {absent : t.find (key x) = none} {y : ν} :
    y ∈ (t.insert x absent).entries ↔ y ∈ t.entries ∨ y = x := by
  simp [insert]

theorem keys_insert (x : ν) (absent : t.find (key x) = none) : (t.insert x absent).keys = t.keys ++ [key x] := by
  simp [keys,insert]
end Table

end Ucm108e.Keyed
