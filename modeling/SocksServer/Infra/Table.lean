import Mathlib.Data.List.AList

/-!
# Finite tables

A hash map whose iteration order does not matter: Mathlib's `AList` with one value type.
Only `retain` is missing there.
-/

namespace Infra

/-- A finite map. Each key has at most one entry. -/
abbrev Table (κ ν : Type) := AList fun _ : κ => ν

namespace Table

variable {κ ν : Type}

def size (m : Table κ ν) : Nat := m.entries.length

def values (m : Table κ ν) : List ν := m.entries.map Sigma.snd

/-- Keeps the entries whose value satisfies `f`. -/
def retain (f : ν → Bool) (m : Table κ ν) : Table κ ν :=
  ⟨m.entries.filter fun e => f e.2, m.nodupKeys.sublist List.filter_sublist⟩

theorem size_eq_length_keys (m : Table κ ν) : size m = m.keys.length :=
  (List.length_map Sigma.fst).symm

@[simp] theorem size_empty : size (∅ : Table κ ν) = 0 := rfl

theorem size_retain_le (f : ν → Bool) (m : Table κ ν) : size (retain f m) ≤ size m :=
  List.length_filter_le _ _

/-- A `retain` that drops nothing changes nothing. -/
theorem retain_eq_self {f : ν → Bool} {m : Table κ ν} (h : size m ≤ size (retain f m)) :
    retain f m = m := by
  apply AList.ext
  show m.entries.filter (fun e => f e.2) = m.entries
  rw [List.filter_eq_self, ← List.length_filter_eq_length_iff]
  exact le_antisymm (List.length_filter_le _ _) h

variable [DecidableEq κ]

theorem size_insert_of_mem {m : Table κ ν} {k : κ} (v : ν) (h : k ∈ m) :
    size (m.insert k v) = size m := by
  have hk : k ∈ m.keys := AList.mem_keys.mp h
  have hpos : 0 < m.keys.length := List.length_pos_of_mem hk
  rw [size_eq_length_keys, size_eq_length_keys, AList.keys_insert, List.length_cons,
    List.length_erase_of_mem hk]
  omega

theorem size_insert_of_not_mem {m : Table κ ν} {k : κ} (v : ν) (h : k ∉ m) :
    size (m.insert k v) = size m + 1 := by
  rw [size, AList.entries_insert_of_notMem h, List.length_cons, size]

theorem exists_lookup_of_mem_values {m : Table κ ν} {v : ν} (h : v ∈ values m) :
    ∃ k, m.lookup k = some v := by
  obtain ⟨⟨k, v⟩, he, rfl⟩ := List.mem_map.mp h
  exact ⟨k, AList.mem_lookup_iff.mpr he⟩

theorem mem_lookup_retain {f : ν → Bool} {m : Table κ ν} {k : κ} {v : ν} :
    v ∈ (retain f m).lookup k ↔ v ∈ m.lookup k ∧ f v = true := by
  rw [AList.mem_lookup_iff, AList.mem_lookup_iff]
  exact List.mem_filter

/-- An entry that is kept is kept unchanged. -/
theorem lookup_retain (f : ν → Bool) (m : Table κ ν) (k : κ) :
    (retain f m).lookup k = (m.lookup k).filter f := by
  apply Option.ext
  intro v
  have h := @mem_lookup_retain κ ν _ f m k v
  simp only [Option.mem_def] at h
  rw [h, Option.filter_eq_some_iff]

end Table

end Infra
