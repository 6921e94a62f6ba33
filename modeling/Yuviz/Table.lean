import Mathlib.Data.Fintype.EquivFin
import Yuviz.Python.Dict

/-!
# Tables

A table is a dictionary of rows under distinct keys. Its *part* for a condition
is the table of the rows that meet it: a row that is written or erased outside
of a part leaves the part as it is (`part_set`, `part_erase`), and a part can be
put in the place of the table it is taken from (`part_part`).
-/

namespace Yuviz

open Python (Dict)

@[ext] structure Table (κ ν : Type*) where
  rows : Dict κ ν
  nodup : (rows.map Prod.fst).Nodup

namespace Table

variable {κ ν : Type*} [DecidableEq κ] {t t' : Table κ ν} {k k' : κ} {v v' : ν}

def empty : Table κ ν := ⟨[], List.nodup_nil⟩

def get? (t : Table κ ν) (k : κ) : Option ν := Dict.get? t.rows k

/-- Inserts a row, or replaces the one that is there. -/
def set (t : Table κ ν) (k : κ) (v : ν) : Table κ ν :=
  ⟨Dict.set t.rows k v, Dict.nodup_keys_set t.nodup⟩

def erase (t : Table κ ν) (k : κ) : Table κ ν :=
  ⟨Dict.del t.rows k, t.nodup.sublist (List.filter_sublist.map _)⟩

theorem get?_eq_some_iff : t.get? k = some v ↔ (k, v) ∈ t.rows :=
  ⟨Dict.mem_of_get?_eq_some, Dict.get?_eq_some_of_mem t.nodup⟩

/-- A row is set, and the others are as they were. -/
theorem get?_set : (t.set k v).get? k' = if k' = k then some v else t.get? k' := Dict.get?_set

@[simp] theorem get?_set_self : (t.set k v).get? k = some v := by
  rw [get?_set, if_pos rfl]

/-- What is left after a row is erased was there before. -/
theorem get?_erase_eq_some (h : (t.erase k).get? k' = some v) : t.get? k' = some v :=
  (Dict.get?_del_eq_some h).2

/-- There is always a key that is free. -/
theorem exists_get?_eq_none [Infinite κ] (t : Table κ ν) : ∃ k, t.get? k = none := by
  obtain ⟨k, hk⟩ := Infinite.exists_notMem_finset (t.rows.map Prod.fst).toFinset
  exact ⟨k, Dict.get?_eq_none_iff.2 fun hmem => hk (List.mem_toFinset.2 hmem)⟩

/-! ### Parts -/

variable (p : κ → ν → Prop) [∀ k v, Decidable (p k v)]

/-- The rows that meet a condition. -/
def part (t : Table κ ν) : Table κ ν :=
  ⟨t.rows.filter fun e => p e.1 e.2, t.nodup.sublist (List.filter_sublist.map _)⟩

variable {p}

theorem get?_part : (t.part p).get? k = some v ↔ t.get? k = some v ∧ p k v := by
  rw [get?_eq_some_iff, get?_eq_some_iff]
  exact List.mem_filter.trans (and_congr_right' decide_eq_true_iff)

omit [DecidableEq κ] in
theorem part_part : (t.part p).part p = t.part p := by
  ext1
  refine List.filter_filter.trans (List.filter_congr fun e _ => ?_)
  rw [Bool.and_self]

/-- A write outside of a part, of a row that was outside as well. -/
theorem part_set (hold : ∀ v, t.get? k = some v → ¬ p k v) (hnew : ¬ p k v) :
    (t.set k v).part p = t.part p := by
  have hout (e : κ × ν) (he : e ∈ t.rows) (hk : e.1 = k) : ¬ p e.1 e.2 := by
    rw [hk]
    exact hold _ (get?_eq_some_iff.2 (hk ▸ he))
  ext1
  change (Dict.set t.rows k v).filter _ = t.rows.filter _
  rw [Dict.set]
  split_ifs with hmem
  · -- A row that is replaced is outside before and after.
    rw [List.filter_map]
    have hcongr : t.rows.filter ((fun e => decide (p e.1 e.2)) ∘
        fun e => if e.1 = k then (k, v) else e) = t.rows.filter fun e => decide (p e.1 e.2) := by
      refine List.filter_congr fun e he => ?_
      by_cases hk : e.1 = k
      · simp [hk, hnew, hold e.2 (get?_eq_some_iff.2 (hk ▸ he))]
      · simp [hk]
    rw [hcongr]
    conv_rhs => rw [← List.map_id (t.rows.filter fun e => decide (p e.1 e.2))]
    refine List.map_congr_left fun e he => ?_
    obtain ⟨he, hp⟩ := List.mem_filter.1 he
    exact if_neg fun hk => hout e he hk (of_decide_eq_true hp)
  · rw [List.filter_append, List.filter_singleton, decide_eq_false hnew]
    exact List.append_nil _

/-- To erase a row of the rest leaves a part alone. -/
theorem part_erase (hold : ∀ v, t.get? k = some v → ¬ p k v) : (t.erase k).part p = t.part p := by
  ext1
  refine List.filter_filter.trans (List.filter_congr fun e he => ?_)
  by_cases hk : e.1 = k
  · simp [hk, hold e.2 (get?_eq_some_iff.2 (hk ▸ he))]
  · simp [hk]

/-- A row that is in a part is in every table with this part. -/
theorem get?_of_part_eq (h : t.part p = t'.part p) (hv : t.get? k = some v) (hp : p k v) :
    t'.get? k = some v :=
  (get?_part.1 (h ▸ get?_part.2 ⟨hv, hp⟩)).1

end Table

end Yuviz
