import Mathlib
import Yuviz.Python.Dict

/-!
# Ordered dictionaries

The items of a dictionary can be moved to its end and taken from its front, so that
the key that was used least recently is the first to go. Where no key is there twice
(`Dict.NodupKeys`), an item is there if and only if it is found under its key.
-/

namespace Yuviz.Python.Dict

variable {κ ν : Type*} {d d' : Dict κ ν} {k k' : κ} {v : ν} {e : κ × ν} {size : ℕ}

/-- No key is there twice. -/
def NodupKeys (d : Dict κ ν) : Prop := (d.map Prod.fst).Nodup

/-- Takes the first item away where there are more than `size`. -/
def evictFirst (size : ℕ) (d : Dict κ ν) : Dict κ ν := if size < d.length then d.tail else d

/-- The key that is taken away. -/
def evicted (size : ℕ) (d : Dict κ ν) : Option κ :=
  if size < d.length then d.head?.map Prod.fst else none

theorem NodupKeys.sublist (h : d.NodupKeys) (hsub : d'.Sublist d) : d'.NodupKeys :=
  List.Nodup.sublist (hsub.map _) h

theorem NodupKeys.of_cons (h : NodupKeys (e :: d)) : d.NodupKeys ∧ e.1 ∉ d.map Prod.fst := by
  rw [NodupKeys, List.map_cons, List.nodup_cons] at h
  exact h.symm

/-- An eviction takes items away only, -/
theorem evictFirst_sublist : (d.evictFirst size).Sublist d := by
  rw [evictFirst]
  split_ifs
  · exact List.tail_sublist d
  · exact List.Sublist.refl d

/-- so that one more than fits is one too many no more. -/
theorem length_evictFirst_le (h : d.length ≤ size + 1) : (d.evictFirst size).length ≤ size := by
  rw [evictFirst]
  split_ifs with hsize
  · rw [List.length_tail]
    omega
  · exact Nat.le_of_not_lt hsize

variable [DecidableEq κ]

/-- `d[k] = v` and `d.move_to_end(k)`. -/
def putLast (d : Dict κ ν) (k : κ) (v : ν) : Dict κ ν := d.del k ++ [(k, v)]

/-- `d.move_to_end(k)`, where the key is there. -/
def moveToEnd (d : Dict κ ν) (k : κ) : Dict κ ν :=
  match d.get? k with
  | none => d
  | some v => d.putLast k v

theorem get?_eq_some_iff (h : d.NodupKeys) : d.get? k = some v ↔ (k, v) ∈ d :=
  ⟨mem_of_get?_eq_some, get?_eq_some_of_mem h⟩

/-! ### Taking items away -/

theorem get?_of_cons (h : NodupKeys (e :: d)) :
    d.get? k = if k = e.1 then none else Dict.get? (e :: d) k := by
  split_ifs with hk
  · rw [hk, get?_eq_none_iff]
    exact h.of_cons.2
  · rw [get?, get?, List.find?_cons_of_neg (by simpa using Ne.symm hk)]

/-- It is the first item that is evicted. -/
theorem get?_evictFirst (h : d.NodupKeys) :
    (d.evictFirst size).get? k = if d.evicted size = some k then none else d.get? k := by
  rw [evictFirst, evicted]
  by_cases hsize : size < d.length
  · rw [if_pos hsize, if_pos hsize]
    obtain ⟨e, d, rfl⟩ := List.exists_cons_of_length_pos (Nat.zero_lt_of_lt hsize)
    rw [List.tail_cons, get?_of_cons h]
    simp [eq_comm]
  · rw [if_neg hsize, if_neg hsize, if_neg (by simp)]

/-- The first of two dictionaries comes first. -/
theorem get?_append : Dict.get? (d ++ d') k = (d.get? k).or (d'.get? k) := by
  rw [get?, List.find?_append, Option.map_or]
  rfl

theorem del_of_get? (h : d.get? k = none) : d.del k = d := by
  refine List.filter_eq_self.2 fun e he => decide_eq_true fun hk => ?_
  exact get?_eq_none_iff.1 h (hk ▸ List.mem_map_of_mem he)

theorem del_set : (d.set k v).del k = d.del k := by
  have hmap (d : Dict κ ν) :
      Dict.del (d.map fun e => if e.1 = k then (k, v) else e) k = d.del k := by
    induction d with
    | nil => rfl
    | cons e d ih =>
      rw [del, del] at ih ⊢
      by_cases he : e.1 = k <;> simpa [he] using ih
  rw [set]
  split_ifs
  · exact hmap d
  · simp [del]

/-! ### Moving items -/

/-- A key that is put last has its value, -/
theorem get?_putLast : (d.putLast k v).get? k' = if k' = k then some v else d.get? k' := by
  rw [putLast, get?_append]
  split_ifs with hk
  · rw [hk, get?_del_self, Option.none_or, get?, List.find?_cons_of_pos (by simp)]
    rfl
  · have hlast : Dict.get? [(k, v)] k' = none := get?_eq_none_iff.2 (by simpa using hk)
    rw [get?_del_ne hk, hlast, Option.or_none]

/-- is there once, -/
theorem NodupKeys.putLast (h : d.NodupKeys) : (d.putLast k v).NodupKeys := by
  have hnot : k ∉ (d.del k).map Prod.fst := get?_eq_none_iff.1 get?_del_self
  rw [NodupKeys, Dict.putLast, List.map_append]
  exact (h.sublist List.filter_sublist).append (List.nodup_singleton k)
    (List.disjoint_singleton.2 hnot)

theorem length_putLast_le : (d.putLast k v).length ≤ d.length + 1 := by
  rw [putLast, List.length_append]
  exact Nat.add_le_add_right (List.length_filter_le _ _) 1

/-- and the other items were there before. -/
theorem mem_putLast (h : e ∈ d.putLast k v) : e = (k, v) ∨ e ∈ d := by
  rw [putLast, List.mem_append, List.mem_singleton] at h
  exact h.symm.imp_right List.mem_of_mem_filter

theorem del_putLast : (d.putLast k v).del k = d.del k := by
  rw [putLast, del, List.filter_append, del, List.filter_filter]
  simp

theorem set_putLast {w : ν} : (d.putLast k w).set k v = d.putLast k v := by
  have hmem : k ∈ (d.putLast k w).map Prod.fst := by simp [putLast]
  have hdel : (d.del k).map (fun e => if e.1 = k then (k, v) else e) = d.del k := by
    refine (List.map_congr_left fun e he => ?_).trans (List.map_id _)
    exact if_neg (by simpa using (List.mem_filter.1 he).2)
  rw [set, if_pos hmem, putLast, List.map_append, hdel, putLast, List.map_singleton, if_pos rfl]

/-- To move a key to the end is to put its value last. -/
theorem moveToEnd_of_get? (h : d.get? k = some v) : d.moveToEnd k = d.putLast k v := by
  rw [moveToEnd, h]

theorem moveToEnd_set : (d.set k v).moveToEnd k = d.putLast k v := by
  rw [moveToEnd_of_get? (get?_set.trans (if_pos rfl)), putLast, putLast, del_set]

theorem NodupKeys.moveToEnd (h : d.NodupKeys) : (d.moveToEnd k).NodupKeys := by
  rw [Dict.moveToEnd]
  split
  · exact h
  · exact h.putLast

/-- The order does not change what is found. -/
@[simp] theorem get?_moveToEnd : (d.moveToEnd k).get? k' = d.get? k' := by
  rcases hv : d.get? k with _ | v
  · rw [moveToEnd, hv]
  · rw [moveToEnd_of_get? hv, get?_putLast]
    split_ifs with hk
    · rw [hk, hv]
    · rfl

/-- Nor does it change how much there is. -/
theorem length_moveToEnd (h : d.NodupKeys) : (d.moveToEnd k).length = d.length := by
  refine List.Perm.length_eq ?_
  rw [List.perm_ext_iff_of_nodup (List.Nodup.of_map _ h.moveToEnd) (List.Nodup.of_map _ h)]
  rintro ⟨k', v⟩
  rw [← get?_eq_some_iff h.moveToEnd, ← get?_eq_some_iff h, get?_moveToEnd]

theorem length_putLast (h : d.NodupKeys) (hk : d.get? k ≠ none) :
    (d.putLast k v).length = d.length := by
  obtain ⟨w, hw⟩ := Option.ne_none_iff_exists'.1 hk
  rw [← length_moveToEnd h (k := k), moveToEnd_of_get? hw, putLast, putLast, List.length_append,
    List.length_append]
  rfl

end Yuviz.Python.Dict
