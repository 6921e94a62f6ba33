import Mathlib.Data.List.Basic
import Mathlib.Data.List.Nodup
import Mathlib.Tactic.SplitIfs

/-!
# Python dictionaries

A dictionary is the list of its items, in the order of insertion: assigning to a
key that is there replaces its value in place.
-/

namespace Yuviz.Python

abbrev Dict (κ ν : Type*) := List (κ × ν)

namespace Dict

variable {κ ν : Type*} [DecidableEq κ] {d : Dict κ ν} {k k' : κ} {v : ν}

def get? (d : Dict κ ν) (k : κ) : Option ν := (d.find? (·.1 = k)).map Prod.snd

/-- `d[k] = v`. -/
def set (d : Dict κ ν) (k : κ) (v : ν) : Dict κ ν :=
  if k ∈ d.map Prod.fst then d.map fun e => if e.1 = k then (k, v) else e else d ++ [(k, v)]

/-- `del d[k]`. -/
def del (d : Dict κ ν) (k : κ) : Dict κ ν := d.filter (·.1 ≠ k)

/-- The same keys, with other values. -/
def mapItems (f : κ → ν → ν) (d : Dict κ ν) : Dict κ ν := d.map fun e => (e.1, f e.1 e.2)

/-- `dict(pairs)`. -/
def ofPairs (pairs : List (κ × ν)) : Dict κ ν := pairs.foldl (fun d e => d.set e.1 e.2) []

/-- A key is in the dictionary if and only if it has a value. -/
theorem isSome_get?_iff : (d.get? k).isSome ↔ k ∈ d.map Prod.fst := by
  rw [get?, Option.isSome_map, List.find?_isSome]
  simp

theorem get?_eq_none_iff : d.get? k = none ↔ k ∉ d.map Prod.fst := by
  rw [← isSome_get?_iff, Option.not_isSome_iff_eq_none]

theorem mem_of_get?_eq_some (h : d.get? k = some v) : (k, v) ∈ d := by
  obtain ⟨e, he, rfl⟩ := Option.map_eq_some_iff.1 h
  have hk : e.1 = k := by simpa using List.find?_some he
  exact hk ▸ List.mem_of_find?_eq_some he

/-- An item is found, if no key is there twice. -/
theorem get?_eq_some_of_mem (hd : (d.map Prod.fst).Nodup) (h : (k, v) ∈ d) :
    d.get? k = some v := by
  induction d with
  | nil => cases h
  | cons e d ih =>
    rw [List.map_cons, List.nodup_cons] at hd
    rw [get?, List.find?_cons]
    rcases List.mem_cons.1 h with rfl | h
    · simp
    · have hne : e.1 ≠ k := fun hk => hd.1 (hk ▸ List.mem_map_of_mem h)
      simpa [hne, get?] using ih hd.2 h

theorem set_of_notMem (h : k ∉ d.map Prod.fst) : d.set k v = d ++ [(k, v)] := if_neg h

/-- A key that is there keeps its place. -/
theorem keys_set_of_mem (h : k ∈ d.map Prod.fst) : (d.set k v).map Prod.fst = d.map Prod.fst := by
  rw [set, if_pos h, List.map_map]
  refine List.map_congr_left fun e _ => ?_
  by_cases he : e.1 = k <;> simp [he]

theorem mem_keys_set_iff : k' ∈ (d.set k v).map Prod.fst ↔ k' = k ∨ k' ∈ d.map Prod.fst := by
  by_cases h : k ∈ d.map Prod.fst
  · rw [keys_set_of_mem h]
    exact ⟨.inr, fun h' => h'.elim (· ▸ h) id⟩
  · simp [set_of_notMem h, or_comm]

/-- No key is set twice. -/
theorem nodup_keys_set (hd : (d.map Prod.fst).Nodup) : ((d.set k v).map Prod.fst).Nodup := by
  by_cases h : k ∈ d.map Prod.fst
  · rwa [keys_set_of_mem h]
  · rw [set_of_notMem h, List.map_append]
    exact hd.append (List.nodup_singleton k) (by simpa using h)

/-- A key is set, and the others are as they were. -/
theorem get?_set : (d.set k v).get? k' = if k' = k then some v else d.get? k' := by
  rw [set]
  split_ifs with hmem hk hk
  · subst hk
    induction d with
    | nil => simp at hmem
    | cons e d ih =>
      rw [get?, List.map_cons, List.find?_cons]
      rcases eq_or_ne e.1 k' with he | he
      · simp [he]
      · have hmem' : k' ∈ d.map Prod.fst := by simpa [he.symm] using hmem
        simpa [he, get?] using ih hmem'
  · rw [get?, get?, List.find?_map, Option.map_map]
    have hfst (e : κ × ν) : (if e.1 = k then (k, v) else e).1 = e.1 := by
      split_ifs with he
      · exact he.symm
      · rfl
    simp only [Function.comp_def, hfst]
    rcases hfind : d.find? (·.1 = k') with _ | e <;> rw [hfind]
    · rfl
    · have he : e.1 = k' := by simpa using List.find?_some hfind
      have hne : e.1 ≠ k := fun h => hk (he.symm.trans h)
      simp [hne]
  · rw [get?, List.find?_append, show d.find? (·.1 = k') = none from ?_]
    · simp [hk]
    · rw [← Option.map_eq_none_iff (f := Prod.snd)]
      exact get?_eq_none_iff.2 (hk ▸ hmem)
  · rw [get?, get?, List.find?_append]
    have hlast : [(k, v)].find? (·.1 = k') = none := by simpa using Ne.symm hk
    rw [hlast, Option.or_none]

theorem get?_mapItems {f : κ → ν → ν} : (d.mapItems f).get? k = (d.get? k).map (f k) := by
  rw [get?, get?, mapItems, List.find?_map, Option.map_map, Option.map_map]
  refine Option.map_congr fun e he => ?_
  have hk : e.1 = k := by simpa using List.find?_some he
  rw [Function.comp_apply, Function.comp_apply, hk]

theorem get?_del_ne (h : k' ≠ k) : (d.del k).get? k' = d.get? k' := by
  induction d with
  | nil => rfl
  | cons e d ih =>
    rcases eq_or_ne e.1 k with he | he
    · have hne : e.1 ≠ k' := fun h' => h (h'.symm.trans he)
      simpa [del, he, get?, h.symm, hne] using ih
    · rcases eq_or_ne e.1 k' with he' | he'
      · simp [del, he', get?, h]
      · simpa [del, he, he', get?] using ih

theorem get?_del_self : (d.del k).get? k = none := by
  rw [get?_eq_none_iff, del]
  simp

/-- What is left after a deletion was there before. -/
theorem get?_del_eq_some (h : (d.del k).get? k' = some v) : k' ≠ k ∧ d.get? k' = some v := by
  have hne : k' ≠ k := by
    rintro rfl
    cases get?_del_self.symm.trans h
  exact ⟨hne, get?_del_ne hne ▸ h⟩

/-- New keys come after the others, in their order. -/
theorem foldl_set_of_nodup {pairs : List (κ × ν)} (h : (pairs.map Prod.fst).Nodup)
    (hd : ∀ e ∈ pairs, e.1 ∉ d.map Prod.fst) :
    pairs.foldl (fun d e => d.set e.1 e.2) d = d ++ pairs := by
  induction pairs generalizing d with
  | nil => simp
  | cons e pairs ih =>
    rw [List.map_cons, List.nodup_cons] at h
    rw [List.forall_mem_cons] at hd
    rw [List.foldl_cons, ih h.2]
    · rw [set_of_notMem hd.1, List.append_assoc, List.singleton_append]
    · intro e' he'
      rw [mem_keys_set_iff, not_or]
      exact ⟨fun hk => h.1 (hk ▸ List.mem_map_of_mem he'), hd.2 e' he'⟩

/-- An item is the one that is set, or was there. -/
theorem mem_set {e : κ × ν} (h : e ∈ d.set k v) : e = (k, v) ∨ e ∈ d := by
  rw [set] at h
  split_ifs at h
  · obtain ⟨e', he', rfl⟩ := List.mem_map.1 h
    split_ifs
    · exact .inl rfl
    · exact .inr he'
  · exact (List.mem_append.1 h).symm.imp_left List.mem_singleton.1

theorem mem_set_self : (k, v) ∈ d.set k v := by
  rw [set]
  split_ifs with h
  · obtain ⟨e, he, hk⟩ := List.mem_map.1 h
    exact List.mem_map.2 ⟨e, he, if_pos hk⟩
  · simp

theorem mem_set_of_ne {e : κ × ν} (h : e ∈ d) (hk : e.1 ≠ k) : e ∈ d.set k v := by
  rw [set]
  split_ifs
  · exact List.mem_map.2 ⟨e, h, if_neg hk⟩
  · exact List.mem_append_left _ h

/-- A dictionary has no other items than it was made of. -/
theorem mem_of_mem_ofPairs {pairs : List (κ × ν)} {e : κ × ν} (h : e ∈ ofPairs pairs) :
    e ∈ pairs := by
  have hfold : ∀ (pairs : List (κ × ν)) (d : Dict κ ν),
      e ∈ pairs.foldl (fun d e => d.set e.1 e.2) d → e ∈ pairs ∨ e ∈ d := by
    intro pairs
    induction pairs with
    | nil => exact fun _ h => .inr h
    | cons p pairs ih =>
      intro d h
      rcases ih _ h with h | h
      · exact .inl (List.mem_cons_of_mem _ h)
      · refine (mem_set h).imp_left ?_
        rintro rfl
        exact List.mem_cons_self
  exact (hfold pairs [] h).resolve_right List.not_mem_nil

theorem ofPairs_of_nodup {pairs : List (κ × ν)} (h : (pairs.map Prod.fst).Nodup) :
    ofPairs pairs = pairs :=
  foldl_set_of_nodup h (by simp)

/-- A loop that looks every key up among those before it finds them all distinct
    and new. -/
theorem nodup_step {α : Type*} {key : α → κ} {x : α} {xs : List α} :
    (key x ∉ d.map Prod.fst ∧
      (xs.map key).Nodup ∧ ∀ y ∈ xs, key y ∉ (d.set (key x) v).map Prod.fst) ↔
    ((x :: xs).map key).Nodup ∧ ∀ y ∈ x :: xs, key y ∉ d.map Prod.fst := by
  simp only [mem_keys_set_iff, List.map_cons, List.nodup_cons, List.forall_mem_cons, not_or]
  constructor
  · rintro ⟨hx, hnodup, hxs⟩
    refine ⟨⟨fun hmem => ?_, hnodup⟩, hx, fun y hy => (hxs y hy).2⟩
    obtain ⟨y, hy, hyx⟩ := List.mem_map.1 hmem
    exact (hxs y hy).1 hyx
  · rintro ⟨⟨hx, hnodup⟩, hxd, hxs⟩
    exact ⟨hxd, hnodup, fun y hy => ⟨fun hyx => hx (hyx ▸ List.mem_map_of_mem hy), hxs y hy⟩⟩

end Dict

end Yuviz.Python
