import Yuviz.Python.Json

/-!
# What equality preserves

Values that are equal agree on everything but their text: on their truth, on what
`int` makes of them, on being a list or an object, and, for these, on their items.
-/

namespace Yuviz.Python.Json

variable {x y : Json} {xs ys : List Json} {fields fields' : List (String × Json)} {k : String}

/-- Both missing, or equal. -/
def OptionEq (x y : Option Json) : Prop := Option.Rel (fun x y => eq x y = true) x y

/-- Lists are equal if their items are, in order, -/
theorem eqItems_iff : eqItems xs ys = true ↔ List.Forall₂ (fun x y => eq x y = true) xs ys := by
  induction xs generalizing ys with
  | nil => rcases ys with _ | ⟨y, ys⟩ <;> simp [eqItems]
  | cons x xs ih => rcases ys with _ | ⟨y, ys⟩ <;> simp [eqItems, ih]

/-- and objects if each field of one has an equal one in the other. -/
theorem eqFields_iff : eqFields fields fields' = true ↔
    ∀ f ∈ fields, ∃ w, Dict.get? fields' f.1 = some w ∧ eq f.2 w = true := by
  induction fields with
  | nil => simp [eqFields]
  | cons f fields ih =>
    obtain ⟨k, v⟩ := f
    rw [eqFields, Bool.and_eq_true, ih, List.forall_mem_cons]
    rcases Dict.get? fields' k with _ | w <;> simp

theorem optionEq_get? (h : eq (.obj fields) (.obj fields') = true) (k : String) :
    OptionEq (Dict.get? fields k) (Dict.get? fields' k) := by
  rw [eq, Bool.and_eq_true, eqFields_iff] at h
  rcases hk : Dict.get? fields k with _ | v
  · have hk' : Dict.get? fields' k = none := by
      rw [Dict.get?_eq_none_iff] at hk ⊢
      intro hmem
      obtain ⟨f, hf, rfl⟩ := List.mem_map.1 hmem
      exact hk (by simpa using List.all_eq_true.1 h.2 f hf)
    rw [hk']
    exact .none
  · obtain ⟨w, hw, heq⟩ := h.1 _ (Dict.mem_of_get?_eq_some hk)
    rw [hw]
    exact .some heq

/-- What two equal values are. -/
theorem eq_cases (h : eq x y = true) :
    (x = .null ∧ y = .null) ∨ (∃ s, x = .str s ∧ y = .str s) ∨
    (∃ xs ys, x = .arr xs ∧ y = .arr ys ∧ List.Forall₂ (fun x y => eq x y = true) xs ys) ∨
    (∃ fields fields', x = .obj fields ∧ y = .obj fields') ∨
    (∃ v, x.number = some v ∧ y.number = some v) := by
  rw [eq.eq_def] at h
  split at h
  · exact .inl ⟨rfl, rfl⟩
  · exact .inr (.inl ⟨_, rfl, by rw [of_decide_eq_true h]⟩)
  · exact .inr (.inr (.inl ⟨_, _, rfl, rfl, eqItems_iff.1 h⟩))
  · exact .inr (.inr (.inr (.inl ⟨_, _, rfl, rfl⟩)))
  · rw [Bool.and_eq_true, decide_eq_true_eq] at h
    obtain ⟨v, hv⟩ := Option.isSome_iff_exists.1 h.1
    exact .inr (.inr (.inr (.inr ⟨v, hv, h.2 ▸ hv⟩)))

/-- What `int` makes of a number, given by its value. -/
def truncate : ℚ ⊕ Bool → Except IntError ℤ
  | .inl q => .ok (q.num.tdiv q.den)
  | .inr _ => .error .overflowError

theorem toInt_of_number {v : ℚ ⊕ Bool} (h : x.number = some v) : x.toInt = truncate v := by
  cases x with
  | bool b =>
    obtain rfl := Option.some.inj h
    cases b <;> rfl
  | int n =>
    obtain rfl := Option.some.inj h
    simp [toInt, truncate]
  | float value text =>
    obtain rfl := Option.some.inj h
    rcases value with q | b <;> rfl
  | _ => cases h

theorem truthy_of_number {v : ℚ ⊕ Bool} (h : x.number = some v) :
    x.truthy = decide (v ≠ .inl 0) := by
  cases x with
  | bool b =>
    obtain rfl := Option.some.inj h
    cases b <;> simp [truthy]
  | int n =>
    obtain rfl := Option.some.inj h
    simp [truthy]
  | float value text =>
    obtain rfl := Option.some.inj h
    rfl
  | _ => cases h

/-- Equal values are truthy alike, -/
theorem truthy_eq (h : eq x y = true) : x.truthy = y.truthy := by
  rcases eq_cases h with ⟨rfl, rfl⟩ | ⟨s, rfl, rfl⟩ | ⟨xs, ys, rfl, rfl, hitems⟩ |
    ⟨fields, fields', rfl, rfl⟩ | ⟨v, hx, hy⟩
  · rfl
  · rfl
  · cases hitems <;> rfl
  · rcases fields with _ | ⟨f, fields⟩ <;> rcases fields' with _ | ⟨f', fields'⟩
    · rfl
    · simp [eq, eqFields] at h
    · have := optionEq_get? h f.1
      simp [Dict.get?, OptionEq] at this
    · rfl
  · rw [truthy_of_number hx, truthy_of_number hy]

/-- and are the same number. -/
theorem toInt_eq (h : eq x y = true) : x.toInt = y.toInt := by
  rcases eq_cases h with ⟨rfl, rfl⟩ | ⟨s, rfl, rfl⟩ | ⟨xs, ys, rfl, rfl, h⟩ |
    ⟨fields, fields', rfl, rfl⟩ | ⟨v, hx, hy⟩
  · rfl
  · rfl
  · rfl
  · rfl
  · rw [toInt_of_number hx, toInt_of_number hy]

theorem get_eq (h : eq (.obj fields) (.obj fields') = true) (k : String) :
    eq (get fields k) (get fields' k) = true := by
  rw [get, get]
  have h := optionEq_get? h k
  revert h
  rcases Dict.get? fields k with _ | v <;> rcases Dict.get? fields' k with _ | w <;> intro h
  · rfl
  · cases h
  · cases h
  · cases h with
    | some h => exact h

/-- Only a string is equal to a string. -/
theorem eq_str_iff {s : String} : eq x (.str s) = true ↔ x = .str s := by
  cases x <;> simp [eq, number]

theorem str_eq_iff {s : String} : eq (.str s) x = true ↔ x = .str s := by
  cases x <;> simp [eq, number, eq_comm]

theorem eq_of_number {v : ℚ ⊕ Bool} (hx : x.number = some v) (hy : y.number = some v) :
    eq x y = true := by
  cases x <;> cases y <;> simp_all [eq, number]

theorem forall₂_trans {α : Type*} {R S T : α → α → Prop} {xs ys zs : List α}
    (h : List.Forall₂ R xs ys) (h' : List.Forall₂ S ys zs)
    (ht : ∀ x ∈ xs, ∀ y z, R x y → S y z → T x z) : List.Forall₂ T xs zs := by
  induction h generalizing zs with
  | nil =>
    obtain rfl := List.forall₂_nil_left_iff.1 h'
    exact .nil
  | cons hxy _ ih =>
    obtain ⟨z, zs, hyz, hrest, rfl⟩ := List.forall₂_cons_left_iff.1 h'
    exact .cons (ht _ List.mem_cons_self _ _ hxy hyz)
      (ih hrest fun x hx => ht x (List.mem_cons_of_mem _ hx))

theorem sizeOf_lt_arr (h : x ∈ xs) : sizeOf x < sizeOf (arr xs) := by
  have := List.sizeOf_lt_of_mem h
  simp only [arr.sizeOf_spec]
  omega

theorem sizeOf_lt_obj {f : String × Json} (h : f ∈ fields) : sizeOf f.2 < sizeOf (obj fields) := by
  have := List.sizeOf_lt_of_mem h
  obtain ⟨k, v⟩ := f
  simp only [obj.sizeOf_spec, Prod.mk.sizeOf_spec] at *
  omega

/-- Equality of values is transitive. -/
theorem eq_trans {x y z : Json} (hxy : eq x y = true) (hyz : eq y z = true) : eq x z = true := by
  induction hsize : sizeOf x using Nat.strong_induction_on generalizing x y z with
  | _ n ih =>
    subst hsize
    rcases eq_cases hxy with ⟨rfl, rfl⟩ | ⟨s, rfl, rfl⟩ | ⟨xs, ys, rfl, rfl, hitems⟩ |
      ⟨fields, fields', rfl, rfl⟩ | ⟨v, hx, hy⟩
    · exact hyz
    · exact hyz
    · rcases eq_cases hyz with ⟨h, -⟩ | ⟨_, h, -⟩ | ⟨_, zs, h, rfl, hitems'⟩ | ⟨_, _, h, -⟩ |
        ⟨v, h, -⟩
      · cases h
      · cases h
      · obtain rfl := Json.arr.inj h
        rw [eq, eqItems_iff]
        exact forall₂_trans hitems hitems' fun x hx y z hxy hyz =>
          ih _ (sizeOf_lt_arr hx) hxy hyz rfl
      · cases h
      · cases h
    · rcases eq_cases hyz with ⟨h, -⟩ | ⟨_, h, -⟩ | ⟨_, _, h, -⟩ | ⟨_, fields'', h, rfl⟩ | ⟨v, h, -⟩
      · cases h
      · cases h
      · cases h
      · obtain rfl := Json.obj.inj h
        rw [eq, Bool.and_eq_true, eqFields_iff, List.all_eq_true] at hxy hyz ⊢
        refine ⟨fun f hf => ?_, fun f hf => ?_⟩
        · obtain ⟨w, hw, hfw⟩ := hxy.1 f hf
          obtain ⟨u, hu, hwu⟩ := hyz.1 _ (Dict.mem_of_get?_eq_some hw)
          exact ⟨u, hu, ih _ (sizeOf_lt_obj hf) hfw hwu rfl⟩
        · obtain ⟨f', hf', hname⟩ := List.mem_map.1 (of_decide_eq_true (hyz.2 f hf))
          exact hname ▸ hxy.2 f' hf'
      · cases h
    · rcases eq_cases hyz with ⟨rfl, -⟩ | ⟨_, rfl, -⟩ | ⟨_, _, rfl, -⟩ | ⟨_, _, rfl, -⟩ |
        ⟨w, hy', hz⟩
      · cases hy
      · cases hy
      · cases hy
      · cases hy
      · obtain rfl := Option.some.inj (hy.symm.trans hy')
        exact eq_of_number hx hz

theorem forall₂_symm {α : Type*} {R : α → α → Prop} {xs ys : List α} (h : List.Forall₂ R xs ys)
    (hs : ∀ x ∈ xs, ∀ y ∈ ys, R x y → R y x) : List.Forall₂ R ys xs := by
  induction h with
  | nil => exact .nil
  | cons hxy _ ih =>
    exact .cons (hs _ List.mem_cons_self _ List.mem_cons_self hxy)
      (ih fun x hx y hy => hs x (List.mem_cons_of_mem _ hx) y (List.mem_cons_of_mem _ hy))

/-- Equality is symmetric where no key comes twice, and no number is none: where the second value
    equals itself. -/
theorem eq_symm {x y : Json} (hself : eq y y = true) (h : eq x y = true) : eq y x = true := by
  induction hsize : sizeOf x using Nat.strong_induction_on generalizing x y with
  | _ n ih =>
    subst hsize
    rcases eq_cases h with ⟨rfl, rfl⟩ | ⟨s, rfl, rfl⟩ | ⟨xs, ys, rfl, rfl, hitems⟩ |
      ⟨fields, fields', rfl, rfl⟩ | ⟨v, hx, hy⟩
    · exact h
    · exact h
    · rw [eq, eqItems_iff, List.forall₂_same] at hself
      rw [eq, eqItems_iff]
      exact forall₂_symm hitems fun x hx y hy hxy => ih _ (sizeOf_lt_arr hx) (hself y hy) hxy rfl
    · have hget := optionEq_get? h
      rw [eq, Bool.and_eq_true, eqFields_iff, List.all_eq_true] at h hself ⊢
      refine ⟨fun f hf => ?_, fun f hf => ?_⟩
      · -- The entry equals the value its key has, which equals that of the other object.
        obtain ⟨w, hw, hfw⟩ := hself.1 f hf
        obtain ⟨w', hw', hww⟩ := hself.1 _ (Dict.mem_of_get?_eq_some hw)
        obtain rfl := Option.some.inj (hw.symm.trans hw')
        have hk := hget f.1
        rw [hw] at hk
        rcases hv : Dict.get? fields f.1 with _ | v
        · rw [hv] at hk
          cases hk
        · rw [hv] at hk
          cases hk with
          | some hk =>
            have hmem := Dict.mem_of_get?_eq_some hv
            exact ⟨v, rfl, eq_trans hfw (ih _ (sizeOf_lt_obj hmem) hww hk rfl)⟩
      · obtain ⟨w, hw, -⟩ := h.1 f hf
        have hmem := List.mem_map_of_mem (f := Prod.fst) (Dict.mem_of_get?_eq_some hw)
        exact decide_eq_true hmem
    · exact eq_of_number hy hx

end Yuviz.Python.Json
