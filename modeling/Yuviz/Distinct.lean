import Mathlib.Data.List.Basic

/-!
# Claims of distinct keys

The entries of a list claim keys, such as locks, identifiers or addresses, and
no two of them the same: what a change to one entry has to meet to keep it so.
-/

namespace Yuviz

variable {α κ : Type*} {l : List α} {f : α → Option κ} {p : ℕ} {x y : α}

/-- The entries of a list one of which is changed. -/
theorem getElem?_set_eq_some {q : ℕ} {z : α} (h : (l.set p y)[q]? = some z) :
    q = p ∧ z = y ∨ q ≠ p ∧ l[q]? = some z := by
  rcases eq_or_ne q p with rfl | hne
  · have hlt : q < l.length := by
      have := (List.getElem?_eq_some_iff.1 h).1
      rwa [List.length_set] at this
    rw [List.getElem?_set_self hlt] at h
    exact .inl ⟨rfl, (Option.some.inj h).symm⟩
  · rw [List.getElem?_set_ne hne.symm] at h
    exact .inr ⟨hne, h⟩

/-- The entries of a list with one more. -/
theorem getElem?_concat_eq_some {q : ℕ} {z : α} (h : (l ++ [y])[q]? = some z) :
    z = y ∨ l[q]? = some z := by
  rcases Nat.lt_or_ge q l.length with hlt | hge
  · exact .inr (by rwa [List.getElem?_append_left hlt] at h)
  · rw [List.getElem?_append_right hge] at h
    exact .inl (List.mem_singleton.1 (List.mem_of_getElem? h))

theorem modify_eq_set {f : α → α} (h : l[p]? = some x) : l.modify p f = l.set p (f x) := by
  refine List.ext_getElem? fun q => ?_
  rw [List.getElem?_modify]
  rcases eq_or_ne p q with rfl | hne
  · rw [List.getElem?_set_self (List.getElem?_eq_some_iff.1 h).1, h]
    simp
  · rw [List.getElem?_set_ne hne]
    simp [hne]

/-- Where one element becomes another, the counts change as these two say. -/
theorem countP_set_of_eq {c : α → Bool} (h : l[p]? = some x) (hc : c y = c x) :
    (l.set p y).countP c = l.countP c := by
  obtain ⟨hlt, rfl⟩ := List.getElem?_eq_some_iff.1 h
  have hle := List.boole_getElem_le_countP (p := c) hlt
  rw [List.countP_set hlt, hc]
  omega

theorem countP_set_of_true {c : α → Bool} (h : l[p]? = some x) (hx : c x = false)
    (hy : c y = true) : (l.set p y).countP c = l.countP c + 1 := by
  obtain ⟨hlt, rfl⟩ := List.getElem?_eq_some_iff.1 h
  simp [List.countP_set hlt, hx, hy]

theorem countP_set_of_false {c : α → Bool} (h : l[p]? = some x) (hx : c x = true)
    (hy : c y = false) : (l.set p y).countP c + 1 = l.countP c := by
  obtain ⟨hlt, rfl⟩ := List.getElem?_eq_some_iff.1 h
  have hpos : 0 < l.countP c := List.countP_pos_iff.2 ⟨_, List.getElem_mem hlt, hx⟩
  rw [List.countP_set hlt, hx, hy]
  simp only [if_true, Bool.false_eq_true, if_false]
  omega

theorem map_set_of_eq {β : Type*} {f : α → β} (h : l[p]? = some x) (hf : f y = f x) :
    (l.set p y).map f = l.map f := by
  induction l generalizing p with
  | nil => rfl
  | cons z l ih =>
    cases p with
    | zero =>
      obtain rfl := Option.some.inj h
      rw [List.set_cons_zero, List.map_cons, List.map_cons, hf]
    | succ p => rw [List.set_cons_succ, List.map_cons, List.map_cons, ih h]

/-- An element that is not looked at may become another one. -/
theorem filter_set_of_false {c : α → Bool} (h : l[p]? = some x) (hx : c x = false)
    (hy : c y = false) : (l.set p y).filter c = l.filter c := by
  induction l generalizing p with
  | nil => rfl
  | cons z l ih =>
    cases p with
    | zero =>
      obtain rfl := Option.some.inj h
      rw [List.set_cons_zero, List.filter_cons_of_neg (by simp [hy]),
        List.filter_cons_of_neg (by simp [hx])]
    | succ p => rw [List.set_cons_succ, List.filter_cons, List.filter_cons, ih h]

theorem find?_set_of_false {c : α → Bool} (h : l[p]? = some x) (hx : c x = false)
    (hy : c y = false) : (l.set p y).find? c = l.find? c := by
  rw [← List.head?_filter, ← List.head?_filter, filter_set_of_false h hx hy]

theorem filter_set_of_singleton {c : α → Bool} {z : α} (hl : l.filter c = [z])
    (h : l[p]? = some x) (hx : c x = true) (hy : c y = true) :
    z = x ∧ (l.set p y).filter c = [y] := by
  induction l generalizing p with
  | nil => cases hl
  | cons w l ih =>
    cases p with
    | zero =>
      obtain rfl := Option.some.inj h
      rw [List.filter_cons_of_pos hx] at hl
      obtain ⟨rfl, hnil⟩ := List.cons.inj hl
      rw [List.set_cons_zero, List.filter_cons_of_pos hy, hnil]
      exact ⟨rfl, rfl⟩
    | succ p =>
      cases hw : c w with
      | true =>
        rw [List.filter_cons_of_pos hw] at hl
        have hmem : x ∈ l.filter c := List.mem_filter.2 ⟨List.mem_of_getElem? h, hx⟩
        rw [(List.cons.inj hl).2] at hmem
        cases hmem
      | false =>
        rw [List.filter_cons_of_neg (by simp [hw])] at hl
        rw [List.set_cons_succ, List.filter_cons_of_neg (by simp [hw])]
        exact ih hl h

/-- No two entries claim the same key. -/
def Distinct (l : List α) (f : α → Option κ) : Prop :=
  ∀ (p q : ℕ) x y k, l[p]? = some x → l[q]? = some y → f x = some k → f y = some k → p = q

/-- The entry `x` at `p` may become `y`: a key it did not claim before is one
    that no other entry does. -/
def Claims (l : List α) (f : α → Option κ) (p : ℕ) (x y : α) : Prop :=
  ∀ k, f y = some k → f x = some k ∨ ∀ (q : ℕ) z, l[q]? = some z → q ≠ p → f z ≠ some k

/-- A claim that is kept is one, -/
theorem Claims.of_eq (h : f y = f x) : Claims l f p x y := fun _ hk => .inl (h ▸ hk)

/-- and so is none. -/
theorem Claims.of_eq_none (h : f y = none) : Claims l f p x y := by
  intro k hk
  rw [h] at hk
  cases hk

theorem Distinct.nil : Distinct [] f := by
  intro p q x y k hp
  simp at hp

/-- A new entry claims a key that no other does. -/
theorem Distinct.concat (h : Distinct l f)
    (hx : ∀ k, f x = some k → ∀ (q : ℕ) y, l[q]? = some y → f y ≠ some k) :
    Distinct (l ++ [x]) f := by
  have hcase {q : ℕ} {y : α} (hq : (l ++ [x])[q]? = some y) :
      l[q]? = some y ∨ q = l.length ∧ y = x := by
    rcases Nat.lt_or_ge q l.length with hlt | hge
    · exact .inl (by rwa [List.getElem?_append_left hlt] at hq)
    · have hq' := hq
      rw [List.getElem?_append_right hge] at hq'
      have hlt := (List.getElem?_eq_some_iff.1 hq').1
      rw [List.length_singleton] at hlt
      exact .inr ⟨by omega, List.mem_singleton.1 (List.mem_of_getElem? hq')⟩
  intro p q y z k hp hq hy hz
  rcases hcase hp with hp' | ⟨hp', rfl⟩
  · rcases hcase hq with hq' | ⟨-, rfl⟩
    · exact h p q y z k hp' hq' hy hz
    · exact absurd hy (hx k hz p y hp')
  · rcases hcase hq with hq' | ⟨hq', rfl⟩
    · exact absurd hz (hx k hy q z hq')
    · rw [hp', hq']

/-- An element without a claim may be added, -/
theorem Distinct.append (h : Distinct l f) (hx : f x = none) : Distinct (l ++ [x]) f :=
  h.concat fun k hk => by cases hx.symm.trans hk

/-- and one may claim what no other has. -/
theorem Distinct.set (h : Distinct l f) (hp : l[p]? = some x) (hy : Claims l f p x y) :
    Distinct (l.set p y) f := by
  have hother (q : ℕ) (z : α) (k : κ) (hq : l[q]? = some z) (hne : q ≠ p)
      (hz : f z = some k) (hk : f y = some k) : False := by
    rcases hy k hk with hx | hfresh
    · exact hne (h q p z x k hq hp hz hx)
    · exact hfresh q z hq hne hz
  intro q r z w k hq hr hz hw
  rcases getElem?_set_eq_some hq with ⟨rfl, rfl⟩ | ⟨hqp, hq'⟩ <;>
    rcases getElem?_set_eq_some hr with ⟨rfl, rfl⟩ | ⟨hrp, hr'⟩
  · rfl
  · exact (hother r w k hr' hrp hw hz).elim
  · exact (hother q z k hq' hqp hz hw).elim
  · exact h q r z w k hq' hr' hz hw

end Yuviz
