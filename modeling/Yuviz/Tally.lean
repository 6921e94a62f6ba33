import Mathlib
import Yuviz.Python.Dict

/-!
# Dictionaries that count

A dictionary has, for each key, how many things of it there are, and no key that there
is nothing of: `Counts`. Things come and go one at a time. What is counted is a list, of
which each element is of one key or of none (`tally`).
-/

namespace Yuviz.Tally

open Python

variable {κ α : Type*} [DecidableEq κ]

/-- One more. -/
def increment (d : Dict κ ℕ) (k : κ) : Dict κ ℕ := d.set k ((d.get? k).getD 0 + 1)

/-- One less; the last one takes the key with it. -/
def decrement (d : Dict κ ℕ) (k : κ) : Dict κ ℕ :=
  if (d.get? k).getD 0 ≤ 1 then d.del k else d.set k ((d.get? k).getD 0 - 1)

def Counts (d : Dict κ ℕ) (n : κ → ℕ) : Prop :=
  ∀ k, d.get? k = if n k = 0 then none else some (n k)

variable {d : Dict κ ℕ} {n : κ → ℕ} {k : κ}

theorem counts_nil : Counts ([] : Dict κ ℕ) fun _ => 0 := fun _ => rfl

theorem Counts.getD_eq (h : Counts d n) (k : κ) : (d.get? k).getD 0 = n k := by
  rw [h k]
  split_ifs with hk
  · exact hk.symm
  · rfl

/-- An increment counts one more, -/
theorem Counts.increment (h : Counts d n) :
    Counts (increment d k) (Function.update n k (n k + 1)) := by
  intro k'
  rw [Tally.increment, Dict.get?_set, h.getD_eq]
  rcases eq_or_ne k' k with rfl | hk
  · rw [if_pos rfl, Function.update_self, if_neg (Nat.succ_ne_zero _)]
  · rw [if_neg hk, Function.update_of_ne hk, h k']

/-- and a decrement one less. -/
theorem Counts.decrement (h : Counts d n) :
    Counts (decrement d k) (Function.update n k (n k - 1)) := by
  intro k'
  rw [Tally.decrement, h.getD_eq]
  split_ifs with hle hzero hzero
  · rcases eq_or_ne k' k with rfl | hk
    · exact Dict.get?_del_self
    · rw [Function.update_of_ne hk] at hzero
      rw [Dict.get?_del_ne hk, h k', if_pos hzero]
  · rcases eq_or_ne k' k with rfl | hk
    · rw [Function.update_self] at hzero
      omega
    · rw [Function.update_of_ne hk] at hzero ⊢
      rw [Dict.get?_del_ne hk, h k', if_neg hzero]
  · rw [Dict.get?_set]
    rcases eq_or_ne k' k with rfl | hk
    · rw [Function.update_self] at hzero
      omega
    · rw [Function.update_of_ne hk] at hzero
      rw [if_neg hk, h k', if_pos hzero]
  · rw [Dict.get?_set]
    rcases eq_or_ne k' k with rfl | hk
    · rw [if_pos rfl, Function.update_self]
    · rw [Function.update_of_ne hk] at hzero ⊢
      rw [if_neg hk, h k', if_neg hzero]

/-! ### What is counted -/

/-- How many elements are of the key. -/
def tally (f : α → Option κ) (l : List α) (k : κ) : ℕ := l.countP fun a => f a = some k

variable {f : α → Option κ} {l : List α} {a b : α} {i : ℕ}

theorem tally_concat (h : f a = none) : tally f (l ++ [a]) = tally f l := by
  funext k
  rw [tally, List.countP_append, List.countP_singleton, h]
  rfl

/-- Where one element becomes another, it is counted for its new key. -/
theorem tally_set (h : l[i]? = some a) (k : κ) :
    tally f (l.set i b) k + (if f a = some k then 1 else 0) =
      tally f l k + if f b = some k then 1 else 0 := by
  obtain ⟨hi, rfl⟩ := List.getElem?_eq_some_iff.1 h
  have hle : f l[i] = some k → 0 < tally f l k := fun hk =>
    List.countP_pos_iff.2 ⟨_, List.getElem_mem hi, by simpa using hk⟩
  unfold tally at hle ⊢
  rw [List.countP_set hi]
  simp only [decide_eq_true_eq]
  by_cases ha : f l[i] = some k
  · have := hle ha
    rw [if_pos ha]
    omega
  · rw [if_neg ha]
    rfl

/-- The element is still of the key it was of, or of none. -/
theorem tally_set_of_eq (h : l[i]? = some a) (hb : f b = f a) :
    tally f (l.set i b) = tally f l := by
  funext k
  have := tally_set (f := f) (b := b) h k
  rw [hb] at this
  omega

theorem tally_set_of_some (h : l[i]? = some a) (ha : f a = none) (hb : f b = some k) :
    tally f (l.set i b) = Function.update (tally f l) k (tally f l k + 1) := by
  funext k'
  have := tally_set (f := f) (b := b) h k'
  rw [ha, hb, if_neg (by simp)] at this
  rcases eq_or_ne k' k with rfl | hk
  · rw [if_pos rfl] at this
    rw [Function.update_self, ← this]
    rfl
  · rw [if_neg fun h => hk (Option.some.inj h).symm] at this
    rw [Function.update_of_ne hk]
    exact this

theorem tally_set_of_none (h : l[i]? = some a) (ha : f a = some k) (hb : f b = none) :
    tally f (l.set i b) = Function.update (tally f l) k (tally f l k - 1) := by
  funext k'
  have := tally_set (f := f) (b := b) h k'
  rw [ha, hb, if_neg (by simp : ¬ none = some k')] at this
  rcases eq_or_ne k' k with rfl | hk
  · rw [if_pos rfl] at this
    rw [Function.update_self]
    omega
  · rw [if_neg fun h => hk (Option.some.inj h).symm] at this
    rw [Function.update_of_ne hk]
    exact this

end Yuviz.Tally
