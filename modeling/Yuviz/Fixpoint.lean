import Mathlib.Algebra.BigOperators.Group.Finset.Basic
import Mathlib.Algebra.Order.BigOperators.Group.Finset
import Mathlib.Order.Monotone.Basic

/-!
# In-place iteration to a fixed point

A dataflow analysis keeps one value for each node, and goes through the nodes
again and again: it recomputes each value from those it has, some of them
recomputed in the same pass, and stops after a pass that changes none.

From values that only get smaller (`F a ≤ a`), for a monotone operator `F`, the
iteration stops, at a fixed point which is above everything that is at or below
the initial values and does not get smaller (`solve_spec`): the greatest one, in
whichever order the nodes are gone through.
-/

namespace Yuviz.InPlace

variable {ν β : Type*} [DecidableEq ν] [DecidableEq β] (F : (ν → β) → ν → β)

/-- Recomputes the value at `n`, and notes whether it changes. -/
def visit (s : (ν → β) × Bool) (n : ν) : (ν → β) × Bool :=
  if F s.1 n ≠ s.1 n then (Function.update s.1 n (F s.1 n), true) else s

/-- One pass through the nodes. -/
def pass (order : List ν) (a : ν → β) : (ν → β) × Bool := order.foldl (visit F) (a, false)

/-- Passes until one changes nothing; `none` when it takes more than it is given. -/
def solve (order : List ν) : ℕ → (ν → β) → Option (ν → β)
  | 0, _ => none
  | k + 1, a =>
    let (a', changed) := pass F order a
    if changed then solve order k a' else some a'

variable {F} {order : List ν} {a b c : ν → β} {s : (ν → β) × Bool} {n : ν}

/-- A change noted stays noted. -/
theorem foldl_visit_snd (h : s.2 = true) : (order.foldl (visit F) s).2 = true := by
  induction order generalizing s with
  | nil => exact h
  | cons n order ih =>
    refine ih ?_
    rw [visit]
    split_ifs
    · rfl
    · exact h

/-- A pass that notes no change leaves the values as they are, which are then those
    that are recomputed. -/
theorem foldl_visit_fixed (h : (order.foldl (visit F) s).2 = false) :
    order.foldl (visit F) s = s ∧ ∀ n ∈ order, F s.1 n = s.1 n := by
  induction order with
  | nil => simp
  | cons n order ih =>
    rw [List.foldl_cons] at h ⊢
    by_cases hn : F s.1 n = s.1 n
    · have hvisit : visit F s n = s := if_neg (not_not.2 hn)
      rw [hvisit] at h ⊢
      obtain ⟨heq, hfix⟩ := ih h
      exact ⟨heq, List.forall_mem_cons.2 ⟨hn, hfix⟩⟩
    · have hvisit : (visit F s n).2 = true := by
        rw [visit, if_pos hn]
      rw [foldl_visit_snd hvisit] at h
      cases h

variable [PartialOrder β]

/-- How the values get smaller: from `a` to `b`, not past what is below `a` and
    does not get smaller itself. -/
structure Descends (F : (ν → β) → ν → β) (a b : ν → β) : Prop where
  le : b ≤ a
  post : F b ≤ b
  lower : ∀ x, x ≤ F x → x ≤ a → x ≤ b

omit [DecidableEq ν] [DecidableEq β] in
theorem Descends.refl (h : F a ≤ a) : Descends F a a := ⟨le_rfl, h, fun _ _ hx => hx⟩

omit [DecidableEq ν] [DecidableEq β] in
theorem Descends.trans (h : Descends F a b) (h' : Descends F b c) : Descends F a c :=
  ⟨h'.le.trans h.le, h'.post, fun x hx hxa => h'.lower x hx (h.lower x hx hxa)⟩

omit [DecidableEq β] in
theorem Descends.update (hF : Monotone F) (h : F a ≤ a) (n : ν) :
    Descends F a (Function.update a n (F a n)) := by
  have hle : Function.update a n (F a n) ≤ a := by
    intro m
    rcases eq_or_ne m n with rfl | hm
    · rw [Function.update_self]
      exact h m
    · rw [Function.update_of_ne hm]
  refine ⟨hle, fun m => ?_, fun x hx hxa m => ?_⟩
  · -- What is recomputed from smaller values is smaller still.
    refine (hF hle m).trans ?_
    rcases eq_or_ne m n with rfl | hm
    · rw [Function.update_self]
    · rw [Function.update_of_ne hm]
      exact h m
  · rcases eq_or_ne m n with rfl | hm
    · rw [Function.update_self]
      exact (hx.trans (hF hxa)) m
    · rw [Function.update_of_ne hm]
      exact hxa m

theorem descends_visit (hF : Monotone F) (h : F s.1 ≤ s.1) (n : ν) :
    Descends F s.1 (visit F s n).1 := by
  rw [visit]
  split_ifs
  · exact .update hF h n
  · exact .refl h

theorem descends_foldl (hF : Monotone F) (h : F s.1 ≤ s.1) :
    Descends F s.1 (order.foldl (visit F) s).1 := by
  induction order generalizing s with
  | nil => exact .refl h
  | cons n order ih =>
    have hvisit := descends_visit hF h n
    exact hvisit.trans (ih hvisit.post)

variable {rank : β → ℕ}

/-- A change makes the values smaller, in a sum of their ranks. -/
theorem visit_lt (hrank : StrictMono rank) {U : Finset ν} (hn : n ∈ U) (hpost : F s.1 ≤ s.1)
    (h : F s.1 n ≠ s.1 n) : ∑ m ∈ U, rank ((visit F s n).1 m) < ∑ m ∈ U, rank (s.1 m) := by
  rw [visit, if_pos h]
  refine Finset.sum_lt_sum (fun m _ => ?_) ⟨n, hn, ?_⟩
  · rcases eq_or_ne m n with rfl | hm
    · simpa using hrank.monotone (hpost m)
    · simp [hm]
  · simpa using hrank (lt_of_le_of_ne (hpost n) h)

theorem foldl_visit_lt (hrank : StrictMono rank) (hF : Monotone F) {U : Finset ν}
    (hU : ∀ n ∈ order, n ∈ U) (hpost : F s.1 ≤ s.1)
    (h : s.2 = false) (h' : (order.foldl (visit F) s).2 = true) :
    ∑ m ∈ U, rank ((order.foldl (visit F) s).1 m) < ∑ m ∈ U, rank (s.1 m) := by
  induction order with
  | nil =>
    rw [List.foldl_nil, h] at h'
    cases h'
  | cons n order ih =>
    rw [List.forall_mem_cons] at hU
    rw [List.foldl_cons] at h' ⊢
    by_cases hn : F s.1 n = s.1 n
    · have hvisit : visit F s n = s := if_neg (not_not.2 hn)
      rw [hvisit] at h' ⊢
      exact ih hU.2 h'
    · -- The first change is what makes the values smaller; the rest of the pass
      -- does not make them larger again.
      have hrest : (order.foldl (visit F) (visit F s n)).1 ≤ (visit F s n).1 :=
        (descends_foldl hF (descends_visit hF hpost n).post).le
      exact (Finset.sum_le_sum fun m _ => hrank.monotone (hrest m)).trans_lt
        (visit_lt hrank hU.1 hpost hn)

/-- The iteration stops, at the greatest fixed point below the initial values. -/
theorem solve_spec (hrank : StrictMono rank) (hF : Monotone F) (hpost : F a ≤ a) {k : ℕ}
    (hk : ∑ n ∈ order.toFinset, rank (a n) < k) :
    ∃ b, solve F order k a = some b ∧ Descends F a b ∧ ∀ n ∈ order, F b n = b n := by
  induction k generalizing a with
  | zero => omega
  | succ k ih =>
    rw [solve]
    rcases hpass : pass F order a with ⟨a', changed⟩
    rw [pass] at hpass
    have hdescends : Descends F a (order.foldl (visit F) (a, false)).1 :=
      descends_foldl (s := (a, false)) hF hpost
    rw [hpass] at hdescends
    rcases changed with _ | _
    · obtain ⟨heq, hfix⟩ := foldl_visit_fixed (congrArg Prod.snd hpass)
      rw [heq] at hpass
      obtain rfl := congrArg Prod.fst hpass
      exact ⟨a, rfl, hdescends, hfix⟩
    · have hlt := foldl_visit_lt hrank hF (fun n => List.mem_toFinset.2) hpost rfl
        (congrArg Prod.snd hpass)
      rw [hpass] at hlt
      obtain ⟨b, hb, hdescends', hfix⟩ := ih hdescends.post (hlt.trans_le (Nat.lt_succ_iff.1 hk))
      exact ⟨b, hb, hdescends.trans hdescends', hfix⟩

end Yuviz.InPlace
