import Mathlib.Data.List.Sort
import Mathlib.Data.List.Count
import Mathlib.Data.List.Perm.Basic

/-!
# The best of a list

The `k` best elements of a list by a score are the first `k` in some order of the list by
score, the best first, where equal ones stand as they may (`Best`). The best of the elements
with a score of at least some bound are those of the best that have it (`Best.filter`), and
the best of several lists are the best of the best of each (`Best.flatMap`).
-/

namespace Yuviz

variable {α β ι S : Type*} [LinearOrder S] {score : α → S} {k : ℕ} {xs best : List α}

/-- The best come first. -/
def Ranked (score : α → S) (xs : List α) : Prop := xs.Pairwise fun x y => score y ≤ score x

/-- The best `k`, the best first. -/
def Best (score : α → S) (k : ℕ) (xs best : List α) : Prop :=
  ∃ ranked, ranked.Perm xs ∧ Ranked score ranked ∧ best = ranked.take k

/-- A stable sort, the best first. -/
def rank (score : α → S) (xs : List α) : List α :=
  xs.insertionSort fun x y => score y ≤ score x

theorem perm_rank (score : α → S) (xs : List α) : (rank score xs).Perm xs :=
  List.perm_insertionSort _ _

theorem ranked_rank (score : α → S) (xs : List α) : Ranked score (rank score xs) := by
  have htotal : Std.Total fun x y => score y ≤ score x := ⟨fun x y => le_total _ _⟩
  have htrans : IsTrans α fun x y => score y ≤ score x := ⟨fun x y z hxy hyz => hyz.trans hxy⟩
  exact List.pairwise_insertionSort _ _

/-- The best are ranked, what is left is no better, and nothing is left if they are less
    than `k`. -/
theorem best_iff : Best score k xs best ↔
    ∃ rest, (best ++ rest).Perm xs ∧ Ranked score best ∧
      (∀ x ∈ best, ∀ y ∈ rest, score y ≤ score x) ∧
      best.length ≤ k ∧ (best.length < k → rest = []) := by
  constructor
  · rintro ⟨ranked, hperm, hranked, rfl⟩
    rw [← List.take_append_drop k ranked, Ranked, List.pairwise_append] at hranked
    refine ⟨ranked.drop k, by rwa [List.take_append_drop], hranked.1, hranked.2.2,
      List.length_take_le _ _, fun hlt => ?_⟩
    rw [List.drop_eq_nil_iff]
    rw [List.length_take] at hlt
    omega
  · rintro ⟨rest, hperm, hranked, hle, hlength, hrest⟩
    refine ⟨best ++ rank score rest, ?_, ?_, ?_⟩
    · exact ((perm_rank score rest).append_left best).trans hperm
    · refine List.pairwise_append.2 ⟨hranked, ranked_rank score rest, fun x hx y hy => ?_⟩
      exact hle x hx y ((perm_rank score rest).mem_iff.1 hy)
    · rcases hlength.lt_or_eq with hlt | heq
      · rw [hrest hlt]
        simp [rank, List.take_of_length_le hlength]
      · rw [← heq, List.take_left]

theorem Best.perm {ys : List α} (h : Best score k xs best) (hperm : xs.Perm ys) :
    Best score k ys best := by
  obtain ⟨ranked, hranked, h⟩ := h
  exact ⟨ranked, hranked.trans hperm, h⟩

/-- There are none if there is none to choose from, or none is asked for. -/
theorem Best.eq_nil_iff (h : Best score k xs best) : best = [] ↔ xs = [] ∨ k = 0 := by
  obtain ⟨ranked, hperm, -, rfl⟩ := h
  rw [List.take_eq_nil_iff, or_comm]
  refine or_congr_left ⟨fun hnil => ?_, fun hnil => ?_⟩
  · exact (hnil ▸ hperm).nil_eq.symm
  · exact (hnil ▸ hperm).eq_nil

theorem Best.map (score : β → S) {f : α → β} (h : Best (score ∘ f) k xs best) :
    Best score k (xs.map f) (best.map f) := by
  obtain ⟨ranked, hperm, hranked, rfl⟩ := h
  exact ⟨ranked.map f, hperm.map f, List.pairwise_map.2 hranked, List.map_take⟩

theorem Ranked.filter_take {ranked : List α} (h : Ranked score ranked) (bound : S) (k : ℕ) :
    (ranked.take k).filter (fun x => decide (bound ≤ score x)) =
      (ranked.filter fun x => decide (bound ≤ score x)).take k := by
  induction ranked generalizing k with
  | nil => simp
  | cons x ranked ih =>
    obtain ⟨hx, hranked⟩ := List.pairwise_cons.1 h
    cases k with
    | zero => simp
    | succ k =>
      by_cases hbound : bound ≤ score x
      · simp only [List.take_succ_cons, List.filter_cons, hbound, decide_true, if_true,
          ih hranked]
      · -- none of those that follow has the score either
        have hnone : ∀ y ∈ ranked, ¬ bound ≤ score y := fun y hy hle =>
          hbound (hle.trans (hx y hy))
        have htake : ∀ y ∈ ranked.take k, ¬ bound ≤ score y := fun y hy =>
          hnone y (List.mem_of_mem_take hy)
        simp only [List.take_succ_cons, List.filter_cons, hbound, decide_false,
          Bool.false_eq_true, if_false]
        rw [List.filter_eq_nil_iff.2 (by simpa using htake),
          List.filter_eq_nil_iff.2 (by simpa using hnone), List.take_nil]

theorem Best.filter (h : Best score k xs best) (bound : S) :
    Best score k (xs.filter fun x => decide (bound ≤ score x))
      (best.filter fun x => decide (bound ≤ score x)) := by
  obtain ⟨ranked, hperm, hranked, rfl⟩ := h
  exact ⟨_, hperm.filter _, hranked.sublist List.filter_sublist, hranked.filter_take bound k⟩

/-- What is as good as some `k` elements of a list, or better, is no worse than what is left
    of its best. -/
theorem Ranked.le_of_subperm {ranked good : List α} (h : Ranked score ranked)
    (hgood : good.Subperm ranked) (hlength : k ≤ good.length) {bound : S}
    (hbound : ∀ x ∈ good, bound ≤ score x) {x : α} (hx : x ∈ ranked.take k) :
    bound ≤ score x := by
  by_contra hlt
  rw [not_le] at hlt
  -- the good ones are all better than `x`, and there are less than `k` of those
  let p : α → Bool := fun y => decide (score x < score y)
  have hall : good.countP p = good.length :=
    List.countP_eq_length.2 fun y hy => decide_eq_true (hlt.trans_le (hbound y hy))
  have hdrop : (ranked.drop k).countP p = 0 := by
    rw [← List.take_append_drop k ranked, Ranked, List.pairwise_append] at h
    exact List.countP_eq_zero.2 fun y hy => by simpa [p] using h.2.2 x hx y hy
  have htake : (ranked.take k).countP p < (ranked.take k).length :=
    List.countP_lt_length_iff.2 ⟨x, hx, by simp [p]⟩
  have hcount := hgood.countP_le p
  rw [hall, ← List.take_append_drop k ranked, List.countP_append, hdrop] at hcount
  have := List.length_take_le k ranked
  omega

/-- The best of several lists. -/
theorem Best.flatMap {is : List ι} {xs best : ι → List α}
    (h : ∀ i ∈ is, Best score k (xs i) (best i)) :
    Best score k (is.flatMap xs) ((rank score (is.flatMap best)).take k) := by
  have hrest : ∀ i, ∃ rest, i ∈ is → (best i ++ rest).Perm (xs i) ∧
      (∀ x ∈ best i, ∀ y ∈ rest, score y ≤ score x) ∧
      ((best i).length < k → rest = []) := by
    intro i
    by_cases hi : i ∈ is
    · obtain ⟨rest, hperm, -, hle, -, hnil⟩ := best_iff.1 (h i hi)
      exact ⟨rest, fun _ => ⟨hperm, hle, hnil⟩⟩
    · exact ⟨[], fun hi' => absurd hi' hi⟩
  choose rest hrest using hrest
  have hranked := ranked_rank score (is.flatMap best)
  have hperm := perm_rank score (is.flatMap best)
  have hsub : ∀ i ∈ is, (best i).Subperm (rank score (is.flatMap best)) := by
    intro i hi
    refine List.Subperm.trans ?_ hperm.symm.subperm
    exact (List.sublist_flatten_of_mem (List.mem_map_of_mem hi)).subperm
  generalize rank score (is.flatMap best) = all at hranked hperm hsub ⊢
  refine best_iff.2 ⟨all.drop k ++ is.flatMap rest, ?_, hranked.sublist (List.take_sublist _ _),
    fun x hx y hy => ?_, List.length_take_le _ _, fun hlt => ?_⟩
  · rw [← List.append_assoc, List.take_append_drop]
    calc (all ++ is.flatMap rest).Perm (is.flatMap best ++ is.flatMap rest) :=
          hperm.append_right _
      _ |>.Perm (is.flatMap fun i => best i ++ rest i) := List.flatMap_append_perm _ _ _
      _ |>.Perm (is.flatMap xs) := List.Perm.flatMap_left is fun i hi => (hrest i hi).1
  · rcases List.mem_append.1 hy with hy | hy
    · rw [← List.take_append_drop k all, Ranked, List.pairwise_append] at hranked
      exact hranked.2.2 x hx y hy
    · obtain ⟨i, hi, hyi⟩ := List.mem_flatMap.1 hy
      obtain ⟨-, hle, hnil⟩ := hrest i hi
      refine hranked.le_of_subperm (hsub i hi) ?_ (fun z hz => hle z hz y hyi) hx
      by_contra hlt
      rw [hnil (not_le.1 hlt)] at hyi
      cases hyi
  · rw [List.length_take] at hlt
    have hnone : is.flatMap rest = [] := List.flatMap_eq_nil_iff.2 fun i hi =>
      (hrest i hi).2.2 (by have := (hsub i hi).length_le; omega)
    rw [hnone, List.append_nil, List.drop_eq_nil_iff]
    omega

end Yuviz
