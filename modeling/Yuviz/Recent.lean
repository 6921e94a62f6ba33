import Mathlib.Data.List.DropRight

/-!
# The latest of a list

Where the elements of a list that pass a test come after those that do not, as the
recent ones of a list in order of time do, taking the elements that pass is dropping
the others from the front, and commutes with taking the last `n`.
-/

namespace Yuviz.Recent

variable {α : Type*} {l a b : List α} {p : α → Bool} {n : ℕ} {x : α}

/-- An element that passes is not followed by one that does not. -/
def Latest (p : α → Bool) (l : List α) : Prop := l.Pairwise fun x y => p x → p y

theorem length_rtake_le : (l.rtake n).length ≤ n := by
  rw [List.rtake, List.length_drop]
  omega

theorem rtake_of_length_le (h : l.length ≤ n) : l.rtake n = l := by
  rw [List.rtake, Nat.sub_eq_zero_of_le h, List.drop_zero]

theorem rtake_rtake_of_le {m : ℕ} (h : m ≤ n) : (l.rtake n).rtake m = l.rtake m := by
  rw [List.rtake, List.rtake, List.rtake, List.drop_drop, List.length_drop]
  congr 1
  omega

theorem rtake_append_of_le (h : n ≤ b.length) : (a ++ b).rtake n = b.rtake n := by
  rw [List.rtake, List.rtake, List.length_append, Nat.add_sub_assoc h, List.drop_append,
    List.drop_eq_nil_of_le (Nat.le_add_right _ _), List.nil_append, Nat.add_sub_cancel_left]

theorem rtake_append : (a ++ b).rtake n = a.rtake (n - b.length) ++ b.rtake n := by
  rcases Nat.le_total n b.length with h | h
  · rw [rtake_append_of_le h, Nat.sub_eq_zero_of_le h, List.rtake_zero, List.nil_append]
  · have hsub : a.length + b.length - n = a.length - (n - b.length) := by omega
    rw [rtake_of_length_le h, List.rtake, List.rtake, List.length_append, hsub,
      List.drop_append_of_le_length (Nat.sub_le _ _)]

/-- What comes before the last `n` does not matter when more is added. -/
theorem rtake_rtake_append : (a.rtake n ++ b).rtake n = (a ++ b).rtake n := by
  rw [rtake_append, rtake_append, rtake_rtake_of_le (Nat.sub_le _ _)]

/-- A list with the ones that pass at its end. -/
theorem Latest.exists_append (h : Latest p l) :
    ∃ a b, l = a ++ b ∧ (∀ x ∈ a, p x = false) ∧ ∀ x ∈ b, p x := by
  induction l with
  | nil => exact ⟨[], [], rfl, nofun, nofun⟩
  | cons x l ih =>
    obtain ⟨hx, hl⟩ := List.pairwise_cons.1 h
    by_cases hp : p x
    · exact ⟨[], x :: l, rfl, nofun, List.forall_mem_cons.2 ⟨hp, fun y hy => hx y hy hp⟩⟩
    · obtain ⟨a, b, rfl, ha, hb⟩ := ih hl
      exact ⟨x :: a, b, rfl, List.forall_mem_cons.2 ⟨by simpa using hp, ha⟩, hb⟩

theorem filter_append_of (ha : ∀ x ∈ a, p x = false) (hb : ∀ x ∈ b, p x) :
    (a ++ b).filter p = b := by
  rw [List.filter_append, List.filter_eq_self.2 hb, List.filter_eq_nil_iff.2, List.nil_append]
  exact fun x hx => by simp [ha x hx]

theorem Latest.dropWhile_eq (h : Latest p l) : l.dropWhile (fun x => !p x) = l.filter p := by
  obtain ⟨a, b, rfl, ha, hb⟩ := h.exists_append
  rw [filter_append_of ha hb, List.dropWhile_append_of_pos fun x hx => by simp [ha x hx]]
  cases b with
  | nil => rfl
  | cons x b => rw [List.dropWhile_cons_of_neg (by simp [hb x List.mem_cons_self])]

theorem Latest.filter_rtake (h : Latest p l) : (l.rtake n).filter p = (l.filter p).rtake n := by
  obtain ⟨a, b, rfl, ha, hb⟩ := h.exists_append
  rw [rtake_append, filter_append_of ha hb, filter_append_of]
  · exact fun x hx => ha x (List.mem_of_mem_drop hx)
  · exact fun x hx => hb x (List.mem_of_mem_drop hx)

/-- Where the last element does not pass, none does. -/
theorem Latest.filter_eq_nil (h : Latest p l) (hlast : ∀ x ∈ l.getLast?, p x = false) :
    l.filter p = [] := by
  obtain ⟨a, b, rfl, ha, hb⟩ := h.exists_append
  rw [filter_append_of ha hb]
  cases b using List.reverseRecOn with
  | nil => rfl
  | append_singleton b x =>
    have hx := hb x (by simp)
    rw [hlast x (by simp [← List.append_assoc])] at hx
    cases hx

end Yuviz.Recent
