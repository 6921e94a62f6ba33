import Mathlib.Data.List.Infix
import Mathlib.Tactic.SplitIfs

/-!
# Searching a list

`cut sep s` cuts the list `s` at the first occurrence of `sep`, and `rcut sep s`
at the last one. A cut is determined by what it returns: the pieces, and that
`sep` occurs neither in the first piece nor across its end (`cut_eq_some`), so
that a list put together with a separator is cut there again.
-/

namespace Yuviz

variable {α : Type*} [DecidableEq α] {sep s a b : List α}

/-- The pieces of a list before and after the first occurrence of `sep`. -/
def cut (sep : List α) : List α → Option (List α × List α)
  | [] => if sep = [] then some ([], []) else none
  | x :: s =>
    if sep <+: x :: s then some ([], (x :: s).drop sep.length)
    else (cut sep s).map fun (a, b) => (x :: a, b)

/-- The pieces of a list before and after the last occurrence of `sep`. -/
def rcut (sep s : List α) : Option (List α × List α) :=
  (cut sep.reverse s.reverse).map fun (b, a) => (a.reverse, b.reverse)

theorem cut_eq_none (hsep : sep ≠ []) : cut sep s = none ↔ ¬sep <:+: s := by
  induction s with
  | nil => simp [cut, hsep]
  | cons x s ih =>
    rw [cut, List.infix_cons_iff]
    split_ifs with h
    · simp [h]
    · rw [Option.map_eq_none_iff, ih]
      simp [h]

theorem cut_eq_some (hsep : sep ≠ []) :
    cut sep s = some (a, b) ↔ s = a ++ sep ++ b ∧ ¬sep <:+: a ++ sep.dropLast := by
  -- Whether `sep` begins a list is decided before its last element, if more follow.
  have hshort : ¬sep <:+: sep.dropLast := fun h => by
    have := h.length_le
    have := List.length_pos_of_ne_nil hsep
    simp only [List.length_dropLast] at *
    omega
  have hbegins : ∀ x a b, sep <+: x :: (a ++ sep ++ b) ↔ sep <+: x :: (a ++ sep.dropLast) := by
    intro x a b
    have hp : x :: (a ++ sep.dropLast) <+: x :: (a ++ sep ++ b) := by
      rw [List.cons_prefix_cons, List.append_assoc, List.prefix_append_right_inj]
      exact ⟨rfl, (List.dropLast_prefix sep).trans (List.prefix_append sep b)⟩
    refine ⟨fun h => List.prefix_of_prefix_length_le h hp ?_, fun h => h.trans hp⟩
    simp only [List.length_cons, List.length_append, List.length_dropLast]
    omega
  induction s generalizing a b with
  | nil => simp [cut, hsep]
  | cons x s ih =>
    rw [cut]
    split_ifs with h
    · rw [Option.some.injEq, Prod.mk.injEq]
      refine ⟨fun ⟨ha, hb⟩ => ?_, fun ⟨hs, hn⟩ => ?_⟩
      · subst ha hb
        refine ⟨?_, by simpa using hshort⟩
        rw [List.nil_append]
        exact List.prefix_iff_eq_append.1 h |>.symm
      · rcases a with _ | ⟨y, a⟩
        · simp [hs]
        · rw [List.cons_append, List.cons_append, List.cons.injEq] at hs
          obtain ⟨rfl, rfl⟩ := hs
          exact absurd (List.infix_cons_iff.2 (.inl ((hbegins x a b).1 h))) hn
    · rw [Option.map_eq_some_iff]
      refine ⟨?_, fun ⟨hs, hn⟩ => ?_⟩
      · rintro ⟨⟨a', b'⟩, hcut, heq⟩
        obtain ⟨rfl, hn⟩ := ih.1 hcut
        obtain ⟨rfl, rfl⟩ := Prod.mk.inj heq
        refine ⟨rfl, ?_⟩
        rw [List.cons_append, List.infix_cons_iff, not_or]
        exact ⟨fun hp => h ((hbegins x a' b').2 hp), hn⟩
      · rcases a with _ | ⟨y, a⟩
        · rw [List.nil_append] at hs
          exact absurd (hs ▸ List.prefix_append sep b) h
        · rw [List.cons_append, List.cons_append, List.cons.injEq] at hs
          obtain ⟨rfl, rfl⟩ := hs
          rw [List.cons_append, List.infix_cons_iff, not_or] at hn
          exact ⟨(a, b), ih.2 ⟨rfl, hn.2⟩, rfl⟩

theorem rcut_eq_some (hsep : sep ≠ []) :
    rcut sep s = some (a, b) ↔ s = a ++ sep ++ b ∧ ¬sep <:+: sep.tail ++ b := by
  have hcut : rcut sep s = some (a, b) ↔
      cut sep.reverse s.reverse = some (b.reverse, a.reverse) := by
    rw [rcut, Option.map_eq_some_iff]
    constructor
    · rintro ⟨⟨b', a'⟩, h, heq⟩
      obtain ⟨rfl, rfl⟩ := Prod.mk.inj heq
      simpa using h
    · exact fun h => ⟨_, h, by simp⟩
  rw [hcut, cut_eq_some (by simpa using hsep), List.dropLast_reverse, ← List.reverse_append,
    ← List.reverse_append, List.reverse_inj, ← List.reverse_append, List.reverse_infix,
    List.append_assoc]

/-- Where the separator occurs first. -/
theorem cut_append (hsep : sep ≠ []) (h : ¬sep <:+: a ++ sep.dropLast) (b : List α) :
    cut sep (a ++ sep ++ b) = some (a, b) :=
  (cut_eq_some hsep).2 ⟨rfl, h⟩

/-- A separator of one element cuts where it comes first. -/
theorem cut_singleton {x : α} (h : x ∉ a) (b : List α) : cut [x] (a ++ x :: b) = some (a, b) := by
  have hinfix : ¬[x] <:+: a ++ [x].dropLast := by
    rwa [List.dropLast_singleton, List.append_nil, List.singleton_infix_iff]
  simpa using cut_append (List.cons_ne_nil x []) hinfix b

theorem cut_cons_of_not_prefix {x : α} (h : ¬sep <+: x :: s) :
    cut sep (x :: s) = (cut sep s).map fun p => (x :: p.1, p.2) :=
  if_neg h

/-- No occurrence begins with an element that `sep` does not begin with. -/
theorem cut_append_of_notMem {x : α} (h : x ∉ a) (b : List α) :
    cut (x :: sep) (a ++ b) = (cut (x :: sep) b).map fun p => (a ++ p.1, p.2) := by
  induction a with
  | nil => simp
  | cons y a ih =>
    rw [List.mem_cons, not_or] at h
    have hbegins : ¬x :: sep <+: y :: (a ++ b) := fun hp => h.1 (List.cons_prefix_cons.1 hp).1
    rw [List.cons_append, cut_cons_of_not_prefix hbegins, ih h.2, Option.map_map]
    rfl

/-- No occurrence begins after the last one. -/
theorem prefix_of_rcut (hsep : sep ≠ []) (h : rcut sep s = some (a, b)) {p t : List α}
    (hs : s = p ++ sep ++ t) : p <+: a := by
  obtain ⟨hs', hlast⟩ := (rcut_eq_some hsep).1 h
  rw [hs', List.append_assoc, List.append_assoc] at hs
  rcases List.append_eq_append_iff.1 hs with ⟨w, rfl, hw⟩ | ⟨w, rfl, -⟩
  · rcases w with _ | ⟨x, w⟩
    · rw [List.append_nil]
    · -- The occurrence would reach into what follows the last one.
      obtain ⟨y, sep', rfl⟩ := List.exists_cons_of_ne_nil hsep
      rw [List.cons_append, List.cons_append] at hw
      obtain ⟨-, htail⟩ := List.cons.inj hw
      exact absurd ⟨w, t, by rw [List.append_assoc, ← htail]; rfl⟩ hlast
  · exact List.prefix_append _ _

omit [DecidableEq α] in
/-- A list that is cut off ends before or behind an element of it. -/
theorem prefix_append_cons {x : α} {t : List α} (h : t <+: a ++ x :: b) :
    t <+: a ∨ ∃ t', t' <+: b ∧ t = a ++ x :: t' := by
  rcases Nat.lt_or_ge a.length t.length with hlt | hle
  · right
    have hsingle : a ++ x :: b = a ++ [x] ++ b := by simp
    rw [hsingle] at h
    obtain ⟨t', rfl⟩ := List.prefix_of_prefix_length_le (List.prefix_append (a ++ [x]) b) h
      (by simpa using Nat.succ_le_of_lt hlt)
    exact ⟨t', (List.prefix_append_right_inj _).1 h, by simp⟩
  · exact .inl (List.prefix_of_prefix_length_le h (List.prefix_append a _) hle)

omit [DecidableEq α] in
/-- No occurrence spans an element that `sep` does not have. -/
theorem infix_append_cons {x : α} (hx : x ∉ sep) :
    sep <:+: a ++ x :: b ↔ sep <:+: a ∨ sep <:+: b := by
  refine ⟨?_, fun h => ?_⟩
  · rintro ⟨s, t, hst⟩
    rcases List.append_eq_append_iff.1 hst with ⟨u, ha, -⟩ | ⟨u, hs, htail⟩
    · exact .inl ⟨s, u, ha.symm⟩
    · rcases List.append_eq_append_iff.1 (by simpa using hs : s ++ sep = a ++ u) with
        ⟨v, ha, hv⟩ | ⟨v, hs', hu⟩
      · rcases u with _ | ⟨y, u⟩
        · exact .inl ⟨s, [], by simpa using hs⟩
        · obtain ⟨rfl, -⟩ := List.cons.inj htail
          exact absurd (hv ▸ by simp) hx
      · rcases v with _ | ⟨y, v⟩
        · rcases sep with _ | ⟨y, sep⟩
          · exact .inl List.nil_infix
          · rw [List.append_nil] at hs'
            subst hs'
            rw [hu, List.nil_append, List.cons_append] at htail
            exact absurd (List.cons.inj htail).1 fun h => hx (h ▸ List.mem_cons_self)
        · rw [hu] at htail
          obtain ⟨rfl, rfl⟩ := List.cons.inj htail
          exact .inr ⟨v, t, by simp⟩
  · rcases h with h | h
    · exact h.trans (List.prefix_append a _).isInfix
    · exact h.trans (((List.suffix_cons x b).trans (List.suffix_append a _)).isInfix)

omit [DecidableEq α] in
/-- Nor does one reach into elements that `sep` does not have. -/
theorem infix_append_of_forall_notMem (hsep : sep ≠ []) (ha : ∀ x ∈ a, x ∉ sep) :
    sep <:+: a ++ b ↔ sep <:+: b := by
  induction a with
  | nil => rfl
  | cons x a ih =>
    rw [List.forall_mem_cons] at ha
    have hnil : ¬sep <:+: [] := fun h => hsep (List.infix_nil.1 h)
    rw [List.cons_append, ← List.nil_append (x :: (a ++ b)), infix_append_cons ha.1, ih ha.2]
    simp [hnil]

omit [DecidableEq α] in
/-- Where two of the same meet in a list that is put together. -/
theorem pair_infix_append_iff {x : α} {u v : List α} :
    [x, x] <:+: u ++ v ↔ [x, x] <:+: u ∨ (u.getLast? = some x ∧ v.head? = some x) ∨
      [x, x] <:+: v := by
  have hprefix : ∀ c (t : List α), [x, x] <+: c :: t ↔ x = c ∧ t.head? = some x := by
    intro c t
    rw [List.cons_prefix_cons, List.singleton_prefix_iff_head?_eq_some]
  induction u with
  | nil => simp
  | cons c u ih =>
    simp only [List.cons_append, List.infix_cons_iff, hprefix, ih]
    rcases u with _ | ⟨d, u⟩
    · simp [@eq_comm α c x]
    · simp [or_assoc]

end Yuviz
