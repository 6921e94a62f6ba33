import Mathlib.Algebra.BigOperators.Group.Finset.Basic
import Mathlib.Algebra.Order.BigOperators.Group.Finset
import Mathlib.Logic.Relation

/-!
# Walks through a graph

The walks from a node of a graph, given by its edge relation, and two things a
program finds out about them: the nodes they reach, by a search with a stack
(`dfs`), and what is inevitable on the way to a node (`Inevitable`).

`Inevitable` is a quantification over all walks. It is also the greatest
predicate which does not hold at the start and is passed on along the edges
(`Inevitable.pred`, `inevitable_of_forall_edge`), which is how it is computed.
-/

namespace Yuviz

variable {ν : Type*}

/-- The walks from `start`: one that leaves the nodes `l` in turn ends at `n`. -/
inductive Walk (E : ν → ν → Prop) (start : ν) : List ν → ν → Prop
  | nil : Walk E start [] start
  | snoc {l : List ν} {m n : ν} : Walk E start l m → E m n → Walk E start (l ++ [m]) n

/-- Every walk to `n` leaves, on its way, a node with the property `P`. -/
def Inevitable (E : ν → ν → Prop) (start : ν) (P : ν → Prop) (n : ν) : Prop :=
  ∀ l, Walk E start l n → ∃ m ∈ l, P m

section

variable {E : ν → ν → Prop} {start m n : ν} {l : List ν} {P : ν → Prop}

theorem exists_walk_iff : (∃ l, Walk E start l n) ↔ Relation.ReflTransGen E start n := by
  constructor
  · rintro ⟨l, h⟩
    induction h with
    | nil => rfl
    | snoc _ hE ih => exact ih.tail hE
  · intro h
    induction h with
    | refl => exact ⟨[], .nil⟩
    | tail _ hE ih =>
      obtain ⟨l, hl⟩ := ih
      exact ⟨_, hl.snoc hE⟩

theorem not_inevitable_start : ¬ Inevitable E start P start := by
  intro h
  obtain ⟨m, hm, -⟩ := h [] .nil
  exact List.not_mem_nil hm

/-- What is inevitable at a node is so at the node before it, unless it is that node. -/
theorem Inevitable.pred (h : Inevitable E start P n) (hE : E m n) :
    P m ∨ Inevitable E start P m := by
  by_cases hm : P m
  · exact .inl hm
  · refine .inr fun l hl => ?_
    obtain ⟨m', hm', hP⟩ := h _ (hl.snoc hE)
    rcases List.mem_append.1 hm' with hm' | hm'
    · exact ⟨m', hm', hP⟩
    · exact absurd (List.mem_singleton.1 hm' ▸ hP) hm

theorem inevitable_of_forall_edge {A : ν → Prop} (hstart : ¬ A start)
    (hedge : ∀ m n, Relation.ReflTransGen E start m → E m n → A n → P m ∨ A m) (hn : A n) :
    Inevitable E start P n := by
  intro l hl
  induction hl with
  | nil => exact absurd hn hstart
  | snoc hl hE ih =>
    rcases hedge _ _ (exists_walk_iff.1 ⟨_, hl⟩) hE hn with hm | hm
    · exact ⟨_, by simp, hm⟩
    · obtain ⟨m, hml, hP⟩ := ih hm
      exact ⟨m, List.mem_append_left _ hml, hP⟩

end

/-! ### Searching a graph with a stack -/

section

variable [DecidableEq ν] {next : ν → List ν} {start : ν}

/-- The nodes found from those of the stack, whose head is its top, and those
    seen so far; `none` when the search takes more steps than it is given. -/
def dfs (next : ν → List ν) : ℕ → List ν → Finset ν → Option (Finset ν)
  | _, [], seen => some seen
  | 0, _ :: _, _ => none
  | k + 1, n :: stack, seen =>
    if n ∈ seen then dfs next k stack seen
    else dfs next k ((next n).reverse ++ stack) (insert n seen)

/-- A search takes one step for each node it puts on the stack: once for each
    edge out of a node not yet seen. -/
theorem dfs_isSome {U : Finset ν} (hU : ∀ n ∈ U, ∀ m ∈ next n, m ∈ U) {k : ℕ} {stack : List ν}
    {seen : Finset ν} (hstack : ∀ n ∈ stack, n ∈ U)
    (hk : stack.length + ∑ n ∈ U \ seen, (next n).length ≤ k) : (dfs next k stack seen).isSome := by
  induction k generalizing stack seen with
  | zero =>
    rcases stack with _ | ⟨n, stack⟩
    · rfl
    · simp at hk
  | succ k ih =>
    rcases stack with _ | ⟨n, stack⟩
    · rfl
    · rw [List.forall_mem_cons] at hstack
      rw [List.length_cons] at hk
      rw [dfs]
      by_cases hn : n ∈ seen
      · rw [if_pos hn]
        exact ih hstack.2 (by omega)
      · rw [if_neg hn]
        refine ih (fun m hm => ?_) ?_
        · rcases List.mem_append.1 hm with hm | hm
          · exact hU n hstack.1 m (List.mem_reverse.1 hm)
          · exact hstack.2 m hm
        · have hsum := Finset.sum_erase_add (U \ seen) (fun n => (next n).length)
            (Finset.mem_sdiff.2 ⟨hstack.1, hn⟩)
          rw [← Finset.sdiff_insert] at hsum
          rw [List.length_append, List.length_reverse]
          omega

/-- What a search has found so far: nodes that are reached, among them the start,
    and whatever follows a node seen. -/
structure Searching (next : ν → List ν) (start : ν) (stack : List ν) (seen : Finset ν) : Prop where
  reached : ∀ n, n ∈ seen ∨ n ∈ stack → Relation.ReflTransGen (fun m n => n ∈ next m) start n
  start_mem : start ∈ seen ∨ start ∈ stack
  closed : ∀ m ∈ seen, ∀ n ∈ next m, n ∈ seen ∨ n ∈ stack

omit [DecidableEq ν] in
theorem Searching.mem_iff {seen : Finset ν} (h : Searching next start [] seen) (n : ν) :
    n ∈ seen ↔ Relation.ReflTransGen (fun m n => n ∈ next m) start n := by
  refine ⟨fun hn => h.reached n (.inl hn), fun hn => ?_⟩
  induction hn with
  | refl => simpa using h.start_mem
  | tail _ hE ih => simpa using h.closed _ ih _ hE

omit [DecidableEq ν] in
theorem Searching.skip {stack : List ν} {seen : Finset ν} {n : ν}
    (h : Searching next start (n :: stack) seen) (hn : n ∈ seen) :
    Searching next start stack seen where
  reached m hm := h.reached m (hm.imp_right (List.mem_cons_of_mem n))
  start_mem := by
    rcases h.start_mem with h | h
    · exact .inl h
    · rcases List.mem_cons.1 h with rfl | h
      · exact .inl hn
      · exact .inr h
  closed m hm m' hm' := by
    rcases h.closed m hm m' hm' with h | h
    · exact .inl h
    · rcases List.mem_cons.1 h with rfl | h
      · exact .inl hn
      · exact .inr h

theorem Searching.visit {stack : List ν} {seen : Finset ν} {n : ν}
    (h : Searching next start (n :: stack) seen) :
    Searching next start ((next n).reverse ++ stack) (insert n seen) where
  reached m hm := by
    simp only [Finset.mem_insert, List.mem_append, List.mem_reverse] at hm
    rcases hm with (rfl | hm) | hm | hm
    · exact h.reached m (.inr List.mem_cons_self)
    · exact h.reached m (.inl hm)
    · exact (h.reached n (.inr List.mem_cons_self)).tail hm
    · exact h.reached m (.inr (List.mem_cons_of_mem n hm))
  start_mem := by
    have := h.start_mem
    simp only [List.mem_cons, Finset.mem_insert, List.mem_append, List.mem_reverse] at this ⊢
    tauto
  closed m hm m' hm' := by
    simp only [Finset.mem_insert, List.mem_append, List.mem_reverse]
    rcases Finset.mem_insert.1 hm with rfl | hm
    · exact .inr (.inl hm')
    · have := h.closed m hm m' hm'
      simp only [List.mem_cons] at this
      tauto

theorem Searching.dfs {k : ℕ} {stack : List ν} {seen found : Finset ν}
    (h : Searching next start stack seen) (hfound : dfs next k stack seen = some found) :
    Searching next start [] found := by
  induction k generalizing stack seen with
  | zero =>
    rcases stack with _ | ⟨n, stack⟩
    · exact Option.some.inj hfound ▸ h
    · cases hfound
  | succ k ih =>
    rcases stack with _ | ⟨n, stack⟩
    · exact Option.some.inj hfound ▸ h
    · rw [Yuviz.dfs] at hfound
      split_ifs at hfound with hn
      · exact ih (h.skip hn) hfound
      · exact ih h.visit hfound

/-- A search finds the nodes the walks from the start reach. -/
theorem mem_dfs_iff {k : ℕ} {found : Finset ν} (h : dfs next k [start] ∅ = some found) (n : ν) :
    n ∈ found ↔ Relation.ReflTransGen (fun m n => n ∈ next m) start n := by
  have hinit : Searching next start [start] ∅ :=
    ⟨fun n hn => by simp_all [Relation.ReflTransGen.refl], .inr List.mem_cons_self, by simp⟩
  exact (hinit.dfs h).mem_iff n

end

end Yuviz
