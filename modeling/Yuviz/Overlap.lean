import Mathlib.Data.List.Chain
import Yuviz.Recent

/-!
# Overlapping pieces

A list is cut into pieces, each of which begins with the last `n` elements of the
one before (`Overlap.Cuts`). What a piece does not repeat is read once, in order
(`unrepeated`). Pieces are cut from what is left one after the other (`Cuts.take`),
and more may be left in between (`Cuts.extend`).
-/

namespace Yuviz.Overlap

variable {α : Type*} {n : ℕ} {before piece list rest more a b : List α} {pieces : List (List α)}

/-- The pieces after `before` one after another, without what each repeats of the one before. -/
def unrepeated (n : ℕ) : List α → List (List α) → List α
  | _, [] => []
  | before, piece :: pieces =>
    piece.drop (before.rtake n).length ++ unrepeated n piece pieces

/-- What the next piece repeats. -/
def carry (n : ℕ) (pieces : List (List α)) : List α := (pieces.getLast?.getD []).rtake n

/-- The pieces of `list`, of which `rest` is left with what the next piece repeats. -/
structure Cuts (n : ℕ) (list : List α) (pieces : List (List α)) (rest : List α) : Prop where
  chain : pieces.IsChain fun piece next => piece.rtake n <+: next
  exists_fresh : ∃ fresh, rest = carry n pieces ++ fresh ∧ unrepeated n [] pieces ++ fresh = list
  piece_subset : ∀ piece ∈ pieces, piece ⊆ list
  rest_subset : rest ⊆ list

@[simp] theorem carry_nil : carry n ([] : List (List α)) = [] := List.rtake_nil n

@[simp] theorem carry_concat : carry n (pieces ++ [piece]) = piece.rtake n := by
  rw [carry, List.getLast?_concat]
  rfl

theorem length_carry_le : (carry n pieces).length ≤ n := Recent.length_rtake_le

theorem unrepeated_concat (before piece : List α) (pieces : List (List α)) :
    unrepeated n before (pieces ++ [piece]) = unrepeated n before pieces ++
      piece.drop ((pieces.getLast?.getD before).rtake n).length := by
  induction pieces generalizing before with
  | nil => simp [unrepeated]
  | cons next pieces ih =>
    rw [List.cons_append, unrepeated, ih, unrepeated, List.getLast?_cons, List.append_assoc]
    rfl

theorem Cuts.nil : Cuts n ([] : List α) [] [] :=
  ⟨.nil, ⟨[], by simp, rfl⟩, nofun, List.Subset.refl _⟩

/-- More is left. -/
theorem Cuts.extend (h : Cuts n list pieces rest) (more : List α) :
    Cuts n (list ++ more) pieces (rest ++ more) := by
  obtain ⟨fresh, hrest, hlist⟩ := h.exists_fresh
  refine ⟨h.chain, ⟨fresh ++ more, ?_, ?_⟩, fun piece hpiece => ?_, ?_⟩
  · rw [hrest, List.append_assoc]
  · rw [← List.append_assoc, hlist]
  · exact List.subset_append_of_subset_left _ (h.piece_subset piece hpiece)
  · exact List.append_subset.2 ⟨List.subset_append_of_subset_left _ h.rest_subset,
      List.subset_append_right _ _⟩

theorem Cuts.length_carry_le (h : Cuts n list pieces rest) :
    (carry n pieces).length ≤ rest.length := by
  obtain ⟨fresh, hrest, -⟩ := h.exists_fresh
  rw [hrest, List.length_append]
  exact Nat.le_add_right _ _

/-- The next piece is taken from what is left, with at least all that it repeats. -/
theorem Cuts.take (h : Cuts n list pieces (a ++ b)) (ha : (carry n pieces).length ≤ a.length) :
    Cuts n list (pieces ++ [a]) (a.rtake n ++ b) := by
  obtain ⟨fresh, hrest, hlist⟩ := h.exists_fresh
  have hsubset := List.append_subset.1 h.rest_subset
  have hpre : carry n pieces <+: a :=
    List.prefix_of_prefix_length_le ⟨fresh, hrest.symm⟩ (List.prefix_append a b) ha
  obtain ⟨new, rfl⟩ := hpre
  refine ⟨?_, ⟨b, by rw [carry_concat], ?_⟩, fun piece hpiece => ?_, ?_⟩
  · rw [List.isChain_append]
    refine ⟨h.chain, .singleton _, fun last hlast next hnext => ?_⟩
    obtain rfl := Option.some.inj hnext
    rw [carry, Option.mem_def.1 hlast]
    exact List.prefix_append _ _
  · rw [unrepeated_concat, ← carry, List.drop_left, List.append_assoc, ← hlist]
    rw [List.append_assoc, List.append_cancel_left_eq] at hrest
    rw [hrest]
  · rcases List.mem_append.1 hpiece with hpiece | hpiece
    · exact h.piece_subset piece hpiece
    · exact List.mem_singleton.1 hpiece ▸ hsubset.1
  · exact List.append_subset.2 ⟨fun x hx => hsubset.1 (List.mem_of_mem_drop hx), hsubset.2⟩

/-- Where no more is left than the next piece repeats, the pieces without repeats are the list. -/
theorem Cuts.unrepeated_eq (h : Cuts n list pieces rest)
    (hlength : rest.length ≤ (carry n pieces).length) : unrepeated n [] pieces = list := by
  obtain ⟨fresh, hrest, hlist⟩ := h.exists_fresh
  have hnil : fresh.length = 0 := by
    rw [hrest, List.length_append] at hlength
    omega
  rwa [List.length_eq_zero_iff.1 hnil, List.append_nil] at hlist

end Yuviz.Overlap
