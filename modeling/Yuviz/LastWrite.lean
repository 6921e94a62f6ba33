import Mathlib

/-!
# Writes that overtake each other

Writers of different ranks write into one store, each for some of the keys. As long as no
write for a key is overtaken by one of a higher rank, each key has the value of the highest
rank (`Newest.write`), and the store is the same whatever the order was (`Newest.unique`).
-/

namespace Yuviz.LastWrite

variable {W R K V : Type*} [LinearOrder R] {rank : W → R} {value : W → K → Option V}
  {init store store' : K → Option V} {writes writes' : List W} {w : W}

variable (rank value) in
/-- Each key has the value of the highest rank that writes it, if any does. -/
def Newest (init store : K → Option V) (writes : List W) : Prop :=
  ∀ k, ((∀ w ∈ writes, value w k = none) ∧ store k = init k) ∨
    ∃ w ∈ writes, value w k ≠ none ∧ store k = value w k ∧
      ∀ w' ∈ writes, value w' k ≠ none → rank w' ≤ rank w

theorem newest_nil : Newest rank value init init [] :=
  fun _ => .inl ⟨nofun, rfl⟩

/-- A write that overtakes none of a higher rank. -/
theorem Newest.write (h : Newest rank value init store writes)
    (hrank : ∀ w' ∈ writes, ∀ k, value w k ≠ none → value w' k ≠ none → rank w' ≤ rank w) :
    Newest rank value init (fun k => (value w k).or (store k)) (writes ++ [w]) := by
  intro k
  simp only [List.forall_mem_append, List.forall_mem_singleton]
  rcases hk : value w k with _ | v
  · rw [Option.none_or]
    rcases h k with ⟨hnone, hstore⟩ | ⟨w₀, hmem, hne, hstore, hle⟩
    · exact .inl ⟨⟨hnone, rfl⟩, hstore⟩
    · exact .inr ⟨w₀, List.mem_append_left _ hmem, hne, hstore, hle, fun h => absurd rfl h⟩
  · have hne : value w k ≠ none := hk ▸ Option.some_ne_none v
    refine .inr ⟨w, by simp, hne, hk.symm, fun w' hw' hne' => ?_, fun _ => le_rfl⟩
    exact hrank w' hw' k hne hne'

/-- Two orders of the same writes. -/
theorem Newest.unique (h : Newest rank value init store writes)
    (h' : Newest rank value init store' writes') (hmem : ∀ w, w ∈ writes ↔ w ∈ writes')
    (hinj : ∀ w ∈ writes, ∀ w' ∈ writes, rank w = rank w' → w = w') : store = store' := by
  funext k
  rcases h k with ⟨hnone, hstore⟩ | ⟨w, hw, hne, hstore, hle⟩
  · rcases h' k with ⟨-, hstore'⟩ | ⟨w', hw', hne', -⟩
    · rw [hstore, hstore']
    · exact absurd (hnone w' ((hmem w').2 hw')) hne'
  · rcases h' k with ⟨hnone', -⟩ | ⟨w', hw', hne', hstore', hle'⟩
    · exact absurd (hnone' w ((hmem w).1 hw)) hne
    · have hrank : rank w = rank w' :=
        le_antisymm (hle' w ((hmem w).1 hw) hne) (hle w' ((hmem w').2 hw') hne')
      rw [hstore, hstore', hinj w hw w' ((hmem w').2 hw') hrank]

end Yuviz.LastWrite
