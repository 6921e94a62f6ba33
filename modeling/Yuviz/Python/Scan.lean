import Mathlib.Data.List.Basic
import Mathlib.Data.Nat.Notation

/-!
# Scanning a text with a pattern

The functions of a compiled regular expression that go through a whole text
(`sub`, `findall`, `finditer`) match the pattern at one position after the
other, and go on past the end of each match. `scan` does so for any pattern,
given by the match at the head of a text and its length.
-/

namespace Yuviz.Python

variable {α β : Type*}

/-- What a scan finds: the elements outside of any match, and the matches. The
    first `skip` elements belong to the match before. -/
def scan (pattern : List α → Option (β × ℕ)) : ℕ → List α → List (α ⊕ β)
  | _, [] => []
  | skip + 1, _ :: s => scan pattern skip s
  | 0, c :: s =>
    match pattern (c :: s) with
    | none => .inl c :: scan pattern 0 s
    | some (b, n) => .inr b :: scan pattern (n - 1) s

/-- `findall`: the matches. -/
def findall (pattern : List α → Option (β × ℕ)) (s : List α) : List β :=
  (scan pattern 0 s).filterMap Sum.getRight?

/-- What is left of a text when the matches are removed. -/
def unmatched (pattern : List α → Option (β × ℕ)) (s : List α) : List α :=
  (scan pattern 0 s).filterMap Sum.getLeft?

/-- `sub`: the text with each match replaced. -/
def sub (pattern : List α → Option (β × ℕ)) (repl : β → List α) (s : List α) : List α :=
  (scan pattern 0 s).flatMap (Sum.elim (fun c => [c]) repl)

/-- `split`: the texts before, between and after the matches. -/
def split (pattern : List α → Option (β × ℕ)) (s : List α) : List (List α) :=
  ((scan pattern 0 s).splitOnP Sum.isRight).map fun l => l.filterMap Sum.getLeft?

variable {pattern : List α → Option (β × ℕ)} {s : List α} {c : α} {b : β} {n : ℕ}

@[simp] theorem scan_nil (skip : ℕ) : scan pattern skip [] = [] := by
  cases skip <;> rfl

theorem scan_succ_cons (skip : ℕ) :
    scan pattern (skip + 1) (c :: s) = scan pattern skip s := rfl

theorem scan_zero_cons :
    scan pattern 0 (c :: s) =
      match pattern (c :: s) with
      | none => .inl c :: scan pattern 0 s
      | some (b, n) => .inr b :: scan pattern (n - 1) s := rfl

/-- What is skipped is not looked at. -/
theorem scan_eq_drop (skip : ℕ) (s : List α) :
    scan pattern skip s = scan pattern 0 (s.drop skip) := by
  induction s generalizing skip with
  | nil => simp
  | cons c s ih =>
    rcases skip with _ | skip
    · rfl
    · rw [scan_succ_cons, ih, List.drop_succ_cons]

/-- A character at which there is no match is kept, -/
theorem scan_of_none (h : pattern (c :: s) = none) :
    scan pattern 0 (c :: s) = .inl c :: scan pattern 0 s := by
  rw [scan_zero_cons, h]

/-- and a match is taken as a whole. -/
theorem scan_of_some (h : pattern s = some (b, n + 1)) (hs : s ≠ []) :
    scan pattern 0 s = .inr b :: scan pattern 0 (s.drop (n + 1)) := by
  obtain ⟨c, s, rfl⟩ := List.exists_cons_of_ne_nil hs
  rw [scan_zero_cons, h]
  dsimp only
  rw [Nat.add_sub_cancel, scan_eq_drop, List.drop_succ_cons]

theorem split_eq_singleton (h : ∀ t, t <:+ s → pattern t = none) : split pattern s = [s] := by
  have hscan : ∀ t, t <:+ s → scan pattern 0 t = t.map .inl := by
    intro t
    induction t with
    | nil => exact fun _ => scan_nil 0
    | cons c t ih =>
      intro ht
      rw [scan_of_none (h _ ht), ih ((List.suffix_cons c t).trans ht), List.map_cons]
  rw [split, hscan s List.suffix_rfl, List.splitOnP_eq_singleton]
  · rw [List.map_singleton, List.filterMap_map]
    exact congrArg (fun t => [t]) List.filterMap_some
  · intro x hx
    obtain ⟨c, -, rfl⟩ := List.mem_map.1 hx
    rfl

theorem split_of_none (h : pattern (c :: s) = none) :
    split pattern (c :: s) = (split pattern s).modifyHead (c :: ·) := by
  rw [split, split, scan_of_none h, List.splitOnP_cons_eq_if_modifyHead]
  rcases hsplit : (scan pattern 0 s).splitOnP Sum.isRight with _ | ⟨part, parts⟩
  · exact absurd hsplit (List.splitOnP_ne_nil _ _)
  · simp

theorem split_of_some (h : pattern s = some (b, n + 1)) (hs : s ≠ []) :
    split pattern s = [] :: split pattern (s.drop (n + 1)) := by
  rw [split, split, scan_of_some h hs, List.splitOnP_cons_eq_if_modifyHead]
  simp

/-- What can be read of the parts can be read of the text, if it is the same with the
    matches left out. -/
theorem flatMap_split {γ : Type*} {f : List α → List γ}
    (h : ∀ t b n, t ≠ [] → pattern t = some (b, n) →
      n ≠ 0 ∧ ∀ x, f (x ++ t) = f x ++ f (t.drop n)) (s : List α) :
    (split pattern s).flatMap f = f s := by
  -- `x` is the part that the match before has left open.
  have hid : ∀ parts : List (List α), parts.modifyHead ([] ++ ·) = parts :=
    congrFun List.modifyHead_id
  suffices hopen : ∀ x, ((split pattern s).modifyHead (x ++ ·)).flatMap f = f (x ++ s) by
    rw [← hid (split pattern s), hopen, List.nil_append]
  induction hlength : s.length using Nat.strongRecOn generalizing s with
  | _ length ih =>
    intro x
    rcases s with _ | ⟨c, s⟩
    · simp [split]
    · rcases hmatch : pattern (c :: s) with _ | ⟨b, n⟩
      · have hx := ih s.length (by simp [← hlength]) s rfl (x ++ [c])
        rw [split_of_none hmatch, List.modifyHead_modifyHead]
        simpa [Function.comp_def] using hx
      · obtain ⟨hn, hf⟩ := h _ b n (List.cons_ne_nil _ _) hmatch
        obtain ⟨n, rfl⟩ := Nat.exists_eq_succ_of_ne_zero hn
        have hlt : ((c :: s).drop (n + 1)).length < length := by
          rw [← hlength, List.length_drop, List.length_cons]
          omega
        have hx := ih _ hlt _ rfl []
        rw [hid, List.nil_append] at hx
        rw [split_of_some hmatch (List.cons_ne_nil _ _), List.modifyHead_cons, List.flatMap_cons,
          List.append_nil, hf, hx]

/-- What is not matched is of the text, in its order. -/
theorem unmatched_sublist (s : List α) : (unmatched pattern s).Sublist s := by
  have h : ∀ skip, ((scan pattern skip s).filterMap Sum.getLeft?).Sublist s := by
    induction s with
    | nil => simp
    | cons c s ih =>
      intro skip
      rcases skip with _ | skip
      · rw [scan_zero_cons]
        rcases pattern (c :: s) with _ | ⟨b, n⟩
        · exact (ih 0).cons_cons c
        · exact (ih (n - 1)).cons c
      · exact (ih skip).cons c
  exact h 0

/-- What is left of a text is the text, if nothing matches. -/
theorem unmatched_eq_self_iff :
    unmatched pattern s = s ↔ ∀ t, t <:+ s → t ≠ [] → pattern t = none := by
  induction s with
  | nil =>
    refine iff_of_true (by rw [unmatched, scan_nil]; rfl) fun t ht hne => ?_
    exact absurd (List.suffix_nil.1 ht) hne
  | cons c s ih =>
    rcases hmatch : pattern (c :: s) with _ | ⟨b, n⟩
    · rw [unmatched, scan_of_none hmatch, List.filterMap_cons, Sum.getLeft?_inl]
      simp only [List.cons_inj_right, List.suffix_cons_iff]
      rw [← unmatched, ih]
      refine ⟨?_, fun h t ht => h t (.inr ht)⟩
      rintro h t (rfl | ht) hne
      · exact hmatch
      · exact h t ht hne
    · refine iff_of_false (fun heq => ?_) fun h => ?_
      · -- What is matched has at least one character.
        have hle : (unmatched pattern (s.drop (n - 1))).length ≤ (s.drop (n - 1)).length :=
          (unmatched_sublist _).length_le
        have hlength := congrArg List.length heq
        rw [unmatched, scan_zero_cons, hmatch] at hlength
        simp only [List.filterMap_cons, Sum.getLeft?_inr, List.length_cons] at hlength
        rw [scan_eq_drop, ← unmatched] at hlength
        rw [List.length_drop] at hle
        omega
      · rw [h _ List.suffix_rfl nofun] at hmatch
        cases hmatch

/-- Nothing is found if and only if there is no match anywhere. -/
theorem findall_eq_nil_iff :
    findall pattern s = [] ↔ ∀ t, t <:+ s → t ≠ [] → pattern t = none := by
  induction s with
  | nil =>
    refine iff_of_true (by rw [findall, scan_nil]; rfl) fun t ht hne => ?_
    exact absurd (List.suffix_nil.1 ht) hne
  | cons c s ih =>
    rcases hmatch : pattern (c :: s) with _ | ⟨b, n⟩
    · rw [findall, scan_of_none hmatch, List.filterMap_cons, Sum.getRight?_inl]
      simp only [List.suffix_cons_iff]
      rw [← findall, ih]
      refine ⟨?_, fun h t ht => h t (.inr ht)⟩
      rintro h t (rfl | ht) hne
      · exact hmatch
      · exact h t ht hne
    · refine iff_of_false (fun hnil => ?_) fun h => ?_
      · rw [findall, scan_zero_cons, hmatch] at hnil
        cases hnil
      · rw [h _ List.suffix_rfl nofun] at hmatch
        cases hmatch

end Yuviz.Python
