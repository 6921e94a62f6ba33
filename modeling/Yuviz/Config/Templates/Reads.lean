import Mathlib
import Yuviz.Config.Templates.Substitution

/-!
# What is left of the braces, and which variables are read

`render` asks a dictionary for the values, which may be of any kind: it is told
whether a value is blank, and gets the text of it (`Value`). Here it is a program
that looks variables up (`renderFrom`), so that the lookups can be written down.

The second pass removes text, and what was apart may then come together: but the
character before a match is no opening brace, or the match would have begun there.
So no two opening braces come out, whatever the text and the values are, and the
variables that are looked up are those of the placeholders (`rendered_spec`).
-/

namespace Yuviz.Config

open Python

/-- A kind of values: whether one is `None` or equals the empty string, and `str` of it. -/
class Value (V : Type) where
  isBlank : V → Bool
  str : V → String

instance [Runtime] : Value Json where
  isBlank value := !hasValue (some value)
  str := Json.toStr

variable {V : Type} [Value V]

/-- What is put for a placeholder. -/
def renderValue (value : Option V) (fallback : Option String) : String :=
  match value with
  | some value => if Value.isBlank value then stripStr (fallback.getD "") else Value.str value
  | none => stripStr (fallback.getD "")

/-- A piece of the text, where `lookup` is `variables.get`. -/
def renderPiece {m : Type → Type} [Monad m] (lookup : String → m (Option V)) :
    Char ⊕ (String × Option String) → m (List Char)
  | .inl c => pure [c]
  | .inr placeholder => do
    let value ← lookup placeholder.1
    pure (renderValue value placeholder.2).toList

def renderFrom {m : Type → Type} [Monad m] (lookup : String → m (Option V)) (text : String) :
    m String := do
  let pieces ← (scan templateRe 0 text.toList).mapM (renderPiece lookup)
  pure (String.ofList (unmatched anyBracesRe pieces.flatten))

/-- A lookup that is written down. -/
def reading (vars : String → Option V) (name : String) : StateM (List String) (Option V) :=
  fun names => (vars name, names ++ [name])

/-- What is rendered, and the variables that are looked up for it. -/
def rendered (vars : String → Option V) (text : String) : String × List String :=
  (renderFrom (reading vars) text).run []

/-! ### The braces -/

/-- Where a pattern matches whatever begins with two of `a`, there are no two of them left. -/
theorem not_pair_infix_unmatched {α β : Type*} {pattern : List α → Option (β × ℕ)} {a : α}
    (hnone : ∀ s, pattern s = none ↔ ¬ [a, a] <+: s)
    (hpos : ∀ s b n, pattern s = some (b, n) → 0 < n) (s : List α) :
    ¬ [a, a] <:+: unmatched pattern s := by
  induction hlen : s.length using Nat.strong_induction_on generalizing s with
  | _ k ih =>
    subst hlen
    rcases s with _ | ⟨c, s⟩
    · rw [unmatched, scan_nil]
      exact fun hpair => List.cons_ne_nil _ _ (List.infix_nil.1 hpair)
    · rcases hmatch : pattern (c :: s) with _ | ⟨b, n⟩
      · rw [unmatched, scan_of_none hmatch, List.filterMap_cons, Sum.getLeft?_inl, ← unmatched,
          List.infix_cons_iff, not_or]
        refine ⟨fun hpair => ?_, ih s.length (Nat.lt_succ_self _) s rfl⟩
        obtain ⟨rfl, hhead⟩ := List.cons_prefix_cons.1 hpair
        -- What follows is no second one, so it is left as well.
        rcases s with _ | ⟨d, s⟩
        · rw [unmatched, scan_nil] at hhead
          exact List.cons_ne_nil _ _ (List.prefix_nil.1 hhead)
        · have hd : d ≠ a := by
            rintro rfl
            exact (hnone _).1 hmatch ⟨s, rfl⟩
          have hnext : pattern (d :: s) = none :=
            (hnone _).2 fun hopen => hd (List.cons_prefix_cons.1 hopen).1.symm
          rw [unmatched, scan_of_none hnext, List.filterMap_cons, Sum.getLeft?_inl] at hhead
          exact hd (List.cons_prefix_cons.1 hhead).1.symm
      · obtain ⟨n, rfl⟩ := Nat.exists_eq_succ_of_ne_zero (hpos _ _ _ hmatch).ne'
        rw [unmatched, scan_of_some hmatch (by simp), List.filterMap_cons, Sum.getLeft?_inr,
          ← unmatched]
        refine ih _ ?_ _ rfl
        rw [List.length_drop, List.length_cons]
        omega

theorem not_pair_infix_unmatched_anyBracesRe (s : List Char) :
    ¬ ['\x7b', '\x7b'] <:+: unmatched anyBracesRe s := by
  refine not_pair_infix_unmatched (fun s => anyBracesRe_eq_none_iff) (fun s chunk n h => ?_) s
  obtain ⟨-, -, hn⟩ := prefix_of_anyBracesRe h
  omega

/-! ### The variables -/

/-- The pieces are put together, and the names of the placeholders written down in turn. -/
theorem run_mapM_renderPiece (vars : String → Option V)
    (ps : List (Char ⊕ (String × Option String))) (names : List String) :
    (ps.mapM (renderPiece (reading vars))).run names =
      (ps.map (Sum.elim (fun c => [c]) fun p => (renderValue (vars p.1) p.2).toList),
        names ++ (ps.filterMap Sum.getRight?).map Prod.fst) := by
  induction ps generalizing names with
  | nil => exact congrArg (Prod.mk []) (List.append_nil names).symm
  | cons p ps ih =>
    rw [List.mapM_cons]
    rcases p with c | p
    · change (fun run => ([c] :: run.1, run.2)) ((ps.mapM (renderPiece (reading vars))).run names) = _
      rw [ih]
      rfl
    · change (fun run => ((renderValue (vars p.1) p.2).toList :: run.1, run.2))
        ((ps.mapM (renderPiece (reading vars))).run (names ++ [p.1])) = _
      rw [ih, List.append_assoc]
      rfl

theorem rendered_eq (vars : String → Option V) (text : String) : rendered vars text =
    (String.ofList (unmatched anyBracesRe (sub templateRe
      (fun p => (renderValue (vars p.1) p.2).toList) text.toList)),
      (findall templateRe text.toList).map Prod.fst) := by
  have hrun := run_mapM_renderPiece vars (scan templateRe 0 text.toList) []
  rw [rendered, renderFrom, StateT.run_bind, hrun]
  rfl

/-- Of the values of a document it is what `render` returns. -/
theorem rendered_get? [Runtime] (vars : Dict String Json) (text : String) :
    (rendered vars.get? text).1 = render text vars := by
  have hvalue (p : String × Option String) :
      renderValue (vars.get? p.1) p.2 = renderMatch vars p := by
    rw [renderMatch.eq_def]
    rcases vars.get? p.1 with _ | value
    · rfl
    · cases value with
      | str s =>
        rw [renderValue]
        by_cases hs : s = ""
        · subst hs
          rfl
        · simp [Value.isBlank, hasValue, hs, Value.str]
      | _ => rfl
  rw [rendered_eq, render]
  simp only [hvalue]

/-- Whatever the text and the values are, no two opening braces come out of `render`, and the
    variables that are read are those of the template. -/
theorem rendered_spec (vars : String → Option V) (text : String) :
    ¬ ['\x7b', '\x7b'] <:+: (rendered vars text).1.toList ∧
      (rendered vars text).2.toFinset = templateVariables text := by
  rw [rendered_eq, String.toList_ofList]
  exact ⟨not_pair_infix_unmatched_anyBracesRe _, rfl⟩

end Yuviz.Config
