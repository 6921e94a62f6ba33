import Mathlib.Data.List.Chain
import Mathlib.Data.List.DropRight

/-!
# Debouncing

A signal is on after the first run of `onset` consecutive items that are loud,
and off again after the first run of `hold` consecutive items that are quiet.
An item may be neither, or both.

What the edges of a signal are to be is a statement about the trace
(`Debounced`): an item is a rise if it completes the first such run since the
last edge, and likewise for a fall. A `Debouncer` keeps a flag and one counter
instead, and its traces are debounced (`debounced_trace`).
-/

namespace Yuviz

variable {α : Type*}

/-- The list ends with `n` consecutive items with `p`. -/
def EndsRun (p : α → Prop) (n : ℕ) (l : List α) : Prop :=
  ∃ before run, l = before ++ run ∧ run.length = n ∧ ∀ x ∈ run, p x

/-- The last item completes the first run of `n` items with `p`. -/
def CompletesRun (p : α → Prop) (n : ℕ) (l : List α) : Prop :=
  EndsRun p n l ∧ ∀ l', l' <+: l → EndsRun p n l' → l' = l

/-- A change of the signal. -/
inductive Edge
  | rise
  | fall
  deriving DecidableEq

/-- The items of a trace that came after its last edge. -/
def sinceEdge (t : List (α × Option Edge)) : List α := (t.rtakeWhile (·.2 = none)).map Prod.fst

/-- The last edge of a trace is a rise. -/
def IsOn (t : List (α × Option Edge)) : Prop := (t.filterMap Prod.snd).getLast? = some .rise

/-- The edges of a trace are where the runs are completed. -/
def Debounced (loud quiet : α → Prop) (onset hold : ℕ) (t : List (α × Option Edge)) : Prop :=
  ∀ before x e after, t = before ++ (x, e) :: after →
    (e = some .rise ↔ ¬ IsOn before ∧ CompletesRun loud onset (sinceEdge before ++ [x])) ∧
    (e = some .fall ↔ IsOn before ∧ CompletesRun quiet hold (sinceEdge before ++ [x]))

/-- Every edge is another than the one before, and the first one is a rise. -/
def Alternates (edges : List Edge) : Prop := (Edge.fall :: edges).IsChain (· ≠ ·)

/-! ### Runs -/

section

variable {p : α → Prop} [DecidablePred p] {n : ℕ} {l : List α} {x : α}

theorem endsRun_iff : EndsRun p n l ↔ n ≤ (l.rtakeWhile p).length := by
  constructor
  · rintro ⟨before, run, rfl, rfl, hrun⟩
    have hsuffix : run <:+ (before ++ run).rtakeWhile p := by
      induction run using List.reverseRecOn with
      | nil => exact List.nil_suffix
      | append_singleton run x ih =>
        rw [← List.append_assoc, List.rtakeWhile_concat_pos _ _ _ (by simpa using hrun x (by simp))]
        obtain ⟨l, hl⟩ := ih fun y hy => hrun y (by simp [hy])
        exact ⟨l, by rw [← hl, List.append_assoc]⟩
    exact hsuffix.length_le
  · intro hle
    obtain ⟨before, hbefore⟩ := List.rtakeWhile_suffix p l
    refine ⟨before ++ (l.rtakeWhile p).take ((l.rtakeWhile p).length - n),
      (l.rtakeWhile p).drop ((l.rtakeWhile p).length - n), ?_, ?_, fun x hx => ?_⟩
    · rw [List.append_assoc, List.take_append_drop, hbefore]
    · rw [List.length_drop]
      omega
    · simpa using List.mem_rtakeWhile_imp (List.mem_of_mem_drop hx)

theorem endsRun_concat (hn : n ≠ 0) :
    EndsRun p n (l ++ [x]) ↔ p x ∧ n ≤ (l.rtakeWhile p).length + 1 := by
  rw [endsRun_iff]
  by_cases hx : p x
  · rw [List.rtakeWhile_concat_pos _ _ _ (by simpa using hx), List.length_append]
    simp [hx]
  · rw [List.rtakeWhile_concat_neg _ _ _ (by simpa using hx)]
    simp [hx, hn]

/-- When no run was completed before, the last item completes the first one. -/
theorem completesRun_concat (hn : n ≠ 0) (h : ∀ l', l' <+: l → ¬ EndsRun p n l') :
    CompletesRun p n (l ++ [x]) ↔ p x ∧ n ≤ (l.rtakeWhile p).length + 1 := by
  rw [← endsRun_concat hn]
  refine ⟨And.left, fun hends => ⟨hends, fun l' hl' hl => ?_⟩⟩
  rcases List.prefix_concat_iff.1 hl' with rfl | hl'
  · rfl
  · exact absurd hl (h l' hl')

end

/-! ### Traces -/

section

variable {t : List (α × Option Edge)} {x : α} {e : Edge}

@[simp] theorem sinceEdge_nil : sinceEdge ([] : List (α × Option Edge)) = [] := rfl

@[simp] theorem sinceEdge_concat_none : sinceEdge (t ++ [(x, none)]) = sinceEdge t ++ [x] := by
  rw [sinceEdge, List.rtakeWhile_concat_pos _ _ _ (by simp), List.map_append]
  rfl

@[simp] theorem sinceEdge_concat_some : sinceEdge (t ++ [(x, some e)]) = [] := by
  rw [sinceEdge, List.rtakeWhile_concat_neg _ _ _ (by simp)]
  rfl

theorem not_isOn_nil : ¬ IsOn ([] : List (α × Option Edge)) := nofun

@[simp] theorem isOn_concat_none : IsOn (t ++ [(x, none)]) ↔ IsOn t := by
  simp [IsOn, List.filterMap_append]

@[simp] theorem isOn_concat_some : IsOn (t ++ [(x, some e)]) ↔ e = .rise := by
  simp [IsOn, List.filterMap_append]

/-- Edges where the signal is not yet so alternate. -/
theorem Debounced.alternates {loud quiet : α → Prop} {onset hold : ℕ}
    (h : Debounced loud quiet onset hold t) : Alternates (t.filterMap Prod.snd) := by
  induction t using List.reverseRecOn with
  | nil => exact List.isChain_singleton _
  | append_singleton t entry ih =>
    obtain ⟨x, e⟩ := entry
    have hprefix : Debounced loud quiet onset hold t := by
      intro before y e' after ht
      exact h before y e' (after ++ [(x, e)]) (by rw [ht, List.append_assoc, List.cons_append])
    rw [List.filterMap_append]
    cases e with
    | none => simpa using ih hprefix
    | some e =>
      have hlast := h t x (some e) [] rfl
      refine List.IsChain.append (ih hprefix) (List.isChain_singleton e) fun e' he' e'' he'' => ?_
      obtain rfl : e = e'' := by simpa using he''
      rw [List.getLast?_cons, Option.mem_def, Option.some.injEq] at he'
      rintro rfl
      cases e' with
      | rise =>
        refine (hlast.1.1 rfl).1 ?_
        rw [IsOn]
        rcases hl : (t.filterMap Prod.snd).getLast? with _ | e'
        · rw [hl] at he'
          cases he'
        · rw [hl] at he'
          exact congrArg some he'
      | fall =>
        have hon := (hlast.2.1 rfl).1
        rw [IsOn] at hon
        rw [hon] at he'
        cases he'

end

/-! ### A debouncer -/

/-- The signal, and the length of the run that would change it. -/
inductive Debouncer
  | off (run : ℕ)
  | on (run : ℕ)
  deriving DecidableEq

namespace Debouncer

variable (loud quiet : α → Prop) [DecidablePred loud] [DecidablePred quiet] (onset hold : ℕ)

/-- The run goes on, or is over. -/
def step : Debouncer → α → Debouncer × Option Edge
  | off run, x =>
    if loud x then
      if onset ≤ run + 1 then (on 0, some .rise) else (off (run + 1), none)
    else (off 0, none)
  | on run, x =>
    if quiet x then
      if hold ≤ run + 1 then (off 0, some .fall) else (on (run + 1), none)
    else (on 0, none)

/-- The edges of some items, from a state on. -/
def trace : Debouncer → List α → List (α × Option Edge)
  | _, [] => []
  | s, x :: xs =>
    (x, (s.step loud quiet onset hold x).2) :: trace (s.step loud quiet onset hold x).1 xs

/-- The counter is of the run that the items end with, and no run of `n` is complete. -/
def InRun (p : α → Prop) [DecidablePred p] (n run : ℕ) (l : List α) : Prop :=
  run = (l.rtakeWhile p).length ∧ ∀ l', l' <+: l → ¬ EndsRun p n l'

/-- The state is the one after a trace. -/
def Counts : Debouncer → List (α × Option Edge) → Prop
  | off run, t => ¬ IsOn t ∧ InRun loud onset run (sinceEdge t)
  | on run, t => IsOn t ∧ InRun quiet hold run (sinceEdge t)

variable {loud quiet onset hold} {p : α → Prop} [DecidablePred p] {n run : ℕ} {l : List α} {x : α}
  {s : Debouncer} {t : List (α × Option Edge)}

theorem inRun_nil (hn : n ≠ 0) : InRun p n 0 [] := by
  refine ⟨rfl, fun l' hl' h => ?_⟩
  rw [List.prefix_nil.1 hl', endsRun_iff] at h
  exact hn (Nat.le_zero.1 h)

/-- The next item leaves the run incomplete. -/
theorem InRun.concat (h : InRun p n run l) (hn : n ≠ 0) (hx : ¬ (p x ∧ n ≤ run + 1)) :
    InRun p n (if p x then run + 1 else 0) (l ++ [x]) := by
  refine ⟨?_, fun l' hl' hends => ?_⟩
  · by_cases hp : p x
    · rw [if_pos hp, List.rtakeWhile_concat_pos _ _ _ (by simpa using hp), List.length_append, h.1]
      rfl
    · rw [if_neg hp, List.rtakeWhile_concat_neg _ _ _ (by simpa using hp)]
      rfl
  · rcases List.prefix_concat_iff.1 hl' with rfl | hl'
    · rw [endsRun_concat hn, ← h.1] at hends
      exact hx hends
    · exact h.2 l' hl' hends

theorem InRun.completesRun_iff (h : InRun p n run l) (hn : n ≠ 0) :
    CompletesRun p n (l ++ [x]) ↔ p x ∧ n ≤ run + 1 := by
  rw [completesRun_concat hn h.2, h.1]

/-- The next item is an edge just when it completes a run, and the counter is kept. -/
theorem Counts.step (h : s.Counts loud quiet onset hold t) (honset : onset ≠ 0) (hhold : hold ≠ 0)
    (x : α) :
    (s.step loud quiet onset hold x).1.Counts loud quiet onset hold
      (t ++ [(x, (s.step loud quiet onset hold x).2)]) ∧
    ((s.step loud quiet onset hold x).2 = some .rise ↔
      ¬ IsOn t ∧ CompletesRun loud onset (sinceEdge t ++ [x])) ∧
    ((s.step loud quiet onset hold x).2 = some .fall ↔
      IsOn t ∧ CompletesRun quiet hold (sinceEdge t ++ [x])) := by
  cases s with
  | off run =>
    obtain ⟨hoff, hrun⟩ := h
    rw [hrun.completesRun_iff honset, Debouncer.step]
    by_cases hx : loud x
    · by_cases hle : onset ≤ run + 1
      · simp [hx, hle, hoff, Counts, inRun_nil hhold]
      · have hnext := hrun.concat (x := x) honset fun h => hle h.2
        rw [if_pos hx] at hnext
        simp [hx, hle, hoff, Counts, hnext]
    · have hnext := hrun.concat honset fun h => hx h.1
      rw [if_neg hx] at hnext
      simp [hx, hoff, Counts, hnext]
  | on run =>
    obtain ⟨hon, hrun⟩ := h
    rw [hrun.completesRun_iff hhold, Debouncer.step]
    by_cases hx : quiet x
    · by_cases hle : hold ≤ run + 1
      · simp [hx, hle, hon, Counts, inRun_nil honset]
      · have hnext := hrun.concat (x := x) hhold fun h => hle h.2
        rw [if_pos hx] at hnext
        simp [hx, hle, hon, Counts, hnext]
    · have hnext := hrun.concat hhold fun h => hx h.1
      rw [if_neg hx] at hnext
      simp [hx, hon, Counts, hnext]

/-- What a debouncer makes of some items is debounced. -/
theorem debounced_trace (honset : onset ≠ 0) (hhold : hold ≠ 0) (xs : List α) :
    Debounced loud quiet onset hold ((off 0).trace loud quiet onset hold xs) := by
  -- The state after the items so far counts their trace.
  have hall : ∀ (xs : List α) (s : Debouncer) (t : List (α × Option Edge)),
      s.Counts loud quiet onset hold t → ∀ before x e after,
        s.trace loud quiet onset hold xs = before ++ (x, e) :: after →
        (e = some .rise ↔
          ¬ IsOn (t ++ before) ∧ CompletesRun loud onset (sinceEdge (t ++ before) ++ [x])) ∧
        (e = some .fall ↔
          IsOn (t ++ before) ∧ CompletesRun quiet hold (sinceEdge (t ++ before) ++ [x])) := by
    intro xs
    induction xs with
    | nil => exact fun s t _ before x e after h => absurd h (by simp [trace])
    | cons y xs ih =>
      intro s t hs before x e after h
      obtain ⟨hcounts, hedges⟩ := hs.step honset hhold y
      rw [trace] at h
      cases before with
      | nil =>
        obtain ⟨hentry, -⟩ := List.cons.inj h
        obtain ⟨rfl, rfl⟩ := Prod.mk.inj hentry
        rwa [List.append_nil]
      | cons entry before =>
        rw [List.cons_append, List.cons.injEq] at h
        obtain ⟨rfl, h⟩ := h
        have := ih _ _ hcounts before x e after h
        rwa [List.append_assoc, List.singleton_append] at this
  intro before x e after h
  exact hall xs (off 0) [] ⟨not_isOn_nil, inRun_nil honset⟩ before x e after h

end Debouncer

end Yuviz
