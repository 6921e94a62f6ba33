import Mathlib.Logic.Function.Basic
import Mathlib.Tactic.SplitIfs

/-!
# Transition systems

A labelled transition system: an initial state, and the state every label
leads to, if it is enabled. All nondeterminism (of a scheduler, of the
environment) is in the labels, so that a run is executed by listing them
(`System.exec`).

What holds in every reachable state is proved by induction on the run
(`System.Reachable.invariant`). A *guard* is a condition on the state before a
step and on its label; `System.ReachableIf` restricts the runs to those whose
steps all meet a guard (`System.ReachableIf.invariant`).
-/

namespace Yuviz

/-- A labelled transition system on the states `S`. -/
structure System (S L : Type*) where
  /-- The initial state. -/
  init : S
  /-- The state a label leads to, if it is enabled. -/
  step : S → L → Option S

namespace System

variable {S L : Type*} (sys : System S L)

/-- The states of the runs whose steps all meet the guard `g`. -/
inductive ReachableIf (g : S → L → Prop) : S → Prop
  | init : ReachableIf g sys.init
  | step {s s' : S} {l : L} : ReachableIf g s → g s l → sys.step s l = some s' → ReachableIf g s'

/-- The states of the runs. -/
def Reachable : S → Prop := sys.ReachableIf fun _ _ => True

/-- The state the labels `ls` lead to from `s`, if they are all enabled in turn. -/
def exec (s : S) (ls : List L) : Option S := ls.foldlM sys.step s

variable {sys}

/-- An invariant of the runs meeting a guard: it holds initially, and every
    step meeting the guard preserves it. -/
theorem ReachableIf.invariant {g : S → L → Prop} {I : S → Prop} (hinit : I sys.init)
    (hstep : ∀ s l s', I s → g s l → sys.step s l = some s' → I s') {s : S}
    (hs : sys.ReachableIf g s) : I s := by
  induction hs with
  | init => exact hinit
  | step _ hg hst ih => exact hstep _ _ _ ih hg hst

/-- An invariant of all runs. -/
theorem Reachable.invariant {I : S → Prop} (hinit : I sys.init)
    (hstep : ∀ s l s', I s → sys.step s l = some s' → I s') {s : S}
    (hs : sys.Reachable s) : I s :=
  ReachableIf.invariant hinit (fun s l s' hI _ => hstep s l s' hI) hs

/-- Runs meeting a guard meet any weaker one. -/
theorem ReachableIf.mono {g g' : S → L → Prop} (hg : ∀ s l, g s l → g' s l) {s : S}
    (hs : sys.ReachableIf g s) : sys.ReachableIf g' s := by
  induction hs with
  | init => exact .init
  | step _ h hst ih => exact .step ih (hg _ _ h) hst

theorem ReachableIf.reachable {g : S → L → Prop} {s : S} (hs : sys.ReachableIf g s) :
    sys.Reachable s :=
  hs.mono fun _ _ _ => trivial

@[simp] theorem exec_nil (s : S) : sys.exec s [] = some s := rfl

@[simp] theorem exec_cons (s : S) (l : L) (ls : List L) :
    sys.exec s (l :: ls) = (sys.step s l).bind fun s' => sys.exec s' ls := rfl

theorem exec_append (s : S) (ls ls' : List L) :
    sys.exec s (ls ++ ls') = (sys.exec s ls).bind fun s' => sys.exec s' ls' :=
  List.foldlM_append

/-- What every step of a run preserves, the run does. -/
theorem exec_invariant {I : S → Prop} {s s' : S} {ls : List L}
    (hstep : ∀ s, ∀ l ∈ ls, ∀ s', I s → sys.step s l = some s' → I s') (hs : I s)
    (h : sys.exec s ls = some s') : I s' := by
  induction ls generalizing s with
  | nil => exact Option.some.inj h ▸ hs
  | cons l ls ih =>
    rw [exec_cons, Option.bind_eq_some_iff] at h
    obtain ⟨s₁, hst, h⟩ := h
    exact ih (fun s l hl => hstep s l (List.mem_cons_of_mem _ hl))
      (hstep s l List.mem_cons_self s₁ hs hst) h

/-- A run is executed from any state it reaches. -/
theorem Reachable.exec {s s' : S} {ls : List L} (hs : sys.Reachable s)
    (h : sys.exec s ls = some s') : sys.Reachable s' := by
  induction ls generalizing s with
  | nil => simp_all
  | cons l ls ih =>
    rw [exec_cons, Option.bind_eq_some_iff] at h
    obtain ⟨s₁, hst, h⟩ := h
    exact ih (.step hs trivial hst) h

/-- The state the labels `ls` lead to from `s`, if they are all enabled in turn
    and meet the guard `g`. -/
def execIf (sys : System S L) (g : S → L → Prop) [∀ s l, Decidable (g s l)] (s : S) (ls : List L) :
    Option S :=
  ls.foldlM (fun s l => if g s l then sys.step s l else none) s

theorem ReachableIf.execIf {g : S → L → Prop} [∀ s l, Decidable (g s l)] {s s' : S} {ls : List L}
    (hs : sys.ReachableIf g s) (h : sys.execIf g s ls = some s') : sys.ReachableIf g s' := by
  induction ls generalizing s with
  | nil => exact Option.some.inj h ▸ hs
  | cons l ls ih =>
    obtain ⟨s₁, hst, h⟩ := Option.bind_eq_some_iff.1 (by rwa [System.execIf, List.foldlM_cons] at h)
    split_ifs at hst with hg
    exact ih (.step hs hg hst) h

/-- The system with a monitor, which is told each step before it is taken. -/
def monitored {M : Type*} (sys : System S L) (m : M) (update : M → S → L → M) :
    System (S × M) L where
  init := (sys.init, m)
  step s l := (sys.step s.1 l).map fun s' => (s', update s.2 s.1 l)

/-- A monitor does not get in the way of the system, -/
theorem ReachableIf.of_monitored {M : Type*} {m : M} {update : M → S → L → M} {g : S → L → Prop}
    {s : S × M} (hs : (sys.monitored m update).ReachableIf (fun s l => g s.1 l) s) :
    sys.ReachableIf g s.1 := by
  induction hs with
  | init => exact .init
  | step _ hg hst ih =>
    obtain ⟨t, hst', rfl⟩ := Option.map_eq_some_iff.1 hst
    exact .step ih hg hst'

/-- and sees every run of it. -/
theorem ReachableIf.monitored {M : Type*} (m : M) (update : M → S → L → M) {g : S → L → Prop}
    {s : S} (hs : sys.ReachableIf g s) :
    ∃ m', (sys.monitored m update).ReachableIf (fun s l => g s.1 l) (s, m') := by
  induction hs with
  | init => exact ⟨m, .init⟩
  | @step s s' l _ hg hst ih =>
    obtain ⟨m', hm⟩ := ih
    exact ⟨update m' s l, .step hm hg (by simp [System.monitored, hst])⟩

/-- The system, begun in another state. -/
def startingFrom (sys : System S L) (s : S) : System S L := { sys with init := s }

/-! ## Histories -/

/-- The system, with the states it has been in before, the latest first. -/
def history (sys : System S L) : System (S × List S) L :=
  sys.monitored [] fun past s _ => s :: past

/-- An invariant of a system with its history. -/
theorem ReachableIf.history_invariant {g : S → L → Prop} {I : S → List S → Prop}
    (hinit : I sys.init [])
    (hstep : ∀ s past l s', I s past → g s l → sys.step s l = some s' → I s' (s :: past))
    {s : S × List S} (hs : sys.history.ReachableIf (fun s l => g s.1 l) s) : I s.1 s.2 := by
  induction hs with
  | init => exact hinit
  | step _ hg hst ih =>
    obtain ⟨t, hst', rfl⟩ := Option.map_eq_some_iff.1 hst
    exact hstep _ _ _ _ ih hg hst'

end System

end Yuviz
