import Mathlib.Data.List.Induction

/-!
# Logs

A log records what has happened in a run, the latest entry last. A property of
the runs that looks back from an entry, such as "no reply without a request
before it", holds *throughout* the log: it is a predicate of the entries before
and of the entry itself.
-/

namespace Yuviz

variable {E : Type*} {P Q : List E → E → Prop} {log new : List E} {e : E}

/-- Every entry of the log is as `P` demands it after the entries before. -/
def Throughout (P : List E → E → Prop) (log : List E) : Prop :=
  ∀ before e after, log = before ++ e :: after → P before e

@[simp] theorem throughout_nil : Throughout P [] := fun before e after h => by simp at h

/-- An entry of a log that has a new one is the new one, or has it behind. -/
theorem concat_eq_append_cons {before after : List E} {e' : E} :
    log ++ [e] = before ++ e' :: after ↔
      (log = before ∧ e = e' ∧ after = []) ∨
        ∃ after', after = after' ++ [e] ∧ log = before ++ e' :: after' := by
  refine ⟨fun h => ?_, ?_⟩
  · obtain rfl | ⟨after, e'', rfl⟩ := List.eq_nil_or_concat after
    · obtain ⟨hlog, he⟩ := List.append_inj' h rfl
      exact .inl ⟨hlog, List.singleton_inj.1 he, rfl⟩
    · have h : log ++ [e] = (before ++ e' :: after) ++ [e''] := by simpa using h
      obtain ⟨hlog, he⟩ := List.append_inj' h rfl
      exact .inr ⟨after, by rw [List.singleton_inj.1 he, List.concat_eq_append], hlog⟩
  · rintro (⟨rfl, rfl, rfl⟩ | ⟨after', rfl, rfl⟩)
    · rfl
    · rw [List.append_assoc, List.cons_append]

@[simp] theorem throughout_concat :
    Throughout P (log ++ [e]) ↔ Throughout P log ∧ P log e := by
  refine ⟨fun h => ⟨fun before e' after heq => ?_, h log e [] rfl⟩, fun ⟨h, he⟩ => ?_⟩
  · exact h before e' (after ++ [e]) (by simp [heq])
  · intro before e' after heq
    rcases concat_eq_append_cons.1 heq with ⟨rfl, rfl, -⟩ | ⟨after', -, hlog⟩
    · exact he
    · exact h before e' after' hlog

/-- What holds throughout a log and of every new entry, after the log and the
    new entries before it, holds throughout both. -/
theorem Throughout.append (h : Throughout P log)
    (hnew : Throughout (fun before => P (log ++ before)) new) : Throughout P (log ++ new) := by
  induction new using List.reverseRecOn with
  | nil => simpa using h
  | append_singleton new e ih =>
    obtain ⟨hnew, he⟩ := throughout_concat.1 hnew
    rw [← List.append_assoc]
    exact throughout_concat.2 ⟨ih hnew, he⟩

/-- What every entry has, whatever comes before it, holds throughout. -/
theorem throughout_of_forall (h : ∀ e ∈ log, ∀ before, P before e) : Throughout P log := by
  rintro before e after rfl
  exact h e (by simp) before

end Yuviz
