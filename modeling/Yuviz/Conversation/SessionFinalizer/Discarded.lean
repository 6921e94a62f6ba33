import Yuviz.Conversation.SessionFinalizer

/-!
# Discarded summaries

Whichever way the calls overlap, a call of `finalize` never takes its summary from a
task that has been discarded: the call that takes a task and the one that discards
it both remove it from the pending ones.
-/

namespace Yuviz.Conversation.SessionFinalizer

open Python Messages

namespace Finalizer

variable {f f' : Finalizer} {sessionId : String} {history : List ChatMessage}
  {llm cancelEvent raises : Bool} {call : Call} {i : ℕ}

variable (f) in
/-- A task is pending for one session at most, and not once a call has taken it. -/
structure Undiscarded : Prop where
  distinct : ∀ s s' k, f.pendingSummaryTasks.get? s = some k →
    f.pendingSummaryTasks.get? s' = some k → s = s'
  pending : ∀ s k, f.pendingSummaryTasks.get? s = some k →
    (∃ task, f.tasks[k]? = some task ∧ task.discarded = false) ∧
      ∀ call ∈ f.calls, call.precomputedSummaryTask ≠ some k
  taken : ∀ call ∈ f.calls, ∀ k, call.precomputedSummaryTask = some k →
    ∃ task, f.tasks[k]? = some task ∧ task.discarded = false

/-- A summary that is started is not discarded. -/
theorem Undiscarded.startSummaryEarly (h : f.Undiscarded) :
    (f.startSummaryEarly sessionId history llm).Undiscarded := by
  rw [Finalizer.startSummaryEarly]
  split_ifs
  · exact h
  · have hlt {k : ℕ} (hk : ∃ task, f.tasks[k]? = some task ∧ task.discarded = false) :
        k < f.tasks.length := by
      obtain ⟨task, htask, -⟩ := hk
      exact (List.getElem?_eq_some_iff.1 htask).1
    have hold {k : ℕ} (hk : ∃ task, f.tasks[k]? = some task ∧ task.discarded = false) :
        ∃ task, (f.tasks ++ [⟨.running, false⟩])[k]? = some task ∧ task.discarded = false := by
      obtain ⟨task, htask, hfalse⟩ := hk
      exact ⟨task, (List.getElem?_append_left (hlt ⟨task, htask, hfalse⟩)).trans htask, hfalse⟩
    have hpending (s : String) (k : ℕ)
        (hk : (Dict.set f.pendingSummaryTasks sessionId f.tasks.length).get? s = some k) :
        s = sessionId ∧ k = f.tasks.length ∨ f.pendingSummaryTasks.get? s = some k := by
      rw [Dict.get?_set] at hk
      split_ifs at hk with hs
      · exact .inl ⟨hs, (Option.some.inj hk).symm⟩
      · exact .inr hk
    refine ⟨fun s s' k hs hs' => ?_, fun s k hs => ?_, fun call hcall k hk => ?_⟩
    · rcases hpending s k hs with ⟨hnew, hk⟩ | hs <;>
        rcases hpending s' k hs' with ⟨hnew', hk'⟩ | hs'
      · exact hnew.trans hnew'.symm
      · exact absurd (hk ▸ hlt (h.pending s' k hs').1) (Nat.lt_irrefl _)
      · exact absurd (hk' ▸ hlt (h.pending s k hs).1) (Nat.lt_irrefl _)
      · exact h.distinct s s' k hs hs'
    · rcases hpending s k hs with ⟨-, rfl⟩ | hs
      · refine ⟨⟨_, List.getElem?_concat_length, rfl⟩, fun call hcall hk => ?_⟩
        exact absurd (hlt (h.taken call hcall _ hk)) (Nat.lt_irrefl _)
      · exact ⟨hold (h.pending s k hs).1, (h.pending s k hs).2⟩
    · exact hold (h.taken call hcall k hk)

/-- One that is discarded is not pending any more, and so no call takes it. -/
theorem Undiscarded.discardPendingSummary (h : f.Undiscarded) :
    (f.discardPendingSummary sessionId).Undiscarded := by
  rw [Finalizer.discardPendingSummary]
  split
  · next k hk =>
    have hne {k' : ℕ} {g : SummaryTask → SummaryTask} (hk' : k' ≠ k)
        (htask : ∃ task, f.tasks[k']? = some task ∧ task.discarded = false) :
        ∃ task, (f.tasks.modify k g)[k']? = some task ∧ task.discarded = false := by
      obtain ⟨task, htask, hfalse⟩ := htask
      exact ⟨task, by simp [hk'.symm, htask], hfalse⟩
    refine ⟨fun s s' k' hs hs' => ?_, fun s k' hs => ?_, fun call hcall k' hk' => ?_⟩
    · exact h.distinct s s' k' (Dict.get?_del_eq_some hs).2 (Dict.get?_del_eq_some hs').2
    · obtain ⟨hsne, hold⟩ := Dict.get?_del_eq_some hs
      refine ⟨hne (fun heq => hsne ?_) (h.pending s k' hold).1, (h.pending s k' hold).2⟩
      exact h.distinct s sessionId k (heq ▸ hold) hk
    · refine hne (fun heq => ?_) (h.taken call hcall k' hk')
      exact (h.pending sessionId k hk).2 call hcall (heq ▸ hk')
  · exact h

/-- A new call takes what is pending for its session. -/
theorem Undiscarded.take {task : Option ℕ} (h : f.Undiscarded) (sessionId : String)
    (htasks : f'.tasks = f.tasks) (hcalls : f'.calls = f.calls ++ [call])
    (hcall : call.precomputedSummaryTask = task)
    (hpending : f'.pendingSummaryTasks = f.pendingSummaryTasks ∧ task = none ∨
      f'.pendingSummaryTasks = Dict.del f.pendingSummaryTasks sessionId ∧
        task = f.pendingSummaryTasks.get? sessionId) : f'.Undiscarded := by
  have hold {s : String} {k : ℕ} (hs : f'.pendingSummaryTasks.get? s = some k) :
      f.pendingSummaryTasks.get? s = some k ∧ task ≠ some k := by
    rcases hpending with ⟨heq, rfl⟩ | ⟨heq, rfl⟩
    · exact ⟨heq ▸ hs, nofun⟩
    · rw [heq] at hs
      obtain ⟨hne, hs⟩ := Dict.get?_del_eq_some hs
      exact ⟨hs, fun hk => hne (h.distinct s sessionId k hs hk)⟩
  refine ⟨fun s s' k hs hs' => h.distinct s s' k (hold hs).1 (hold hs').1, fun s k hs => ?_,
    fun c hc k hk => ?_⟩
  · obtain ⟨htask, htaken⟩ := h.pending s k (hold hs).1
    rw [htasks, hcalls]
    refine ⟨htask, fun c hc => ?_⟩
    rcases List.mem_append.1 hc with hc | hc
    · exact htaken c hc
    · rw [List.mem_singleton.1 hc, hcall]
      exact (hold hs).2
  · rw [hcalls] at hc
    rw [htasks]
    rcases List.mem_append.1 hc with hc | hc
    · exact h.taken c hc k hk
    · rw [List.mem_singleton.1 hc, hcall] at hk
      rcases hpending with ⟨-, rfl⟩ | ⟨-, rfl⟩
      · exact nomatch hk
      · exact (h.pending sessionId k hk).1

/-- A call takes the pending summary of its session, if there is one. -/
theorem Undiscarded.finalize (h : f.Undiscarded) :
    (f.finalize sessionId history llm cancelEvent).Undiscarded := by
  rw [Finalizer.finalize]
  split
  · exact h.take sessionId rfl rfl rfl (.inl ⟨rfl, rfl⟩)
  · dsimp only
    split_ifs
    · exact h.take sessionId rfl rfl rfl (.inr ⟨rfl, rfl⟩)
    · exact h.take sessionId rfl rfl rfl (.inr ⟨rfl, rfl⟩)

/-- A call that is over has what it had taken. -/
theorem Undiscarded.setCall {old : Call} (h : f.Undiscarded) (hi : f.calls[i]? = some old)
    (htasks : f'.tasks = f.tasks) (hpending : f'.pendingSummaryTasks = f.pendingSummaryTasks)
    (hcalls : f'.calls = f.calls.set i call)
    (hcall : call.precomputedSummaryTask = old.precomputedSummaryTask) : f'.Undiscarded := by
  have hmem (c : Call) (hc : c ∈ f'.calls) :
      ∃ c' ∈ f.calls, c.precomputedSummaryTask = c'.precomputedSummaryTask := by
    rw [hcalls] at hc
    rcases List.mem_or_eq_of_mem_set hc with hc | rfl
    · exact ⟨c, hc, rfl⟩
    · exact ⟨old, List.mem_of_getElem? hi, hcall⟩
  refine ⟨hpending ▸ h.distinct, fun s k hs => ?_, fun c hc k hk => ?_⟩
  · rw [hpending] at hs
    rw [htasks]
    refine ⟨(h.pending s k hs).1, fun c hc => ?_⟩
    obtain ⟨c', hc', heq⟩ := hmem c hc
    exact heq ▸ (h.pending s k hs).2 c' hc'
  · obtain ⟨c', hc', heq⟩ := hmem c hc
    rw [htasks]
    exact h.taken c' hc' k (heq ▸ hk)

/-- A task that is done stays as discarded as it was. -/
theorem Undiscarded.generated {k : ℕ} {chunks : Option (List String)} (h : f.Undiscarded)
    (hst : f.generated k chunks = some f') : f'.Undiscarded := by
  rw [Finalizer.generated] at hst
  split at hst
  · next task htask =>
    split_ifs at hst
    obtain rfl := Option.some.inj hst
    have hold {k' : ℕ} (hk' : ∃ t, f.tasks[k']? = some t ∧ t.discarded = false) :
        ∃ t, (f.tasks.set k
          { task with phase := .done ((chunks.map join).getD "") })[k']? = some t ∧
            t.discarded = false := by
      obtain ⟨t, ht, hfalse⟩ := hk'
      by_cases hkk : k = k'
      · subst hkk
        obtain rfl := Option.some.inj (htask.symm.trans ht)
        exact ⟨_, List.getElem?_set_self (List.getElem?_eq_some_iff.1 ht).1, hfalse⟩
      · exact ⟨t, (List.getElem?_set_ne hkk).trans ht, hfalse⟩
    exact ⟨h.distinct, fun s k' hs => ⟨hold (h.pending s k' hs).1, (h.pending s k' hs).2⟩,
      fun call hcall k' hk' => hold (h.taken call hcall k' hk')⟩
  · exact nomatch hst

theorem Undiscarded.step {l : Label} (h : f.Undiscarded)
    (hst : SessionFinalizer.step f l = some f') : f'.Undiscarded := by
  cases l with
  | startSummaryEarly sessionId history llm => exact Option.some.inj hst ▸ h.startSummaryEarly
  | generated k chunks => exact h.generated hst
  | discardPendingSummary sessionId => exact Option.some.inj hst ▸ h.discardPendingSummary
  | finalize sessionId history llm cancelEvent => exact Option.some.inj hst ▸ h.finalize
  | resume i outcome raises =>
    obtain ⟨sessionId, task, ctx, awaited, hi, -, rfl⟩ := of_resume hst
    exact h.setCall hi rfl rfl rfl rfl
  | cancel i =>
    obtain ⟨sessionId, task, ctx, hi, rfl⟩ := of_cancel hst
    exact h.setCall hi rfl rfl rfl rfl

end Finalizer

/-! ## Runs -/

theorem undiscarded_init (transcripts : Bool) : (system transcripts).init.Undiscarded where
  distinct _ _ k hs := absurd hs.symm (Option.some_ne_none k)
  pending _ k hs := absurd hs.symm (Option.some_ne_none k)
  taken _ hcall := nomatch hcall

/-- The task of a discarded summary is none that a call takes its summary from, in
    any run. -/
theorem reachable_undiscarded {transcripts : Bool} {f : Finalizer}
    (hf : (system transcripts).Reachable f) : f.Undiscarded :=
  hf.invariant (I := Finalizer.Undiscarded) (undiscarded_init transcripts)
    fun _ _ _ h hst => h.step hst

end Yuviz.Conversation.SessionFinalizer
