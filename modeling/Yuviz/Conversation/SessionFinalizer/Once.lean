import Mathlib
import Yuviz.Conversation.SessionFinalizer.Discarded

/-!
# Finalizing once

What is known of a session: its calls, the steps that have been run, their effects
and the result. In the runs without overlapping calls it is as `View.Good` says.
-/

namespace Yuviz.Conversation.SessionFinalizer

open Python Messages

namespace Finalizer

variable (f : Finalizer) (sessionId : String)

def callsOf : List Call := f.calls.filter (·.sessionId = sessionId)

/-- What is known of a session. -/
structure View where
  calls : List Call
  ran : List Step
  emitted : List String
  result : Option FinalizationResult

def view : View :=
  ⟨f.callsOf sessionId, f.ran sessionId, f.emitted sessionId, f.results.get? sessionId⟩

def namesBefore : List String := ["set", "generate"]

def namesAfter : List String :=
  ["record_turn", "conversation_finalize_success_total", "conversation_finalize_latency_ms"]

def names : List String := namesBefore ++ "conversation_finalize_timeout_total" :: namesAfter

/-- How far the finalization of a session can be: not begun, begun by one call that
    has not returned, or over. -/
inductive View.Good (v : View) : Prop
  | untouched (hview : v = ⟨[], [], [], none⟩)
  | unfinished (call : Call) (hcalls : v.calls = [call]) (hcall : call.result? = none)
      (hran : v.ran = stepsBefore ++ [.summary]) (hemitted : v.emitted.Sublist namesBefore)
      (hresult : v.result = none)
  | finalized (result : FinalizationResult)
      (hcalls : ∀ call ∈ v.calls, call.result? = some result) (hran : v.ran = defaultSteps)
      (hemitted : v.emitted.Sublist names) (hresult : v.result = some result)

variable {f} {sessionId} {s : String} {v : View}

/-- No step has been run twice, -/
theorem View.Good.ran_nodup (h : v.Good) : v.ran.Nodup := by
  cases h with
  | untouched hview => exact hview ▸ List.nodup_nil
  | unfinished _ _ _ hran => exact hran ▸ (by decide : (stepsBefore ++ [Step.summary]).Nodup)
  | finalized _ _ hran => exact hran ▸ (by decide : defaultSteps.Nodup)

/-- no effect is there twice, -/
theorem View.Good.emitted_nodup (h : v.Good) : v.emitted.Nodup := by
  cases h with
  | untouched hview => exact hview ▸ List.nodup_nil
  | unfinished _ _ _ _ hemitted => exact hemitted.nodup (by decide)
  | finalized _ _ _ hemitted => exact hemitted.nodup (by decide)

/-- and the calls that have returned have returned the same. -/
theorem View.Good.same (h : v.Good) {call call' : Call} {result result' : FinalizationResult}
    (hmem : call ∈ v.calls) (hmem' : call' ∈ v.calls) (hr : call.result? = some result)
    (hr' : call'.result? = some result') : result = result' := by
  cases h with
  | untouched hview =>
    rw [hview] at hmem
    exact nomatch hmem
  | unfinished c hcalls hcall =>
    rw [hcalls] at hmem
    rw [List.mem_singleton.1 hmem, hcall] at hr
    exact nomatch hr
  | finalized r hcalls =>
    have heq := (hcalls call hmem).symm.trans hr
    have heq' := (hcalls call' hmem').symm.trans hr'
    exact (Option.some.inj heq).symm.trans (Option.some.inj heq')

/-- A call that finds no result, and the earlier ones of its session returned, is the
    first one of its session. -/
theorem View.Good.eq_untouched (h : v.Good)
    (hcalls : ∀ call ∈ v.calls, call.result?.isSome = true) (hresult : v.result = none) :
    v = ⟨[], [], [], none⟩ := by
  cases h with
  | untouched hview => exact hview
  | unfinished call hcall hnone =>
    have := hcalls call (hcall ▸ List.mem_singleton_self call)
    rw [hnone] at this
    exact Bool.noConfusion this
  | finalized result _ _ _ hsome => exact nomatch hresult.symm.trans hsome

/-! ### Views -/

variable {steps : List Step} {effects : List Effect} {call : Call}

/-- What is emitted for a session is seen in its view only. -/
theorem view_emit_self : (f.emit sessionId steps effects).view sessionId =
    { f.view sessionId with
      ran := f.ran sessionId ++ steps
      emitted := f.emitted sessionId ++ effects.map Effect.name } := by
  simp [view, emit, ran, emitted, callsOf, List.filter_map, Function.comp_def]

theorem view_emit_ne (hs : s ≠ sessionId) :
    (f.emit sessionId steps effects).view s = f.view s := by
  simp [view, emit, ran, emitted, callsOf, List.filter_map, Function.comp_def, hs.symm]

/-- So is a call. -/
theorem view_addCall_self : (f.addCall call).view call.sessionId =
    { f.view call.sessionId with calls := f.callsOf call.sessionId ++ [call] } := by
  simp [view, addCall, ran, emitted, callsOf]

theorem view_addCall_ne (hs : s ≠ call.sessionId) : (f.addCall call).view s = f.view s := by
  simp [view, addCall, ran, emitted, callsOf, hs.symm]

/-- A call that gets ahead is not seen in the views of other sessions. -/
theorem view_setCall_ne {i : ℕ} {old : Call} (hi : f.calls[i]? = some old)
    (hold : old.sessionId ≠ s) (hcall : call.sessionId ≠ s) :
    { f with calls := f.calls.set i call }.view s = f.view s := by
  have hfilter : (f.calls.set i call).filter (·.sessionId = s) = f.callsOf s :=
    filter_set_of_false hi (decide_eq_false hold) (decide_eq_false hcall)
  exact congrArg (View.mk · _ _ _) hfilter

theorem callsOf_setCall {i : ℕ} {old : Call} (hcalls : f.callsOf s = [old])
    (hi : f.calls[i]? = some old) (hold : old.sessionId = s) (hcall : call.sessionId = s) :
    (f.calls.set i call).filter (·.sessionId = s) = [call] :=
  (filter_set_of_singleton (c := fun c : Call => decide (c.sessionId = s)) hcalls hi
    (decide_eq_true hold) (decide_eq_true hcall)).2

variable {history : List ChatMessage} {llm cancelEvent raises : Bool} {ctx : FinalizationContext}

/-- The effects of a finalization, up to its summary, -/
theorem names_start : ((f.begun sessionId history llm cancelEvent).2 ++
    (f.begun sessionId history llm cancelEvent).1.request).map Effect.name |>.Sublist
      namesBefore := by
  have hset : ((f.begun sessionId history llm cancelEvent).2.map Effect.name).Sublist ["set"] := by
    cases cancelEvent
    · exact List.nil_sublist _
    · exact List.Sublist.refl _
  have hrequest (ctx : FinalizationContext) :
      (ctx.request.map Effect.name).Sublist ["generate"] := by
    rw [FinalizationContext.request]
    split_ifs
    · exact List.Sublist.refl _
    · exact List.nil_sublist _
  rw [List.map_append]
  exact hset.append (hrequest _)

/-- when that is there, or not in time, -/
theorem names_summarize (awaited : FinalizationContext.Awaited) :
    ((ctx.summarize awaited).2.map Effect.name).Sublist
      ["conversation_finalize_timeout_total"] := by
  cases awaited with
  | value summary => exact List.nil_sublist _
  | timedOut => exact List.Sublist.refl _
  | raised =>
    rw [FinalizationContext.summarize]
    split_ifs <;> exact List.nil_sublist _

/-- and after it. -/
theorem names_complete (transcripts : Bool) :
    ((ctx.runSteps transcripts raises stepsAfter).2.map Effect.name).Sublist namesAfter := by
  have hpersist :
      ((ctx.run transcripts raises .persistSummary).2.map Effect.name).Sublist ["record_turn"] := by
    simp only [FinalizationContext.run]
    split_ifs
    · exact List.nil_sublist _
    · exact List.Sublist.refl _
  change (((ctx.run transcripts raises .persistSummary).2 ++ _).map Effect.name).Sublist _
  rw [List.map_append]
  exact hpersist.append (List.Sublist.refl _)

theorem view_start_self (sessionId : String) (history : List ChatMessage)
    (llm cancelEvent : Bool) : (f.start sessionId history llm cancelEvent).view sessionId =
      { f.view sessionId with
        ran := f.ran sessionId ++ (stepsBefore ++ [.summary])
        emitted := f.emitted sessionId ++ ((f.begun sessionId history llm cancelEvent).2 ++
          (f.begun sessionId history llm cancelEvent).1.request).map Effect.name } :=
  view_emit_self

theorem view_start_ne (hs : s ≠ sessionId) :
    (f.start sessionId history llm cancelEvent).view s = f.view s :=
  view_emit_ne hs

/-- A session that has not been finalized begins to be. -/
theorem start_of_untouched (history : List ChatMessage) (llm cancelEvent : Bool)
    (hview : f.view sessionId = ⟨[], [], [], none⟩) :
    (f.start sessionId history llm cancelEvent).callsOf sessionId = [] ∧
      (f.start sessionId history llm cancelEvent).ran sessionId = stepsBefore ++ [.summary] ∧
      ((f.start sessionId history llm cancelEvent).emitted sessionId).Sublist namesBefore ∧
      (f.start sessionId history llm cancelEvent).results.get? sessionId = none := by
  obtain ⟨hcalls, hran, hemitted, hresult⟩ := View.mk.inj hview
  have hstart := view_start_self (f := f) sessionId history llm cancelEvent
  rw [hran, hemitted] at hstart
  obtain ⟨hcalls', hran', hemitted', hresult'⟩ := View.mk.inj hstart
  refine ⟨hcalls'.trans hcalls, hran', ?_, hresult'.trans hresult⟩
  rw [hemitted']
  exact names_start

/-- The steps after the summary end the finalization of a session. -/
theorem good_complete {calls : List Call} (hran : f.ran sessionId = stepsBefore ++ [.summary])
    (hemitted : (f.emitted sessionId).Sublist
      (namesBefore ++ ["conversation_finalize_timeout_total"]))
    (hcalls : ∀ call ∈ calls, call.result? = some (f.complete sessionId ctx raises).2) :
    ({ (f.complete sessionId ctx raises).1.view sessionId with calls := calls } : View).Good := by
  have hran' : (f.complete sessionId ctx raises).1.ran sessionId =
      f.ran sessionId ++ stepsAfter :=
    congrArg View.ran view_emit_self
  have hemitted' : (f.complete sessionId ctx raises).1.emitted sessionId = f.emitted sessionId ++
      (ctx.runSteps f.transcripts raises stepsAfter).2.map Effect.name :=
    congrArg View.emitted view_emit_self
  have hsublist : ((f.complete sessionId ctx raises).1.emitted sessionId).Sublist names := by
    rw [hemitted']
    exact hemitted.append (names_complete _)
  exact .finalized _ hcalls (hran'.trans (congrArg (· ++ _) hran)) hsublist
    (Dict.get?_set.trans (if_pos rfl))

theorem view_complete_ne (hs : s ≠ sessionId) :
    (f.complete sessionId ctx raises).1.view s = f.view s := by
  refine (view_emit_ne hs).trans ?_
  exact congrArg (View.mk _ _ _) (Dict.get?_set.trans (if_neg hs))

/-! ### Steps -/

/-- A call is answered with the result there is, or is the first of its session. -/
theorem good_finalize (h : ∀ s, (f.view s).Good)
    (hg : Sequential f (.finalize sessionId history llm cancelEvent)) (s : String) :
    ((f.finalize sessionId history llm cancelEvent).view s).Good := by
  rw [finalize]
  split
  · next result hresult =>
    by_cases hs : s = sessionId
    · subst hs
      rw [view_addCall_self]
      cases h s with
      | untouched hview => exact absurd (hresult.symm.trans (congrArg View.result hview)) (by simp)
      | unfinished _ _ _ _ _ hnone => exact absurd (hresult.symm.trans hnone) (by simp)
      | finalized r hcalls hran hemitted hsome =>
        obtain rfl := Option.some.inj (hresult.symm.trans hsome)
        refine .finalized result (fun call hcall => ?_) hran hemitted hsome
        rcases List.mem_append.1 hcall with hcall | hcall
        · exact hcalls call hcall
        · rw [List.mem_singleton.1 hcall]
          rfl
    · rw [view_addCall_ne hs]
      exact h s
  · next hresult =>
    dsimp only
    by_cases hs : s = sessionId
    · subst hs
      have hcalls : ∀ call ∈ (f.view s).calls, call.result?.isSome = true := by
        intro call hcall
        obtain ⟨hmem, heq⟩ := List.mem_filter.1 hcall
        exact hg call hmem (of_decide_eq_true heq)
      obtain ⟨hc, hr, he, hn⟩ := start_of_untouched history llm cancelEvent
        ((h s).eq_untouched hcalls hresult)
      split_ifs
      · rw [view_addCall_self]
        exact .unfinished _ (congrArg (· ++ _) hc) rfl hr he hn
      · rw [view_addCall_self]
        refine good_complete hr (he.trans (List.sublist_append_left _ _)) fun call hcall => ?_
        have hnil : ((f.start s history llm cancelEvent).complete s
            (f.begun s history llm cancelEvent).1 false).1.callsOf s = [] := hc
        rw [hnil] at hcall
        rw [List.mem_singleton.1 hcall]
        rfl
    · split_ifs
      · rw [view_addCall_ne hs, view_start_ne hs]
        exact h s
      · rw [view_addCall_ne hs, view_complete_ne hs, view_start_ne hs]
        exact h s

variable {f' : Finalizer} {i : ℕ} {outcome : Outcome}

/-- A call that awaits its summary is the only one of its session, and it has not
    run the steps after the summary. -/
theorem View.Good.of_awaiting (h : (f.view call.sessionId).Good) (hi : f.calls[i]? = some call)
    (hcall : call.result? = none) : f.callsOf call.sessionId = [call] ∧
      f.ran call.sessionId = stepsBefore ++ [.summary] ∧
      (f.emitted call.sessionId).Sublist namesBefore ∧
      f.results.get? call.sessionId = none := by
  have hmem : call ∈ (f.view call.sessionId).calls :=
    List.mem_filter.2 ⟨List.mem_of_getElem? hi, decide_eq_true rfl⟩
  cases h with
  | untouched hview =>
    rw [hview] at hmem
    exact nomatch hmem
  | unfinished c hcalls _ hran hemitted hresult =>
    rw [hcalls] at hmem
    obtain rfl := List.mem_singleton.1 hmem
    exact ⟨hcalls, hran, hemitted, hresult⟩
  | finalized result hcalls =>
    exact nomatch hcall.symm.trans (hcalls call hmem)

/-- A summary that is there, or is not to be, lets its call return. -/
theorem good_resume (h : ∀ s, (f.view s).Good) (hst : f.resume i outcome raises = some f')
    (s : String) : (f'.view s).Good := by
  obtain ⟨sessionId, task, ctx, awaited, hi, -, rfl⟩ := of_resume hst
  by_cases hs : sessionId = s
  · subst hs
    obtain ⟨hcalls, hran, hemitted, -⟩ := (h sessionId).of_awaiting hi rfl
    have hran' : (f.emit sessionId [] (ctx.summarize awaited).2).ran sessionId =
        stepsBefore ++ [.summary] :=
      (congrArg View.ran view_emit_self).trans ((List.append_nil _).trans hran)
    have hemitted' : ((f.emit sessionId [] (ctx.summarize awaited).2).emitted sessionId).Sublist
        (namesBefore ++ ["conversation_finalize_timeout_total"]) := by
      rw [show (f.emit sessionId [] (ctx.summarize awaited).2).emitted sessionId = _ from
        congrArg View.emitted view_emit_self]
      exact hemitted.append (names_summarize awaited)
    refine good_complete hran' hemitted' fun call hcall => ?_
    change call ∈ (f.calls.set i _).filter (·.sessionId = sessionId) at hcall
    rw [callsOf_setCall (s := sessionId) hcalls hi rfl rfl] at hcall
    rw [List.mem_singleton.1 hcall]
    rfl
  · refine Eq.mpr (congrArg View.Good (view_setCall_ne
      (f := ((f.emit sessionId [] (ctx.summarize awaited).2).complete sessionId
        (ctx.summarize awaited).1 raises).1) hi hs hs)) ?_
    rw [view_complete_ne (Ne.symm hs), view_emit_ne (Ne.symm hs)]
    exact h s

/-- A call that is cancelled never returns. -/
theorem good_cancel (h : ∀ s, (f.view s).Good) (hst : f.cancel i = some f') (s : String) :
    (f'.view s).Good := by
  obtain ⟨sessionId, task, ctx, hi, rfl⟩ := of_cancel hst
  by_cases hs : sessionId = s
  · subst hs
    obtain ⟨hcalls, hran, hemitted, hresult⟩ := (h sessionId).of_awaiting hi rfl
    exact .unfinished _ (callsOf_setCall hcalls hi rfl rfl) rfl hran hemitted hresult
  · rw [view_setCall_ne hi hs hs]
    exact h s

/-- Every step leaves every view as it is to be. -/
theorem good_step {l : Label} (h : ∀ s, (f.view s).Good) (hg : Sequential f l)
    (hst : step f l = some f') (s : String) : (f'.view s).Good := by
  cases l with
  | startSummaryEarly sessionId history llm =>
    obtain rfl := Option.some.inj hst
    rw [startSummaryEarly]
    split_ifs <;> exact h s
  | generated k chunks =>
    rw [step, generated] at hst
    split at hst
    · split_ifs at hst
      obtain rfl := Option.some.inj hst
      exact h s
    · exact absurd (hst) (by simp)
  | discardPendingSummary sessionId =>
    obtain rfl := Option.some.inj hst
    rw [discardPendingSummary]
    split <;> exact h s
  | finalize sessionId history llm cancelEvent =>
    obtain rfl := Option.some.inj hst
    exact good_finalize h hg s
  | resume i outcome raises => exact good_resume h hst s
  | cancel i => exact good_cancel h hst s

end Finalizer

/-- In the runs in which a session is finalized again only when the earlier calls
    have returned, its steps run once, all the calls return the same, and none
    returns a discarded summary. -/
theorem reachable_finalizedOnce {transcripts : Bool} {f : Finalizer}
    (hf : (system transcripts).ReachableIf Sequential f) : f.FinalizedOnce := by
  have hgood : ∀ s, (f.view s).Good := hf.invariant (I := fun f => ∀ s, (f.view s).Good)
    (fun _ => .untouched rfl) fun _ _ _ h hg hst => Finalizer.good_step h hg hst
  have hundiscarded := reachable_undiscarded hf.reachable
  refine ⟨fun s => (hgood s).ran_nodup, fun s => (hgood s).emitted_nodup,
    fun call hcall call' hcall' hs result result' hr hr' => ?_,
    fun call hcall k hk task htask => ?_⟩
  · refine (hgood call.sessionId).same (List.mem_filter.2 ⟨hcall, decide_eq_true rfl⟩)
      (List.mem_filter.2 ⟨hcall', decide_eq_true hs.symm⟩) hr hr'
  · obtain ⟨task', htask', hfalse⟩ := hundiscarded.taken call hcall k hk
    rw [Option.some.inj (htask.symm.trans htask')]
    exact hfalse

def thanks : List ChatMessage := [{ role := .user, content := "Thanks." }]

/-- A transfer fails, so that its summary is discarded, and the next one is finalized
    twice. -/
def retriedTransfer : List Label :=
  [.startSummaryEarly "s" thanks true, .generated 0 (some ["Old"]), .discardPendingSummary "s",
    .startSummaryEarly "s" thanks true, .finalize "s" thanks true true, .generated 1 (some ["New"]),
    .resume 0 .ready false, .finalize "s" thanks true true]

theorem reachable_finalizedOnce_retriedTransfer : ∃ f : Finalizer,
    (system true).execIf Sequential (system true).init retriedTransfer = some f ∧
      f.calls.map Call.result? = [some ⟨"New", true, true, .completed⟩,
        some ⟨"New", true, true, .completed⟩] ∧ f.FinalizedOnce := by
  have hrun : ((system true).execIf Sequential (system true).init retriedTransfer).map
      (fun f => f.calls.map Call.result?) = some [some ⟨"New", true, true, .completed⟩,
        some ⟨"New", true, true, .completed⟩] := by
    decide
  obtain ⟨f, hf, hcalls⟩ := Option.map_eq_some_iff.1 hrun
  exact ⟨f, hf, hcalls, reachable_finalizedOnce (.execIf .init hf)⟩

/-- The second call is made while the first one awaits its summary. -/
def overlapping : List Label :=
  [.finalize "s" thanks true true, .finalize "s" thanks true true,
    .resume 0 (.generated ["A"]) false, .resume 1 (.generated ["B"]) false]

/-- Calls that overlap finalize a session twice. -/
theorem not_finalizedOnce : ¬∀ transcripts f, (system transcripts).Reachable f →
    f.FinalizedOnce := by
  intro h
  have hrun : ((system true).exec (system true).init overlapping).map (fun f => f.emitted "s") =
      some ["set", "generate", "set", "generate", "record_turn",
        "conversation_finalize_success_total", "conversation_finalize_latency_ms", "record_turn",
        "conversation_finalize_success_total", "conversation_finalize_latency_ms"] := by
    decide
  obtain ⟨f, hf, hemitted⟩ := Option.map_eq_some_iff.1 hrun
  have hnodup := (h true f (.exec .init hf)).emitted "s"
  rw [hemitted] at hnodup
  exact absurd hnodup (by decide)

end Yuviz.Conversation.SessionFinalizer
