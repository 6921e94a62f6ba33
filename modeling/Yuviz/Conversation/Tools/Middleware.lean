import Mathlib.Data.Rat.Defs
import Mathlib.Algebra.Order.Field.Rat
import Mathlib.Tactic.Linarith
import Yuviz.Conversation.Messages
import Yuviz.Log

/-!
# The middleware of a tool call

The executor of a tool is called through a chain: the breaker, which answers
itself when the tool has failed too often, the retries (none by default), and
the timeout of each attempt. Logging, metrics and the record of latencies pass
on what they are given, and are left out.

What a breaker should do is said of the log of the executions of all tools
(`Admits`): a tool whose last executions all failed is not executed before the
cooldown has elapsed, and then once. A breaker refuses it, if it sees every call
(`replay_enter_of_openSince`).
-/

namespace Yuviz.Conversation.Tools

open Python
open Messages (ToolStatus ToolResult)

/-- The execution has failed, for the breaker. -/
def Failing (status : ToolStatus) : Prop := status = .failed ∨ status = .timeout

instance (status : ToolStatus) : Decidable (Failing status) := inferInstanceAs (Decidable (_ ∨ _))

/-! ### The breaker -/

/-- The readings of the clock are in seconds. -/
structure CircuitBreakerMiddleware where
  failsBeforeOpen : ℕ := 5
  cooldown : ℚ := 30
  consecutiveFailures : Dict String ℕ := []
  openedAt : Dict String ℚ := []

namespace CircuitBreakerMiddleware

/-- Before the call: the answer, if the breaker gives it itself. -/
def enter (b : CircuitBreakerMiddleware) (tool : String) (now : ℚ) :
    Except ToolResult CircuitBreakerMiddleware :=
  match b.openedAt.get? tool with
  | none => .ok b
  | some openedAt =>
    if now - openedAt < b.cooldown then
      .error { status := .unavailable, error := some "circuit_breaker_open" }
    else
      .ok { b with openedAt := b.openedAt.del tool }

/-- After the call. -/
def leave (b : CircuitBreakerMiddleware) (tool : String) (now : ℚ) (result : ToolResult) :
    CircuitBreakerMiddleware :=
  if Failing result.status then
    let count := (b.consecutiveFailures.get? tool).getD 0 + 1
    { b with
      consecutiveFailures := b.consecutiveFailures.set tool count
      openedAt := if b.failsBeforeOpen ≤ count then b.openedAt.set tool now else b.openedAt }
  else
    { b with consecutiveFailures := b.consecutiveFailures.set tool 0 }

end CircuitBreakerMiddleware

/-! ### The chain -/

structure RetryMiddleware where
  maxRetries : ℕ := 0
  attempts : ℕ := 0

/-- Another attempt, if there is to be one. -/
def RetryMiddleware.again (m : RetryMiddleware) (result : ToolResult) : Option RetryMiddleware :=
  if result.status = .failed ∧ m.attempts < m.maxRetries then
    some { m with attempts := m.attempts + 1 }
  else
    none

structure TimeoutMiddleware where
  timeoutMs : ℕ := 6000

/-- How an attempt ends. -/
inductive Attempt
  | returned (result : ToolResult)
  | timedOut
  | raised

structure MiddlewareChain (X : Type*) where
  executor : X
  breaker : CircuitBreakerMiddleware
  retry : RetryMiddleware
  timeout : TimeoutMiddleware

def buildDefaultChain {X : Type*} (executor : X) (timeoutMs : ℕ) : MiddlewareChain X where
  executor := executor
  breaker := {}
  retry := {}
  timeout := { timeoutMs := timeoutMs }

namespace MiddlewareChain

variable {X : Type*}

/-- The chain as it is while the executor runs, or the answer without it. -/
def enter (chain : MiddlewareChain X) (tool : String) (now : ℚ) :
    Except ToolResult (MiddlewareChain X) :=
  (chain.breaker.enter tool now).map fun breaker => { chain with breaker := breaker }

/-- What becomes of an attempt. -/
inductive Left (X : Type*)
  /-- The executor is called again. -/
  | again (chain : MiddlewareChain X)
  | returned (chain : MiddlewareChain X) (result : ToolResult)
  | raised

def leave (chain : MiddlewareChain X) (tool : String) (now : ℚ) (attempt : Attempt) : Left X :=
  let result := match attempt with
    | .returned result => some result
    | .timedOut => some { status := .timeout }
    | .raised => none
  match result with
  | none => .raised
  | some result =>
    match chain.retry.again result with
    | some retry => .again { chain with retry := retry }
    | none => .returned { chain with breaker := chain.breaker.leave tool now result } result

end MiddlewareChain

/-! ### The log of the executions -/

inductive Entry
  /-- A call of the tool: it reaches the executor, or is answered without it. -/
  | called (tool : String) (now : ℚ) (executed : Bool)
  /-- The execution has ended, with an exception if there is no status. -/
  | ended (tool : String) (now : ℚ) (status : Option ToolStatus)

namespace Entry

def now : Entry → ℚ
  | called _ now _ => now
  | ended _ now _ => now

/-- The outcome of an execution of the tool, and when it ended. -/
def outcome? (tool : String) : Entry → Option (ToolStatus × ℚ)
  | ended t now (some status) => if t = tool then some (status, now) else none
  | _ => none

def IsEnd (tool : String) : Entry → Prop
  | ended t _ _ => t = tool
  | called _ _ _ => False

instance (tool : String) : DecidablePred (IsEnd tool)
  | ended t _ _ => inferInstanceAs (Decidable (t = tool))
  | called _ _ _ => inferInstanceAs (Decidable False)

/-- An execution of the tool that began at the time, or later. -/
def IsCallFrom (tool : String) (time : ℚ) : Entry → Prop
  | called t now executed => t = tool ∧ time ≤ now ∧ executed = true
  | ended _ _ _ => False

instance (tool : String) (time : ℚ) : DecidablePred (IsCallFrom tool time)
  | called _ _ _ => inferInstanceAs (Decidable (_ ∧ _ ∧ _))
  | ended _ _ _ => inferInstanceAs (Decidable False)

end Entry

/-- The failures of the tool since it last succeeded, the newest first. -/
def failures (tool : String) (log : List Entry) : List (ToolStatus × ℚ) :=
  (log.reverse.filterMap (Entry.outcome? tool)).takeWhile (Failing ·.1)

/-- The executions of the tool at the breaker's default setting: since when it is open. -/
def openSince (tool : String) (log : List Entry) : Option ℚ :=
  if 5 ≤ (failures tool log).length then (failures tool log).head?.map Prod.snd else none

/-- An execution of the tool began at the time or later, and none has ended since. -/
def TrialOut (tool : String) (time : ℚ) (log : List Entry) : Prop :=
  ∃ e ∈ log.reverse.takeWhile (¬ Entry.IsEnd tool ·), e.IsCallFrom tool time

instance (tool : String) (time : ℚ) (log : List Entry) : Decidable (TrialOut tool time log) :=
  inferInstanceAs (Decidable (∃ e ∈ _, _))

/-- A call of the tool is to be executed: its last five executions have not all
    failed, or else the cooldown has elapsed since, and there is no trial yet. -/
def Admits (tool : String) (log : List Entry) (now : ℚ) : Prop :=
  match openSince tool log with
  | none => True
  | some t => 30 ≤ now - t ∧ ¬ TrialOut tool (t + 30) log

instance (tool : String) (log : List Entry) (now : ℚ) : Decidable (Admits tool log now) := by
  unfold Admits
  split <;> infer_instance

/-- A call is executed just when it is to be. -/
def Obeyed (before : List Entry) : Entry → Prop
  | .called tool now executed => executed = true ↔ Admits tool before now
  | .ended _ _ _ => True

/-- The entry is no call that is not to be executed. -/
def Admitted (before : List Entry) : Entry → Prop
  | .called tool now _ => Admits tool before now
  | .ended _ _ _ => True

/-- Where every call is executed, each is executed just when it is to be if and
    only if none is made that is not to be executed. -/
theorem obeyed_iff_admitted {log : List Entry}
    (h : ∀ tool now executed, .called tool now executed ∈ log → executed = true) :
    Throughout Obeyed log ↔ Throughout Admitted log := by
  refine forall_congr' fun before => forall_congr' fun e => forall_congr' fun after =>
    forall_congr' fun hlog => ?_
  rcases e with ⟨tool, now, executed⟩ | _
  · have hex : executed = true := h tool now executed (by simp [hlog])
    simp [Obeyed, Admitted, hex]
  · rfl

/-! ### A breaker that sees every call -/

section Replay

variable {log : List Entry} {tool : String} {e : Entry} {t now : ℚ}

theorem failures_concat (tool : String) (log : List Entry) (e : Entry) :
    failures tool (log ++ [e]) = match e.outcome? tool with
      | none => failures tool log
      | some o => if Failing o.1 then o :: failures tool log else [] := by
  rw [failures, List.reverse_concat, List.filterMap_cons]
  rcases e.outcome? tool with _ | o
  · rfl
  · by_cases ho : Failing o.1 <;> simp [ho, failures]

theorem openSince_eq_some_iff :
    openSince tool log = some t ↔
      5 ≤ (failures tool log).length ∧ (failures tool log).head?.map Prod.snd = some t := by
  rw [openSince, Option.ite_none_right_eq_some]

/-- What an entry does to a breaker that sees it. -/
def CircuitBreakerMiddleware.see (b : CircuitBreakerMiddleware) : Entry → CircuitBreakerMiddleware
  | .called tool now _ => (b.enter tool now).toOption.getD b
  | .ended tool now (some status) => b.leave tool now { status := status }
  | .ended _ _ none => b

/-- A breaker that has seen every call of the log. -/
def replay (log : List Entry) : CircuitBreakerMiddleware :=
  log.foldl CircuitBreakerMiddleware.see {}

theorem replay_concat (log : List Entry) (e : Entry) : replay (log ++ [e]) = (replay log).see e :=
  List.foldl_concat ..

/-- What a breaker knows of the log it has seen. -/
structure Knows (b : CircuitBreakerMiddleware) (log : List Entry) : Prop where
  failsBeforeOpen : b.failsBeforeOpen = 5
  cooldown : b.cooldown = 30
  count : ∀ tool, (b.consecutiveFailures.get? tool).getD 0 = (failures tool log).length
  /-- It is open from the last failure on, until a call comes after the cooldown. -/
  opened : ∀ tool t, openSince tool log = some t →
    b.openedAt.get? tool = some t ∨ ∃ e ∈ log, 30 ≤ e.now - t

theorem openSince_concat_of_outcome?_eq_none (h : e.outcome? tool = none) :
    openSince tool (log ++ [e]) = openSince tool log := by
  rw [openSince, openSince, failures_concat, h]

/-- Of another tool, an entry says nothing. -/
theorem knows_of_outcome?_eq_none {b : CircuitBreakerMiddleware} (h : e.outcome? tool = none)
    (hb : ∀ t, openSince tool log = some t →
      b.openedAt.get? tool = some t ∨ ∃ e ∈ log, 30 ≤ e.now - t)
    (ht : openSince tool (log ++ [e]) = some t) :
    b.openedAt.get? tool = some t ∨ ∃ e' ∈ log ++ [e], 30 ≤ e'.now - t := by
  rw [openSince_concat_of_outcome?_eq_none h] at ht
  refine (hb t ht).imp_right fun ⟨e', he', hlt⟩ => ?_
  exact ⟨e', List.mem_append_left _ he', hlt⟩

theorem Knows.called {b : CircuitBreakerMiddleware} (hb : Knows b log) (tool : String) (now : ℚ)
    (executed : Bool) :
    Knows (b.see (.called tool now executed)) (log ++ [.called tool now executed]) := by
  have hnone (tool' : String) : (Entry.called tool now executed).outcome? tool' = none := rfl
  have hcount (tool' : String) :
      (b.consecutiveFailures.get? tool').getD 0 =
        (failures tool' (log ++ [.called tool now executed])).length := by
    rw [hb.count, failures_concat, hnone]
  rw [CircuitBreakerMiddleware.see, CircuitBreakerMiddleware.enter]
  rcases hopened : b.openedAt.get? tool with _ | openedAt
  · exact ⟨hb.failsBeforeOpen, hb.cooldown, hcount, fun tool' t =>
      knows_of_outcome?_eq_none (hnone tool') (hb.opened tool')⟩
  · dsimp only
    split_ifs with hlt
    · exact ⟨hb.failsBeforeOpen, hb.cooldown, hcount, fun tool' t =>
        knows_of_outcome?_eq_none (hnone tool') (hb.opened tool')⟩
    · refine ⟨hb.failsBeforeOpen, hb.cooldown, hcount, fun tool' t ht => ?_⟩
      rw [openSince_concat_of_outcome?_eq_none (hnone tool')] at ht
      rcases hb.opened tool' t ht with h | ⟨e', he', hle⟩
      · by_cases htool : tool' = tool
        · -- The cooldown has elapsed at this very call.
          subst htool
          obtain rfl : openedAt = t := Option.some.inj (hopened.symm.trans h)
          rw [hb.cooldown, not_lt] at hlt
          exact .inr ⟨.called tool' now executed, by simp, hlt⟩
        · left
          rw [← h]
          exact Dict.get?_del_ne htool
      · exact .inr ⟨e', List.mem_append_left _ he', hle⟩

theorem Knows.ended {b : CircuitBreakerMiddleware} (hb : Knows b log) (tool : String) (now : ℚ)
    (status : ToolStatus) :
    Knows (b.see (.ended tool now (some status))) (log ++ [.ended tool now (some status)]) := by
  set e : Entry := .ended tool now (some status) with he
  have hself : e.outcome? tool = some (status, now) := if_pos rfl
  have hother (tool' : String) (h : tool' ≠ tool) : e.outcome? tool' = none := if_neg (Ne.symm h)
  rw [he, CircuitBreakerMiddleware.see, CircuitBreakerMiddleware.leave, ← he]
  by_cases hfail : Failing status
  · have hcons : failures tool (log ++ [e]) = (status, now) :: failures tool log := by
      rw [failures_concat, hself]
      exact if_pos hfail
    simp only [if_pos hfail]
    refine ⟨hb.failsBeforeOpen, hb.cooldown, fun tool' => ?_, fun tool' t ht => ?_⟩
    · rw [Dict.get?_set]
      split_ifs with htool
      · rw [htool, hcons, Option.getD_some, hb.count, List.length_cons]
      · rw [hb.count, failures_concat, hother tool' htool]
    · by_cases htool : tool' = tool
      · subst htool
        rw [openSince_eq_some_iff, hcons] at ht
        obtain ⟨hlen, hhead⟩ := ht
        obtain rfl : now = t := Option.some.inj hhead
        left
        rw [hb.failsBeforeOpen, hb.count]
        rw [List.length_cons] at hlen
        rw [if_pos hlen, Dict.get?_set, if_pos rfl]
      · refine knows_of_outcome?_eq_none (hother tool' htool) (fun t ht => ?_) ht
        refine (hb.opened tool' t ht).imp_left fun h => ?_
        split_ifs
        · rw [Dict.get?_set, if_neg htool, h]
        · exact h
  · have hnil : failures tool (log ++ [e]) = [] := by
      rw [failures_concat, hself]
      exact if_neg hfail
    simp only [if_neg hfail]
    refine ⟨hb.failsBeforeOpen, hb.cooldown, fun tool' => ?_, fun tool' t ht => ?_⟩
    · rw [Dict.get?_set]
      split_ifs with htool
      · rw [htool, hnil]
        rfl
      · rw [hb.count, failures_concat, hother tool' htool]
    · by_cases htool : tool' = tool
      · rw [htool, openSince, hnil] at ht
        simp at ht
      · exact knows_of_outcome?_eq_none (hother tool' htool) (hb.opened tool') ht

theorem knows_replay (log : List Entry) : Knows (replay log) log := by
  induction log using List.reverseRecOn with
  | nil => exact ⟨rfl, rfl, fun _ => rfl, fun _ _ h => by simp [openSince, failures] at h⟩
  | append_singleton log e ih =>
    rw [replay_concat]
    rcases e with ⟨tool, now, executed⟩ | ⟨tool, now, _ | status⟩
    · exact ih.called tool now executed
    · have hnone (tool' : String) : (Entry.ended tool now none).outcome? tool' = none := rfl
      refine ⟨ih.failsBeforeOpen, ih.cooldown, fun tool' => ?_, fun tool' t => ?_⟩
      · rw [failures_concat, hnone]
        exact ih.count tool'
      · exact knows_of_outcome?_eq_none (hnone tool') (ih.opened tool')
    · exact ih.ended tool now status

/-- A breaker that has seen every call refuses a tool whose last five executions
    have failed, within the cooldown. -/
theorem replay_enter_of_openSince (ht : openSince tool log = some t) (hnow : now - t < 30)
    (hlog : ∀ e ∈ log, e.now ≤ now) :
    (replay log).enter tool now =
      .error { status := .unavailable, error := some "circuit_breaker_open" } := by
  have hb := knows_replay log
  rcases hb.opened tool t ht with h | ⟨e, he, hle⟩
  · rw [CircuitBreakerMiddleware.enter, h]
    exact if_pos (hb.cooldown ▸ hnow)
  · -- The cooldown had elapsed before.
    have := hlog e he
    linarith

end Replay

end Yuviz.Conversation.Tools
