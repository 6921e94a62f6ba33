import Yuviz.Conversation.Tools.Middleware
import Yuviz.System

/-!
# The execution of tool calls

A call of the model is looked up among the tools of the agent, and executed
through a chain of middleware that is built for it. The calls of all sessions
run side by side: what is in the labels is which tool is called, what is found
for it, and how each attempt ends.

No chain outlives its call, so a breaker never refuses one: the tools are
protected against repeated calls just as long as there are none
(`Calls.obeyed_iff`).
-/

namespace Yuviz.Conversation.Tools

open Python
open Messages (ToolStatus ToolResult)

structure ToolDefinition where
  name : String
  description : String := ""
  parametersSchema : Dict String Json := []
  llmVisible : Bool := true
  companionToolName : Option String := none

/-- The tool of an agent. -/
structure ResolvedToolPolicy where
  definition : ToolDefinition
  toolProviderConfigId : String := ""
  timeoutMs : Option ℕ := none

/-- The executor of each tool, given its provider and that of its companion. -/
abbrev ExecutorRegistry (P X : Type*) := Dict String (P → Option P → X)

def defaultToolTimeoutMs : ℕ := 6000

variable {P X : Type*}

/-- `_execute_tool_call`, up to the execution: the result of a call that is not executed,
    or the chain it is executed through. What the provider manager has for a policy is
    `get`, where nothing is an exception. -/
def executeToolCall (registry : ExecutorRegistry P X) (get : ResolvedToolPolicy → Option P)
    (policiesByName : Dict String ResolvedToolPolicy) (toolName : String) :
    Except ToolResult (MiddlewareChain X) :=
  match policiesByName.get? toolName with
  | none => .error { status := .failed, error := some "unknown_tool" }
  | some policy =>
    match get policy with
    | none => .error { status := .failed, error := some "provider_unavailable" }
    | some provider =>
      let companion := (policy.definition.companionToolName.bind policiesByName.get?).bind get
      match registry.get? toolName with
      | none => .error { status := .failed, error := some "no_executor_registered" }
      | some factory =>
        let timeoutMs := match policy.timeoutMs with
          | none | some 0 => defaultToolTimeoutMs
          | some ms => ms
        .ok (buildDefaultChain (factory provider companion) timeoutMs)

/-- The breaker of a call that gets as far as the chain has seen no other. -/
theorem breaker_of_executeToolCall {registry : ExecutorRegistry P X}
    {get : ResolvedToolPolicy → Option P} {policiesByName : Dict String ResolvedToolPolicy}
    {toolName : String} {chain : MiddlewareChain X}
    (h : executeToolCall registry get policiesByName toolName = .ok chain) :
    chain.breaker = {} := by
  rw [executeToolCall] at h
  split at h <;> try contradiction
  split at h <;> try contradiction
  dsimp only at h
  split at h <;> try contradiction
  exact congrArg MiddlewareChain.breaker (Except.ok.inj h).symm

/-- So the call reaches the executor. -/
theorem enter_of_executeToolCall {registry : ExecutorRegistry P X}
    {get : ResolvedToolPolicy → Option P} {policiesByName : Dict String ResolvedToolPolicy}
    {toolName : String} {chain : MiddlewareChain X}
    (h : executeToolCall registry get policiesByName toolName = .ok chain) (now : ℚ) :
    chain.enter toolName now = .ok chain := by
  obtain ⟨executor, breaker, retry, timeout⟩ := chain
  obtain rfl : breaker = {} := breaker_of_executeToolCall h
  rfl

namespace Calls

/-- A call that is being executed. -/
structure Running (X : Type*) where
  toolName : String
  chain : MiddlewareChain X

structure State (X : Type*) where
  now : ℚ := 0
  running : Dict ℕ (Running X) := []
  log : List Entry := []

inductive Label (P : Type*)
  | call (id : ℕ) (now : ℚ) (get : ResolvedToolPolicy → Option P)
      (policiesByName : Dict String ResolvedToolPolicy) (toolName : String)
  /-- An attempt of the call ends. -/
  | left (id : ℕ) (now : ℚ) (attempt : Attempt)

def step (registry : ExecutorRegistry P X) (s : State X) : Label P → Option (State X)
  | .call id now get policiesByName toolName =>
    if s.now ≤ now ∧ id ∉ s.running.map Prod.fst then
      match executeToolCall registry get policiesByName toolName with
      | .error _ => some { s with now := now }
      | .ok chain =>
        match chain.enter toolName now with
        | .error _ => some { s with now := now, log := s.log ++ [.called toolName now false] }
        | .ok chain =>
          some { now := now
                 running := s.running.set id ⟨toolName, chain⟩
                 log := s.log ++ [.called toolName now true] }
    else none
  | .left id now attempt =>
    if s.now ≤ now then
      match s.running.get? id with
      | none => none
      | some r =>
        match r.chain.leave r.toolName now attempt with
        | .again chain => some { s with now := now, running := s.running.set id ⟨r.toolName, chain⟩ }
        | .returned _ result =>
          some { now := now
                 running := s.running.del id
                 log := s.log ++ [.ended r.toolName now (some result.status)] }
        | .raised =>
          some { now := now
                 running := s.running.del id
                 log := s.log ++ [.ended r.toolName now none] }
    else none

/-- All the calls of an orchestrator. -/
def system (registry : ExecutorRegistry P X) : System (State X) (Label P) := ⟨{}, step registry⟩

variable {registry : ExecutorRegistry P X} {s s' : State X} {l : Label P}

/-- No call that gets as far as its breaker is refused. -/
def AllExecuted (log : List Entry) : Prop :=
  ∀ tool now executed, .called tool now executed ∈ log → executed = true

theorem AllExecuted.concat {log : List Entry} {e : Entry} (h : AllExecuted log)
    (he : ∀ tool now, e ≠ .called tool now false) : AllExecuted (log ++ [e]) := by
  intro tool now executed hmem
  rcases List.mem_append.1 hmem with hmem | hmem
  · exact h tool now executed hmem
  · obtain rfl := List.mem_singleton.1 hmem
    exact Bool.of_not_eq_false fun hf => he tool now (hf ▸ rfl)

theorem allExecuted_step (hs : AllExecuted s.log) (hst : step registry s l = some s') :
    AllExecuted s'.log := by
  rcases l with ⟨id, now, get, policiesByName, toolName⟩ | ⟨id, now, attempt⟩
  · obtain ⟨-, hst⟩ := Option.ite_none_right_eq_some.1 hst
    split at hst
    · exact Option.some.inj hst ▸ hs
    · rename_i chain hchain
      rw [enter_of_executeToolCall hchain now] at hst
      exact Option.some.inj hst ▸ hs.concat (by simp)
  · obtain ⟨-, hst⟩ := Option.ite_none_right_eq_some.1 hst
    split at hst
    · contradiction
    · split at hst
      · exact Option.some.inj hst ▸ hs
      all_goals exact Option.some.inj hst ▸ hs.concat (by simp)

theorem allExecuted (hs : (system registry).Reachable s) : AllExecuted s.log :=
  hs.invariant (I := fun s => AllExecuted s.log) (fun _ _ _ h => absurd h List.not_mem_nil)
    fun _ _ _ => allExecuted_step

/-- Every call is executed just when it is to be, if and only if none is made
    that is not to be executed. -/
theorem obeyed_iff {P X : Type*} {registry : ExecutorRegistry P X} {s : State X}
    (hs : (system registry).Reachable s) :
    Throughout Obeyed s.log ↔ Throughout Admitted s.log :=
  obeyed_iff_admitted (allExecuted hs)

/-! ### A tool that is down -/

/-- Five failing calls, one after the other, and a sixth. -/
def down : List (Label Unit) :=
  let policies : Dict String ResolvedToolPolicy :=
    [("book_appointment", { definition := { name := "book_appointment" } })]
  let call := .call 0 0 (fun _ => some ()) policies "book_appointment"
  (List.replicate 5 [call, .left 0 0 .timedOut]).flatten ++ [call]

/-- The registry of the calendar's tool alone. -/
def calendar : ExecutorRegistry Unit Unit := [("book_appointment", fun _ _ => ())]

theorem obeyed_iff_down :
    ∃ s, (system calendar).exec {} down = some s ∧
      (Throughout Obeyed s.log ↔ Throughout Admitted s.log) := by
  obtain ⟨s, hs⟩ : ∃ s, (system calendar).exec {} down = some s := ⟨_, rfl⟩
  exact ⟨s, hs, obeyed_iff (System.Reachable.exec .init hs)⟩

/-- The sixth is executed like the first, while the tool is down. -/
theorem not_obeyed :
    ∃ s, (system calendar).Reachable s ∧ ¬ Throughout Obeyed s.log := by
  obtain ⟨s, hs⟩ : ∃ s, (system calendar).exec {} down = some s := ⟨_, rfl⟩
  have hlog : s.log = (List.replicate 5 [.called "book_appointment" 0 true,
      .ended "book_appointment" 0 (some .timeout)]).flatten ++
        [.called "book_appointment" 0 true] := by
    rw [← Option.some_inj, ← Option.map_some, ← hs]
    rfl
  refine ⟨s, System.Reachable.exec .init hs, fun h => ?_⟩
  rw [hlog, throughout_concat] at h
  exact absurd (h.2.1 rfl) (by decide +kernel)

end Calls

end Yuviz.Conversation.Tools
