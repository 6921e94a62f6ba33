import Mathlib
import Yuviz.Conversation.Tools.Orchestrator
import Yuviz.Conversation.Tools.PolicyResolver
import Yuviz.Conversation.Workflow.Navigation

/-!
# What the model can do with tools

The turns of a call, at the grain of their awaits: the model may call any tool,
offered or not, and while a turn waits for it, for a tool or for the policies,
the tables change, other calls use the resolver, and a transfer of the turn
before may be abandoned.

A tool is executed only if it is among those of the last resolution. They are
then permitted by the node that is active, as long as no transfer is abandoned
in between; and they are enabled by the policies as they were read, which may
be no longer those in the tables (`confined`). A transition is along an edge
that leaves the active node, whatever happens in between.
-/

namespace Yuviz.Conversation.Tools.Confinement

open Python
open Messages (ChatMessage ToolResult foldToolResult)
open Workflow (Runner Run)

variable [Runtime]

/-! ### The tools of a node -/

/-- `is_single_stage`. -/
def isSingleStage (g : Config.WorkflowGraph) : Bool :=
  g.nodes.all fun e => e.2.type ∈ ["start", "end"] ∨ e.2.isUnwired

/-- `allowed_tool_names`: a graph of a single stage does not narrow the tools. -/
def allowedToolNames (g : Config.WorkflowGraph) (node : Config.Node) : Option (List String) :=
  if isSingleStage g then none else some node.tools

/-- A transition, as the tool it is offered as. -/
def ofTransition (d : Workflow.ToolDefinition) : ToolDefinition where
  name := d.name
  description := d.description
  parametersSchema := match d.parametersSchema with
    | .obj schema => schema
    | _ => []

/-- `_TRANSITION_RESULT`. -/
def transitionResult : ToolResult where
  status := .success
  payload := [("status", .str "done")]

/-- The prompt is swapped in the messages of the turn. -/
def swapPrompt (prompt : String) : List ChatMessage → List ChatMessage
  | [] => []
  | m :: ms =>
    if m.role = .system then { role := .system, content := prompt } :: ms
    else { role := .system, content := prompt } :: m :: ms

/-! ### A call -/

/-- What is evaluated when the tools are resolved: the transitions, and what the stage allows. -/
structure Found where
  localTools : Dict String (Workflow.ToolDefinition × Config.Edge)
  only : Option (List String)

/-- What the turn goes on with when the tools are resolved. -/
inductive After
  | generate
  /-- The end of a local call. -/
  | fold (event : ToolCallEvent) (result : ToolResult)

inductive Phase
  | idle
  | resolving (after : After)
  /-- The policies are asked for, -/
  | querying (found : Found) (after : After)
  /-- and the answer is on its way. -/
  | fetching (query : ℕ) (found : Found) (after : After)
  | generating
  /-- A remote call, with its result if it is not executed. -/
  | executing (event : ToolCallEvent) (refused : Option ToolResult)

/-- An execution that a turn has started, in the moment it did. -/
structure Execution where
  toolName : String
  /-- The node that is active, -/
  node : Config.Node
  /-- and the tables. -/
  db : ToolTables
  /-- When the turn last resolved its tools, -/
  resolvedAt : ℚ
  /-- and whether a transfer has been abandoned since. -/
  abandoned : Bool

structure Transition where
  edge : Config.Edge
  /-- The node that is active when the model calls the tool. -/
  node : Config.Node

structure Session where
  resolver : Resolver := {}
  run : Run
  turn : ToolCallOrchestrator.Turn := { history := [], isOver := true }
  phase : Phase := .idle
  /-- The edges of the local tools. -/
  handlers : Dict String Config.Edge := []
  resolvedAt : ℚ := 0
  abandoned : Bool := false
  /-- What the turn has done. -/
  executions : List Execution := []
  transitions : List Transition := []

/-- What happens beside the turn. -/
inductive Change
  | tick (seconds : ℚ)
  | write (db : ToolTables)
  /-- The resolver is asked for the tools of an agent by another call. -/
  | select (agentId : String)
  | store (query : ℕ)
  /-- What the pipeline does to the runner, other than by the turn. A transfer that was to follow
      the turn before is abandoned when its playback is reported as interrupted, which may be
      while this turn is under way. -/
  | runner (call : Workflow.Call)

/-- The tools of the runner are the turn's alone. -/
def isTurns : Workflow.Call → Bool
  | .localTools | .invoke _ => true
  | _ => false

/-- How the handler of a transition ends. -/
inductive Handler
  | done
  /-- The extraction of the node that is left raises an exception, -/
  | raisedBefore
  /-- or the summary. -/
  | raisedAfter
  /-- The caller interrupts it. -/
  | cancelled
  deriving DecidableEq

/-- A tool call of the model. -/
structure Called (P : Type*) where
  event : ToolCallEvent
  today : Date
  handler : Handler := .done
  /-- What the provider manager has. -/
  provider : ResolvedToolPolicy → Option P

inductive SessionLabel (P : Type*)
  | change (c : Change)
  /-- `run_turn` is called. -/
  | start (history : List ChatMessage) (forceToolName : Option String)
  | resolve
  /-- The tables are read for the turn. -/
  | selected
  | fetched
  | token (text : String)
  | call (c : Called P)
  /-- A remote call is at its end, with what the chain returns. -/
  | executed (result : ToolResult)
  /-- The model ends its reply; or there is an exception, or nobody listens any more. -/
  | ended

/-- What a call is set up with. -/
structure CallSetup (P X : Type*) where
  orchestrator : ToolCallOrchestrator P X
  policies : PolicyResolver
  graph : Config.WorkflowGraph
  agentId : String
  /-- What is appended to every prompt. -/
  suffix : String := ""

namespace Session

variable {P X : Type*} (c : CallSetup P X) (s : Session)

def change : Change → Option Session
  | .tick seconds =>
    if 0 ≤ seconds then
      some { s with resolver := { s.resolver with now := s.resolver.now + seconds } }
    else none
  | .write db => some { s with resolver := { s.resolver with db := db } }
  | .select agentId => some { s with resolver := s.resolver.select agentId }
  | .store query =>
    (s.resolver.store c.policies query).map fun resolver => { s with resolver := resolver }
  | .runner call =>
    if isTurns call then none
    else
      (s.run.call c.graph call).map fun run =>
        { s with run := run, abandoned := s.abandoned ∨ run.runner.node ≠ s.run.runner.node }

/-- The turn is over. -/
def finish : Session := { s with phase := .idle, turn := { s.turn with isOver := true } }

/-- The end of a round with a tool call. -/
def fold (event : ToolCallEvent) (result : ToolResult) : Session :=
  let turn : ToolCallOrchestrator.Turn := { s.turn with
    history := s.turn.history ++ foldToolResult Json.dumps event.toolCall result }
  match result.deterministicResponse with
  | some text =>
    finish { s with turn := { turn with events := turn.events ++ [.deterministicSpoken text] } }
  | none =>
    if result.IsCancelled then finish { s with turn := turn }
    else
      { s with
        turn := turn
        phase := if c.orchestrator.maxToolIterations ≤ turn.iteration then .resolving .generate
          else .generating }

/-- The tools are those that were found. -/
def resolved (found : Found) (policies : List ResolvedToolPolicy) (after : After) : Session :=
  let s : Session := { s with
    turn := c.orchestrator.resolve s.turn
      ⟨found.localTools.map fun e => ofTransition e.2.1, policies⟩
    handlers := if c.orchestrator.maxLocalToolCalls ≤ s.turn.localCalls then []
      else found.localTools.map fun e => (e.1, e.2.2)
    resolvedAt := s.resolver.now }
  match after with
  | .generate => { s with phase := .generating }
  | .fold event result => s.fold c event result

/-- `resolve`, up to where it waits for the policies. -/
def resolve (after : After) : Session :=
  let found : Found := ⟨s.run.runner.localTools, allowedToolNames c.graph s.run.runner.node⟩
  let s : Session := { s with
    run := { s.run with offered := s.run.offered ++ s.run.runner.localTools.map (·.2.2) }
    abandoned := false }
  if c.orchestrator.maxToolIterations ≤ s.turn.iteration then s.resolved c found [] after
  else if c.agentId = "" ∨ ¬ c.policies.hasPool then s.resolved c found [] after
  else
    match s.resolver.cached c.policies c.agentId with
    | some policies => s.resolved c found (narrow policies found.only) after
    | none => { s with phase := .querying found after }

/-- A local call was not cancelled, so the tools are resolved again. -/
def localCompleted (event : ToolCallEvent) (result : ToolResult) : Session :=
  { s with
    turn := { s.turn with events := s.turn.events ++ [.localToolCompleted event.toolName] }
    phase := .resolving (.fold event result) }

/-- The model calls a local tool. -/
def onLocal (event : ToolCallEvent) (edge : Config.Edge) (handler : Handler) : Session :=
  let s : Session := { s with turn := { s.turn with localCalls := s.turn.localCalls + 1 } }
  let failed : ToolResult := { status := .failed, error := some "local_tool_failed" }
  match handler with
  | .cancelled => s.fold c event { status := .failed, error := some "cancelled" }
  | .raisedBefore => s.localCompleted event failed
  | handler =>
    match s.run.runner.transition c.graph edge with
    | none => s.localCompleted event failed
    | some runner =>
      localCompleted
        { s with
          turn := { s.turn with
            history := swapPrompt (runner.systemPrompt c.graph c.suffix) s.turn.history }
          run := { s.run with runner := runner }
          transitions := s.transitions ++ [⟨edge, s.run.runner.node⟩] }
        event (if handler = .done then transitionResult else failed)

/-- A call of a remote tool, whose date has been checked. -/
def onRemote (event : ToolCallEvent) (provider : ResolvedToolPolicy → Option P) : Session :=
  let s : Session := { s with turn := { s.turn with
    iteration := s.turn.iteration + 1
    events := s.turn.events ++ [.toolCallStarted event.toolName] } }
  match executeToolCall c.orchestrator.executorRegistry provider s.turn.policiesByName
      event.toolName with
  | .error result => { s with phase := .executing event (some result) }
  | .ok _ =>
    { s with
      phase := .executing event none
      executions := s.executions ++
        [{ toolName := event.toolName
           node := s.run.runner.node
           db := s.resolver.db
           resolvedAt := s.resolvedAt
           abandoned := s.abandoned }] }

/-- The model calls a tool that is none of the local ones. -/
def onOther (x : Called P) : Session :=
  if c.orchestrator.maxLocalToolCalls ≤ s.turn.localCalls ∧
      x.event.toolName ∈ s.turn.seenLocalNames then
    s.fold c x.event { status := .failed, error := some "local_tool_call_cap_exceeded" }
  else
    match c.orchestrator.checkRequestedDate x.today x.event s.turn.history with
    | none => s.finish
    | some (event, some rejected) => s.fold c event rejected
    | some (event, none) => s.onRemote c event x.provider

def step : SessionLabel P → Option Session
  | .change change => s.change c change
  | .start history forceToolName =>
    match s.phase with
    | .idle =>
      some
        { s with
          turn := { history := history, toolChoice := forceToolName }
          phase := .resolving .generate
          executions := []
          transitions := [] }
    | _ => none
  | .resolve =>
    match s.phase with
    | .resolving after => some (s.resolve c after)
    | _ => none
  | .selected =>
    match s.phase with
    | .querying found after =>
      some
        { s with
          resolver := s.resolver.select c.agentId
          phase := .fetching s.resolver.queries.length found after }
    | _ => none
  | .fetched =>
    match s.phase with
    | .fetching query found after =>
      s.resolver.queries[query]?.bind fun q =>
        (s.resolver.store c.policies query).map fun resolver =>
          resolved c { s with resolver := resolver } found
            (narrow (Resolver.list c.policies q) found.only) after
    | _ => none
  | .token text =>
    match s.phase with
    | .generating =>
      some { s with turn := { s.turn with events := s.turn.events ++ [.token text] } }
    | _ => none
  | .call x =>
    match s.phase with
    | .generating =>
      let s : Session := { s with turn := { s.turn with toolChoice := none } }
      match s.handlers.get? x.event.toolName with
      | some edge => some (s.onLocal c x.event edge x.handler)
      | none => some (s.onOther c x)
    | _ => none
  | .executed result =>
    match s.phase with
    | .executing event refused => some (s.fold c event (refused.getD result))
    | _ => none
  | .ended => some s.finish

end Session

/-- The turns of a call that begins at the node `start`. -/
def calls {P X : Type*} (c : CallSetup P X) (start : Config.Node) (vars : Dict String Json) :
    System Session (SessionLabel P) where
  init := { run := { runner := .init start vars } }
  step := Session.step c


/-! ### Confinement -/

/-- An execution as it should be. -/
structure Execution.Confined {P X : Type*} (c : CallSetup P X) (e : Execution) : Prop where
  enabled : e.db.Enabled c.agentId e.toolName
  permitted : Permitted (allowedToolNames c.graph e.node) e.toolName

/-- An execution as it is: by what a query of the policies found. -/
structure Execution.ConfinedByQuery {P X : Type*} (c : CallSetup P X) (r : Resolver)
    (e : Execution) : Prop where
  enabled : ∃ q ∈ r.queries, q.agentId = c.agentId ∧ q.IsCurrent c.policies e.resolvedAt ∧
    q.db.Enabled c.agentId e.toolName
  permitted : e.abandoned = false → Permitted (allowedToolNames c.graph e.node) e.toolName

omit [Runtime] in
theorem Execution.ConfinedByQuery.extends {P X : Type*} {c : CallSetup P X} {r r' : Resolver}
    {e : Execution} (h : e.ConfinedByQuery c r) (hr : r.Extends r') : e.ConfinedByQuery c r' := by
  obtain ⟨q, hq, hagent, hcurrent, henabled⟩ := h.enabled
  obtain ⟨storedAt, hstored, -⟩ := id hcurrent
  exact ⟨⟨q, hr q hq (by simp [hstored]), hagent, hcurrent, henabled⟩, h.permitted⟩

namespace Session

variable {P X : Type*} {c : CallSetup P X} {s s' : Session} {nodes : List Config.Node}
  {edges : List Config.Edge}

/-- What does not depend on where the turn is. -/
structure Kept (c : CallSetup P X) (nodes : List Config.Node) (edges : List Config.Edge)
    (s : Session) : Prop where
  sound : s.resolver.Sound c.policies
  onFlow : Workflow.OnFlow nodes edges s.run
  executions : ∀ e ∈ s.executions, e.ConfinedByQuery c s.resolver
  le_iteration : s.executions.length ≤ s.turn.iteration
  le_max : s.executions.length ≤ c.orchestrator.maxToolIterations
  transitions : ∀ t ∈ s.transitions, t.edge ∈ t.node.outEdges

/-- Tools by which the model can take the edges. -/
def Leave (run : Run) (taken : List Config.Edge) : Prop :=
  ∀ e ∈ taken, e ∈ run.runner.node.outEdges ∧ e ∈ run.offered

/-- What was found is what the active node offers. -/
structure FoundAt (c : CallSetup P X) (s : Session) (found : Found) : Prop where
  leave : Leave s.run (found.localTools.map (·.2.2))
  only : s.abandoned = false → found.only = allowedToolNames c.graph s.run.runner.node

/-- So are the tools of the turn. -/
structure ToolsAt (c : CallSetup P X) (s : Session) : Prop where
  leave : Leave s.run (s.handlers.map Prod.snd)
  name : ∀ e ∈ s.turn.policiesByName, e.1 = e.2.definition.name
  current : ∀ e ∈ s.turn.policiesByName, ∃ resolved,
    s.resolver.Current c.policies c.agentId s.resolvedAt resolved ∧ e.2 ∈ resolved
  permitted : s.abandoned = false → ∀ e ∈ s.turn.policiesByName,
    Permitted (allowedToolNames c.graph s.run.runner.node) e.2.definition.name

/-- What the turn relies on. -/
def PhaseAt (c : CallSetup P X) (s : Session) : Prop :=
  match s.phase with
  | .idle | .resolving _ => True
  | .querying found _ => s.FoundAt c found
  | .fetching query found _ =>
    s.FoundAt c found ∧ ∃ q, s.resolver.queries[query]? = some q ∧ q.agentId = c.agentId
  | .generating =>
    s.ToolsAt c ∧ (s.turn.policiesByName ≠ [] → s.turn.iteration < c.orchestrator.maxToolIterations)
  | .executing _ _ => s.ToolsAt c

structure Inv (c : CallSetup P X) (nodes : List Config.Node) (edges : List Config.Edge)
    (s : Session) : Prop extends Kept c nodes edges s where
  phaseAt : s.PhaseAt c

omit [Runtime] in
theorem Kept.finish (h : s.Kept c nodes edges) : s.finish.Inv c nodes edges := ⟨{ h with }, trivial⟩

omit [Runtime] in
/-- A turn goes on generating only when its tools need not be resolved. -/
theorem Kept.fold (h : s.Kept c nodes edges) (ht : s.ToolsAt c) (event : ToolCallEvent)
    (result : ToolResult) : (s.fold c event result).Inv c nodes edges := by
  rw [Session.fold]
  dsimp only
  split
  · exact Kept.finish { h with }
  · split_ifs with hcancel hle
    · exact Kept.finish { h with }
    · exact ⟨{ h with }, trivial⟩
    · exact ⟨{ h with }, { ht with }, fun _ => not_le.1 hle⟩

omit [Runtime] in
/-- The policies of a turn are some of those that are resolved, while it may call them. -/
theorem mem_policiesByName_resolve {o : ToolCallOrchestrator P X} {t : ToolCallOrchestrator.Turn}
    {x : ToolCallOrchestrator.Resolution} {e : String × ResolvedToolPolicy}
    (he : e ∈ (o.resolve t x).policiesByName) :
    t.iteration < o.maxToolIterations ∧ e.2 ∈ x.policies ∧ e.1 = e.2.definition.name := by
  rw [ToolCallOrchestrator.resolve] at he
  dsimp only at he
  obtain ⟨p, hp, rfl⟩ := List.mem_map.1 (Dict.mem_of_mem_ofPairs he)
  split_ifs at hp with hle
  · cases hp
  · exact ⟨not_le.1 hle, hp, rfl⟩

omit [Runtime] in
theorem Kept.resolved {found : Found} {policies : List ResolvedToolPolicy}
    (h : s.Kept c nodes edges) (hf : s.FoundAt c found)
    (hp : ∀ p ∈ policies, Permitted found.only p.definition.name ∧ ∃ resolved,
      s.resolver.Current c.policies c.agentId s.resolver.now resolved ∧ p ∈ resolved)
    (after : After) : (s.resolved c found policies after).Inv c nodes edges := by
  unfold Session.resolved
  dsimp only
  set s₁ : Session := { s with
    turn := c.orchestrator.resolve s.turn
      ⟨found.localTools.map fun e => ofTransition e.2.1, policies⟩
    handlers := if c.orchestrator.maxLocalToolCalls ≤ s.turn.localCalls then []
      else found.localTools.map fun e => (e.1, e.2.2)
    resolvedAt := s.resolver.now } with hs₁
  have hkept : s₁.Kept c nodes edges := { h with }
  have htools : s₁.ToolsAt c := by
    refine ⟨fun e he => hf.leave e ?_, fun e he => ?_, fun e he => ?_, fun habandoned e he => ?_⟩
    · -- Once the local calls are used up there is no local tool.
      rw [hs₁] at he
      dsimp only at he
      split_ifs at he
      · cases he
      · rwa [List.map_map] at he
    · exact (mem_policiesByName_resolve he).2.2
    · exact (hp _ (mem_policiesByName_resolve he).2.1).2
    · exact hf.only habandoned ▸ (hp _ (mem_policiesByName_resolve he).2.1).1
  rcases after with _ | ⟨event, result⟩
  · refine ⟨{ hkept with }, { htools with }, fun hne => ?_⟩
    obtain ⟨e, he⟩ := List.exists_mem_of_ne_nil _ hne
    exact (mem_policiesByName_resolve he).1
  · exact hkept.fold htools event result

/-- The tools that are found are those of the active node, unless the turn has to wait for the
    policies. -/
theorem Inv.resolve (hv : Config.Valid nodes edges) (h : s.Inv c nodes edges) (after : After) :
    (s.resolve c after).Inv c nodes edges := by
  have hnavigable := Workflow.navigable_of_isStep hv h.onFlow.node
  rw [Session.resolve]
  dsimp only
  set found : Found := ⟨s.run.runner.localTools, allowedToolNames c.graph s.run.runner.node⟩
  set s₁ : Session := { s with
    run := { s.run with offered := s.run.offered ++ s.run.runner.localTools.map (·.2.2) }
    abandoned := false } with hs₁
  have hkept : s₁.Kept c nodes edges :=
    { h with
      onFlow := h.onFlow.call hv (c := .localTools) rfl }
  have hfound : s₁.FoundAt c found := by
    refine ⟨fun e he => ⟨?_, List.mem_append_right _ he⟩, fun _ => rfl⟩
    rwa [hnavigable.tools] at he
  have hnone : ∀ p ∈ ([] : List ResolvedToolPolicy),
      Permitted found.only p.definition.name ∧ ∃ resolved,
        s₁.resolver.Current c.policies c.agentId s₁.resolver.now resolved ∧ p ∈ resolved := nofun
  split_ifs
  · exact hkept.resolved hfound hnone after
  · exact hkept.resolved hfound hnone after
  · split
    · rename_i policies hcached
      refine hkept.resolved hfound (fun p hp => ?_) after
      obtain ⟨hmem, hpermitted⟩ := mem_narrow hp
      exact ⟨hpermitted, policies, Resolver.current_of_cached h.sound hcached, hmem⟩
    · exact ⟨{ hkept with }, { hfound with }⟩

/-! ### What changes beside the turn -/

/-- The turn is where it was. The queries its tools come from stay, and so does the active node,
    unless it is one that nothing leads out of. -/
structure Beside (s s' : Session) : Prop where
  turn : s'.turn = s.turn
  phase : s'.phase = s.phase
  handlers : s'.handlers = s.handlers
  resolvedAt : s'.resolvedAt = s.resolvedAt
  executions : s'.executions = s.executions
  transitions : s'.transitions = s.transitions
  queries : s.resolver.Extends s'.resolver
  offered : s'.run.offered = s.run.offered
  node : s'.run.runner.node = s.run.runner.node ∧ s'.abandoned = s.abandoned ∨
    s.run.runner.node.outEdges = [] ∧ s'.abandoned = true

variable {found : Found}

omit [Runtime] in
theorem Beside.leave (h : Beside s s') {taken : List Config.Edge} (hleave : Leave s.run taken) :
    Leave s'.run taken := by
  intro e he
  obtain ⟨hedge, hoffered⟩ := hleave e he
  rw [h.offered]
  rcases h.node with ⟨hnode, -⟩ | ⟨hnode, -⟩
  · exact ⟨hnode ▸ hedge, hoffered⟩
  · rw [hnode] at hedge
    cases hedge

omit [Runtime] in
theorem Beside.foundAt (h : Beside s s') (hf : s.FoundAt c found) : s'.FoundAt c found := by
  refine ⟨h.leave hf.leave, fun habandoned => ?_⟩
  rcases h.node with ⟨hnode, heq⟩ | ⟨-, heq⟩
  · rw [hnode]
    exact hf.only (heq ▸ habandoned)
  · rw [heq] at habandoned
    cases habandoned

omit [Runtime] in
theorem Beside.toolsAt (h : Beside s s') (ht : s.ToolsAt c) : s'.ToolsAt c := by
  refine ⟨h.handlers ▸ h.leave ht.leave, h.turn ▸ ht.name, fun e he => ?_,
    fun habandoned e he => ?_⟩
  · obtain ⟨resolved, hcurrent, hmem⟩ := ht.current e (h.turn ▸ he)
    exact ⟨resolved, h.resolvedAt ▸ hcurrent.extends h.queries, hmem⟩
  · rcases h.node with ⟨hnode, heq⟩ | ⟨-, heq⟩
    · rw [hnode]
      exact ht.permitted (heq ▸ habandoned) e (h.turn ▸ he)
    · rw [heq] at habandoned
      cases habandoned

omit [Runtime] in
theorem Inv.beside (h : s.Inv c nodes edges) (hb : Beside s s')
    (hsound : s'.resolver.Sound c.policies) (hflow : Workflow.OnFlow nodes edges s'.run)
    (hquery : ∀ (i : ℕ) (q : Query), s.resolver.queries[i]? = some q →
      ∃ q', s'.resolver.queries[i]? = some q' ∧ q'.agentId = q.agentId) :
    s'.Inv c nodes edges := by
  refine ⟨⟨hsound, hflow, fun e he => ?_, ?_, ?_, hb.transitions ▸ h.transitions⟩, ?_⟩
  · exact (h.executions e (hb.executions ▸ he)).extends hb.queries
  · rw [hb.executions, hb.turn]
    exact h.le_iteration
  · rw [hb.executions]
    exact h.le_max
  · have hphase := h.phaseAt
    rw [PhaseAt] at hphase ⊢
    rw [hb.phase]
    cases hp : s.phase with
    | idle => trivial
    | resolving after => trivial
    | querying found after =>
      rw [hp] at hphase
      exact hb.foundAt hphase
    | fetching query found after =>
      rw [hp] at hphase
      obtain ⟨hfound, q, hq, hagent⟩ := hphase
      obtain ⟨q', hq', hagent'⟩ := hquery query q hq
      exact ⟨hb.foundAt hfound, q', hq', hagent'.trans hagent⟩
    | generating =>
      rw [hp] at hphase
      rw [hb.turn]
      exact ⟨hb.toolsAt hphase.1, hphase.2⟩
    | executing event refused =>
      rw [hp] at hphase
      exact hb.toolsAt hphase

/-- A node that a transfer is abandoned at is a transfer node, which nothing leads out of. -/
theorem beside_runner (hv : Config.Valid nodes edges) (hflow : Workflow.OnFlow nodes edges s.run)
    {call : Workflow.Call} {run : Run} (hcall : isTurns call = false)
    (hrun : s.run.call (Config.buildGraph nodes edges) call = some run) :
    Beside s
      { s with run := run, abandoned := s.abandoned ∨ run.runner.node ≠ s.run.runner.node } := by
  have hoffered : run.offered = s.run.offered ∧ (run.runner.node = s.run.runner.node ∨
      s.run.runner.node.type = "transfer") := by
    cases call with
    | localTools => cases hcall
    | invoke e => cases hcall
    | abandonTransfer =>
      obtain rfl := Option.some.inj hrun
      rcases s.run.runner.abandonTransfer_cases with ⟨-, htype, -⟩ | ⟨hnode, -⟩
      · exact ⟨rfl, .inr htype⟩
      · exact ⟨rfl, .inl hnode⟩
    | _ =>
      obtain rfl := Option.some.inj hrun
      exact ⟨rfl, .inl rfl⟩
  refine ⟨rfl, rfl, rfl, rfl, rfl, rfl, fun _ hq _ => hq, hoffered.1, ?_⟩
  by_cases hnode : run.runner.node = s.run.runner.node
  · exact .inl ⟨hnode, by simp [hnode]⟩
  · have htype := hoffered.2.resolve_left hnode
    have hterminal : s.run.runner.node.isTerminal := by
      simp [Config.Node.isTerminal, Config.terminalNodeTypes, htype]
    have hnavigable := Workflow.navigable_of_isStep hv hflow.node
    refine .inr ⟨?_, by simp [hnode]⟩
    rw [← hnavigable.tools, hnavigable.terminal hterminal]
    rfl

theorem Inv.change (hv : Config.Valid nodes edges) (hg : c.graph = Config.buildGraph nodes edges)
    (h : s.Inv c nodes edges) {x : Change} (hs : s.change c x = some s') :
    s'.Inv c nodes edges := by
  cases x with
  | tick seconds =>
    obtain ⟨-, hs⟩ := Option.ite_none_right_eq_some.1 hs
    obtain rfl := Option.some.inj hs
    exact h.beside ⟨rfl, rfl, rfl, rfl, rfl, rfl, fun _ hq _ => hq, rfl, .inl ⟨rfl, rfl⟩⟩
      h.sound h.onFlow fun _ q hq => ⟨q, hq, rfl⟩
  | write db =>
    obtain rfl := Option.some.inj hs
    exact h.beside ⟨rfl, rfl, rfl, rfl, rfl, rfl, fun _ hq _ => hq, rfl, .inl ⟨rfl, rfl⟩⟩
      h.sound h.onFlow fun _ q hq => ⟨q, hq, rfl⟩
  | select agentId =>
    obtain rfl := Option.some.inj hs
    refine h.beside ⟨rfl, rfl, rfl, rfl, rfl, rfl, Resolver.extends_select, rfl, .inl ⟨rfl, rfl⟩⟩
      h.sound.select h.onFlow fun i q hq => ⟨q, ?_, rfl⟩
    exact List.getElem?_append_left (List.getElem?_eq_some_iff.1 hq).1 ▸ hq
  | store query =>
    obtain ⟨resolver, hstore, rfl⟩ := Option.map_eq_some_iff.1 hs
    refine h.beside ⟨rfl, rfl, rfl, rfl, rfl, rfl, Resolver.extends_store hstore, rfl,
      .inl ⟨rfl, rfl⟩⟩ (h.sound.store hstore) h.onFlow fun i q hq => ?_
    exact Resolver.query_store hstore hq
  | runner call =>
    rw [Session.change] at hs
    split_ifs at hs with hcall
    obtain ⟨run, hrun, rfl⟩ := Option.map_eq_some_iff.1 hs
    rw [hg] at hrun
    exact h.beside (beside_runner hv h.onFlow (by simpa using hcall) hrun) h.sound
      (h.onFlow.call hv hrun) fun _ q hq => ⟨q, hq, rfl⟩

/-! ### What the model calls -/

omit [Runtime] in
/-- An execution is of a tool among the policies. -/
theorem policy_of_executeToolCall {registry : ExecutorRegistry P X}
    {get : ResolvedToolPolicy → Option P} {policiesByName : Dict String ResolvedToolPolicy}
    {toolName : String} {chain : MiddlewareChain X}
    (h : executeToolCall registry get policiesByName toolName = .ok chain) :
    ∃ policy, (toolName, policy) ∈ policiesByName := by
  rw [executeToolCall] at h
  split at h
  · cases h
  · rename_i policy hpolicy
    exact ⟨policy, Dict.mem_of_get?_eq_some hpolicy⟩

omit [Runtime] in
/-- The tool that is executed is one of those of the turn. -/
theorem ToolsAt.confinedByQuery (ht : s.ToolsAt c) {toolName : String} {policy : ResolvedToolPolicy}
    (hpolicy : (toolName, policy) ∈ s.turn.policiesByName) :
    Execution.ConfinedByQuery c s.resolver
      ⟨toolName, s.run.runner.node, s.resolver.db, s.resolvedAt, s.abandoned⟩ := by
  have hname : toolName = policy.definition.name := ht.name _ hpolicy
  obtain ⟨resolved, ⟨q, hq, hagent, rfl, hcurrent⟩, hmem⟩ := ht.current _ hpolicy
  refine ⟨⟨q, hq, hagent, hcurrent, ?_⟩, fun habandoned => ?_⟩
  · rw [← hagent, hname]
    exact ToolRegistry.enabled_of_mem_enabledTools hmem
  · rw [hname]
    exact ht.permitted habandoned _ hpolicy

omit [Runtime] in
theorem Kept.onRemote (h : s.Kept c nodes edges) (ht : s.ToolsAt c)
    (hlt : s.turn.policiesByName ≠ [] → s.turn.iteration < c.orchestrator.maxToolIterations)
    (event : ToolCallEvent) (provider : ResolvedToolPolicy → Option P) :
    (s.onRemote c event provider).Inv c nodes edges := by
  rw [Session.onRemote]
  dsimp only
  split
  · exact ⟨{ h with le_iteration := h.le_iteration.trans (Nat.le_succ _) }, { ht with }⟩
  · rename_i chain hchain
    obtain ⟨policy, hpolicy⟩ := policy_of_executeToolCall hchain
    have hiteration := hlt (List.ne_nil_of_mem hpolicy)
    have hlength (e : Execution) : (s.executions ++ [e]).length ≤ s.turn.iteration + 1 := by
      rw [List.length_append, List.length_singleton]
      exact Nat.succ_le_succ h.le_iteration
    refine ⟨{ h with
      executions := fun e he => ?_
      le_iteration := hlength _
      le_max := (hlength _).trans hiteration }, { ht with }⟩
    rcases List.mem_append.1 he with he | he
    · exact h.executions e he
    · rw [List.mem_singleton.1 he]
      exact ht.confinedByQuery hpolicy

omit [Runtime] in
theorem Kept.onOther (h : s.Kept c nodes edges) (ht : s.ToolsAt c)
    (hlt : s.turn.policiesByName ≠ [] → s.turn.iteration < c.orchestrator.maxToolIterations)
    (x : Called P) : (s.onOther c x).Inv c nodes edges := by
  rw [Session.onOther]
  split_ifs
  · exact h.fold ht _ _
  · split
    · exact h.finish
    · exact h.fold ht _ _
    · exact h.onRemote ht hlt _ _

/-- A transition is along an edge that leaves the active node. -/
theorem Kept.onLocal (hv : Config.Valid nodes edges) (hg : c.graph = Config.buildGraph nodes edges)
    (h : s.Kept c nodes edges) (ht : s.ToolsAt c) (event : ToolCallEvent) {edge : Config.Edge}
    (hedge : edge ∈ s.handlers.map Prod.snd) (handler : Handler) :
    (s.onLocal c event edge handler).Inv c nodes edges := by
  obtain ⟨hleaves, hoffered⟩ := ht.leave edge hedge
  unfold Session.onLocal
  dsimp only
  set s₁ : Session := { s with turn := { s.turn with localCalls := s.turn.localCalls + 1 } }
  have hkept : s₁.Kept c nodes edges := { h with }
  have htools : s₁.ToolsAt c := { ht with }
  split
  · exact hkept.fold htools _ _
  · exact ⟨{ h with }, trivial⟩
  · split
    · exact ⟨{ h with }, trivial⟩
    · rename_i runner hrunner
      refine ⟨{ h with onFlow := ?_, transitions := fun t htransition => ?_ }, trivial⟩
      · refine h.onFlow.call hv (c := .invoke edge) ?_
        rw [Run.call, if_pos hoffered, ← hg, hrunner]
        rfl
      · rcases List.mem_append.1 htransition with htransition | htransition
        · exact h.transitions t htransition
        · rw [List.mem_singleton.1 htransition]
          exact hleaves

theorem Inv.step (hv : Config.Valid nodes edges) (hg : c.graph = Config.buildGraph nodes edges)
    (h : s.Inv c nodes edges) {l : SessionLabel P} (hs : s.step c l = some s') :
    s'.Inv c nodes edges := by
  have hphase := h.phaseAt
  rw [PhaseAt] at hphase
  cases l with
  | change x => exact h.change hv hg hs
  | start history forceToolName =>
    rw [Session.step] at hs
    split at hs
    · obtain rfl := Option.some.inj hs
      exact ⟨⟨h.sound, h.onFlow, List.forall_mem_nil _, Nat.zero_le _, Nat.zero_le _,
        List.forall_mem_nil _⟩, trivial⟩
    · cases hs
  | resolve =>
    rw [Session.step] at hs
    split at hs
    · obtain rfl := Option.some.inj hs
      exact h.resolve hv _
    · cases hs
  | selected =>
    rw [Session.step] at hs
    split at hs
    · rename_i found after hp
      rw [hp] at hphase
      obtain rfl := Option.some.inj hs
      have hext : s.resolver.Extends (s.resolver.select c.agentId) := Resolver.extends_select
      refine ⟨{ h with
        sound := h.sound.select
        executions := fun e he => (h.executions e he).extends hext }, { hphase with }, ?_⟩
      exact ⟨_, List.getElem?_concat_length, rfl⟩
    · cases hs
  | fetched =>
    rw [Session.step] at hs
    split at hs
    · rename_i query found after hp
      rw [hp] at hphase
      obtain ⟨hfound, q, hq, hagent⟩ := hphase
      obtain ⟨q', hq', hs⟩ := Option.bind_eq_some_iff.1 hs
      obtain ⟨resolver, hstore, rfl⟩ := Option.map_eq_some_iff.1 hs
      obtain rfl := Option.some.inj (hq'.symm.trans hq)
      have hext := Resolver.extends_store hstore
      have hcurrent := Resolver.current_of_store hstore hq
      set s₁ : Session := { s with resolver := resolver }
      have hkept : s₁.Kept c nodes edges := { h with
        sound := h.sound.store hstore
        executions := fun e he => (h.executions e he).extends hext }
      refine hkept.resolved { hfound with } (fun p hp => ?_) after
      obtain ⟨hmem, hpermitted⟩ := mem_narrow hp
      rw [hagent, ← Resolver.now_store hstore] at hcurrent
      exact ⟨hpermitted, _, hcurrent, hmem⟩
    · cases hs
  | token text =>
    rw [Session.step] at hs
    split at hs
    · rename_i hp
      rw [hp] at hphase
      obtain rfl := Option.some.inj hs
      refine ⟨{ h with }, ?_⟩
      rw [PhaseAt, hp]
      exact ⟨{ hphase.1 with }, hphase.2⟩
    · cases hs
  | call x =>
    rw [Session.step] at hs
    split at hs
    · rename_i hp
      rw [hp] at hphase
      obtain ⟨htools, hlt⟩ := hphase
      set s₁ : Session := { s with turn := { s.turn with toolChoice := none } }
      have hkept : s₁.Kept c nodes edges := { h with }
      have htools₁ : s₁.ToolsAt c := { htools with }
      dsimp only at hs
      split at hs
      · rename_i edge hedge
        obtain rfl := Option.some.inj hs
        exact hkept.onLocal hv hg htools₁ _
          (List.mem_map_of_mem (f := Prod.snd) (Dict.mem_of_get?_eq_some hedge)) _
      · obtain rfl := Option.some.inj hs
        exact hkept.onOther htools₁ hlt x
    · cases hs
  | executed result =>
    rw [Session.step] at hs
    split at hs
    · rename_i event refused hp
      rw [hp] at hphase
      obtain rfl := Option.some.inj hs
      exact h.toKept.fold hphase _ _
    · cases hs
  | ended =>
    obtain rfl := Option.some.inj hs
    exact h.toKept.finish

/-- What the model can do in a turn. -/
structure Confined (c : CallSetup P X) (s : Session) : Prop where
  executions : ∀ e ∈ s.executions, e.ConfinedByQuery c s.resolver
  length_executions_le : s.executions.length ≤ c.orchestrator.maxToolIterations
  transitions : ∀ t ∈ s.transitions, t.edge ∈ t.node.outEdges

end Session

/-- In every turn of a call, whatever the model calls: what is executed was enabled for the agent
    when its policies were read, and is permitted by the active node if no transfer has been
    abandoned since the tools were resolved; and it is moved only along an edge that leaves the
    active node. -/
theorem confined {P X : Type*} {c : CallSetup P X} {raw : Json}
    (hg : Config.parseGraph raw = .ok c.graph) (vars : Dict String Json) :
    ∃ start, c.graph.node? c.graph.startNodeId = some start ∧
      ∀ s, (calls c start vars).Reachable s → s.Confined c := by
  obtain ⟨-, -, -, nodes, edges, -, -, -, -, -, hv, hgraph⟩ := Config.parseGraph_eq_ok_iff.1 hg
  obtain ⟨start, hstart, hstep, -⟩ := Workflow.exists_start hv
  refine ⟨start, hgraph ▸ hstart, fun s hs => ?_⟩
  have hinit : Session.Inv c nodes edges { run := { runner := .init start vars } } :=
    ⟨⟨List.forall_mem_nil _, ⟨hstep, by simp [Runner.init], List.forall_mem_nil _⟩,
      List.forall_mem_nil _, Nat.zero_le _, Nat.zero_le _, List.forall_mem_nil _⟩, trivial⟩
  have h : s.Inv c nodes edges :=
    System.Reachable.invariant hinit (fun _ _ _ h hst => h.step hv hgraph hst) hs
  exact ⟨h.executions, h.le_max, h.transitions⟩

/-! ### A desk where appointments are booked -/

namespace Desk

/-- A flow that hands the caller over to a desk, which alone may book appointments. -/
def document : Json :=
  let step (id type : String) (fields : List (String × Json)) : Json := .obj
    [("id", .str id), ("type", .str type), ("data", .obj (("name", .str id) :: fields))]
  let connection (target : String) : Json := .obj
    [("source", .str "start"), ("target", .str target), ("data", .obj
      [("label", .str target), ("condition", .str "when the caller asks for it")])]
  .obj
    [("nodes", .arr
      [step "start" "start" [],
        step "desk" "transfer"
          [("transfer_destination", .str "+100"), ("tools", .arr [.str "book_appointment"])],
        step "bye" "end" []]),
    ("edges", .arr [connection "desk", connection "bye"])]

def graph : Config.WorkflowGraph := ((@Config.parseGraph .ascii document).toOption).getD ⟨[], ""⟩

def start : Config.Node := (graph.node? "start").getD { id := "", type := "", name := "" }

def setup : CallSetup Unit Unit where
  orchestrator := ToolCallOrchestrator.calendarOrchestrator
  policies :=
    { registry :=
        { tools := [("book_appointment", { name := "book_appointment" })]
          name_eq := by simp } }
  graph := graph
  agentId := "agent_1"

/-- The tables in which the agent may book appointments. -/
def tables : ToolTables where
  agentToolPolicies := [⟨"agent_1", "book_appointment", "calendar", true, none⟩]
  toolProviderConfigs := [⟨"calendar", false⟩]

omit [Runtime] in
theorem parseGraph_document : @Config.parseGraph .ascii document = .ok graph := rfl

omit [Runtime] in
theorem confined_desk :
    @Config.parseGraph .ascii document = .ok setup.graph ∧
    ∃ start, setup.graph.node? setup.graph.startNodeId = some start ∧
      ∀ s, (@calls .ascii _ _ setup start []).Reachable s → s.Confined setup :=
  ⟨parseGraph_document, @confined .ascii _ _ setup _ parseGraph_document []⟩

/-- The model calls a tool. -/
def call (toolName : String) : SessionLabel Unit :=
  .call
    { event := { toolCallId := "call_1", toolName := toolName }
      today := (ToolCallOrchestrator.book []).today
      provider := fun _ => some () }

/-- The tools are resolved, and the policies are read for it. -/
def resolving : List (SessionLabel Unit) := [.resolve, .selected, .fetched]

/-- A turn takes the call to the desk; in the next one, `change` happens just before the model
    books an appointment. -/
def turns (change : Change) : List (SessionLabel Unit) :=
  [.change (.write tables), .start [] none] ++ resolving ++ [call "goto_desk", .resolve, .ended] ++
    [.start [] none, .resolve, .change change, call "book_appointment"]

/-- Of each execution: the tools of the node, and those of the agent. -/
def executed (s : Session) : List (List String × List String) :=
  s.executions.map fun e => (e.node.tools, (e.db.rows "agent_1").map AgentToolPolicy.toolName)

omit [Runtime] in
theorem exists_of_executed (ls : List (SessionLabel Unit)) (node tools : List String)
    (h : ((@calls .ascii _ _ setup start []).exec (@calls .ascii _ _ setup start []).init ls).map
      executed = some [(node, tools)]) :
    ∃ s, (@calls .ascii _ _ setup start []).Reachable s ∧ ∃ e ∈ s.executions,
      e.node.tools = node ∧ (e.db.rows "agent_1").map AgentToolPolicy.toolName = tools := by
  obtain ⟨s, hs, hexecuted⟩ := Option.map_eq_some_iff.1 h
  have hmem : (node, tools) ∈ executed s := hexecuted ▸ List.mem_singleton_self _
  obtain ⟨e, he, heq⟩ := List.mem_map.1 hmem
  obtain ⟨hnode, htools⟩ := Prod.mk.inj heq
  exact ⟨s, .exec .init hs, e, he, hnode, htools⟩

end Desk

open Desk in
omit [Runtime] in
/-- An appointment is booked when this has just been disabled, or when the desk has just been
    left. -/
theorem not_confined :
    (∃ s, (@calls .ascii _ _ setup start []).Reachable s ∧
      ∃ e ∈ s.executions, ¬ e.db.Enabled setup.agentId e.toolName) ∧
    ∃ s, (@calls .ascii _ _ setup start []).Reachable s ∧
      ∃ e ∈ s.executions, ¬ Permitted (allowedToolNames setup.graph e.node) e.toolName := by
  constructor
  · obtain ⟨s, hs, e, he, -, htools⟩ :=
      exists_of_executed (turns (.write {})) ["book_appointment"] [] (by decide +kernel)
    refine ⟨s, hs, e, he, fun ⟨row, hrow, _⟩ => ?_⟩
    have hnil : e.db.rows setup.agentId = [] := List.map_eq_nil_iff.1 htools
    rw [hnil] at hrow
    cases hrow
  · obtain ⟨s, hs, e, he, hnode, -⟩ :=
      exists_of_executed (turns (.runner .abandonTransfer)) [] ["book_appointment"]
        (by decide +kernel)
    have hstages : isSingleStage setup.graph = false := by decide +kernel
    refine ⟨s, hs, e, he, fun hpermitted => ?_⟩
    rw [allowedToolNames, hstages] at hpermitted
    rcases hpermitted _ rfl with hname | ⟨source, hsource, -⟩
    · rw [hnode] at hname
      cases hname
    · rw [hnode] at hsource
      cases hsource

end Yuviz.Conversation.Tools.Confinement
