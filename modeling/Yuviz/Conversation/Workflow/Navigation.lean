import Yuviz.Conversation.Workflow.Runner

/-!
# Navigation

On an accepted graph, wherever a run takes the runner, the model has a tool for
each way on, and none where the call ends (`Navigable`). No edge leads to the
start, so the model cannot go back there. But a transfer that is entered from
the start and then rejected takes the runner back to it (`not_neverReenters`),
and nothing else does (`navigable_of_reachable`).
-/

namespace Yuviz.Conversation.Workflow

open Config Python

variable [Runtime] {nodes : List Config.Node} {edges : List Config.Edge} {n : Config.Node}
  {edge : Config.Edge} {r r' : Runner} {s s' : Run} {c : Call}

/-- What a caller, and the model, can rely on in a state of a run. -/
structure Navigable (g : Config.WorkflowGraph) (r : Runner) : Prop where
  not_global : r.node.type ≠ "global"
  /-- One tool for each edge out of the active node, under distinct names. -/
  tools : r.localTools.map (·.2.2) = r.node.outEdges
  names : (r.localTools.map Prod.fst).Nodup
  keyed : ∀ tool ∈ r.localTools, tool.2.1.name = tool.1
  offers : ¬ r.node.isTerminal → r.localTools ≠ []
  terminal : r.node.isTerminal → r.localTools = []
  /-- A tool moves to the target of its edge. -/
  moves : ∀ tool ∈ r.localTools, ∃ r', r.transition g tool.2.2 = some r' ∧
    r'.node.id = tool.2.2.target

/-- The start, once it is left, is not entered again. -/
def NeverReenters (g : Config.WorkflowGraph) (s : Run) : Prop :=
  ∀ c s', s.call g c = some s' → s.runner.node.id ≠ g.startNodeId → s'.runner.node.id ≠ g.startNodeId

/-- The start is entered again only when a transfer from there is abandoned. -/
def ReentersByAbandoning (g : Config.WorkflowGraph) (s : Run) : Prop :=
  ∀ c s', s.call g c = some s' → s.runner.node.id ≠ g.startNodeId →
    s'.runner.node.id = g.startNodeId →
    c = .abandonTransfer ∧ s.runner.node.type = "transfer" ∧
      s.runner.preTransferNode.map Config.Node.id = some g.startNodeId

/-- A node that is a step of the flow. -/
def IsStep (nodes : List Config.Node) (edges : List Config.Edge) (n : Config.Node) : Prop :=
  ∃ m ∈ nodes, n = m.withOutEdges edges ∧ ¬ m.isUnwired

theorem toolName_eq_of_transitionToolName {e e' : Config.Edge}
    (h : transitionToolName e = transitionToolName e') : e.toolName = e'.toolName := by
  have := congrArg String.toList h
  rw [transitionToolName, transitionToolName, String.toList_append, String.toList_append] at this
  exact String.toList_inj.1 (List.append_cancel_left this)

omit [Runtime] in
theorem IsStep.outEdges_eq (h : IsStep nodes edges n) : n.outEdges = outEdges edges n.id := by
  obtain ⟨m, -, rfl, -⟩ := h
  rfl

theorem IsStep.wired (hv : Valid nodes edges) (h : IsStep nodes edges n) :
    ¬ n.isUnwired ∧ Wired edges n := by
  obtain ⟨m, hm, rfl, hunwired⟩ := h
  have hwired := hv.wired m hm
  exact ⟨hunwired, hwired.unwired, hwired.start, hwired.destination, hwired.terminal,
    hwired.exits, hwired.tools⟩

/-- Every edge leads to a step, which is not the start. -/
theorem exists_target (hv : Valid nodes edges) (he : edge ∈ edges) :
    ∃ m, (buildGraph nodes edges).node? edge.target = some m ∧ IsStep nodes edges m ∧
      m.id = edge.target ∧ m.type ≠ "start" := by
  obtain ⟨m, hm, hid⟩ := List.mem_map.1 (hv.edge edge he).target_mem
  have hin : inCount edges m.id ≠ 0 := by
    rw [Ne, inCount_eq_zero_iff]
    exact fun h => h edge he hid.symm
  refine ⟨m.withOutEdges edges, hid ▸ hv.node?_of_mem hm, ⟨m, hm, rfl, fun hunwired => ?_⟩, hid,
    fun hstart => ?_⟩
  · exact hin ((hv.wired m hm).unwired hunwired).1
  · exact hin ((hv.wired m hm).start hstart)

/-- The start is a step. -/
theorem exists_start (hv : Valid nodes edges) :
    ∃ start, (buildGraph nodes edges).node? (buildGraph nodes edges).startNodeId = some start ∧
      IsStep nodes edges start ∧ start.id = (buildGraph nodes edges).startNodeId := by
  obtain ⟨start, hstart, htype, -, hid⟩ := hv.startsOf_eq
  refine ⟨start.withOutEdges edges, hid ▸ hv.node?_of_mem hstart, ⟨start, hstart, rfl, ?_⟩, hid.symm⟩
  simp [Config.Node.isUnwired, unwiredNodeTypes, htype]

theorem IsStep.nodup (hv : Valid nodes edges) (h : IsStep nodes edges n) :
    (n.outEdges.map transitionToolName).Nodup := by
  obtain ⟨hunwired, hwired⟩ := h.wired hv
  have htools := hwired.tools hunwired
  rw [← h.outEdges_eq, List.Nodup, List.pairwise_map] at htools
  rw [List.Nodup, List.pairwise_map]
  exact htools.imp fun hne h => hne (toolName_eq_of_transitionToolName h)

theorem localTools_eq (hv : Valid nodes edges) (h : IsStep nodes edges r.node) :
    r.localTools = r.node.outEdges.map fun edge => (transitionToolName edge,
      { name := transitionToolName edge, description := edge.condition,
        parametersSchema := noParameters, category := "workflow_transition" }, edge) := by
  refine Dict.ofPairs_of_nodup ?_
  rw [List.map_map]
  exact h.nodup hv

theorem navigable_of_isStep (hv : Valid nodes edges) (h : IsStep nodes edges r.node) :
    Navigable (buildGraph nodes edges) r := by
  obtain ⟨hunwired, hwired⟩ := h.wired hv
  have htools := localTools_eq hv h
  have hout := h.outEdges_eq
  constructor
  · intro hglobal
    exact hunwired (by simp [Config.Node.isUnwired, unwiredNodeTypes, hglobal])
  · rw [htools, List.map_map]
    exact List.map_id _
  · rw [htools, List.map_map]
    exact h.nodup hv
  · intro tool htool
    rw [htools, List.mem_map] at htool
    obtain ⟨e, -, rfl⟩ := htool
    rfl
  · intro hterminal
    rw [htools, Ne, List.map_eq_nil_iff, hout]
    exact hwired.exits hunwired hterminal
  · intro hterminal
    rw [htools, hout, hwired.terminal hterminal]
    rfl
  · intro tool htool
    rw [htools, List.mem_map] at htool
    obtain ⟨e, he, rfl⟩ := htool
    rw [hout, mem_outEdges_iff] at he
    obtain ⟨m, hm, -, hid, -⟩ := exists_target hv he.1
    refine ⟨r.enter e m, by rw [Runner.transition, hm]; rfl, ?_⟩
    rw [Runner.enter_node, hid]

/-- Where a run has been: at steps, and it was offered edges of the graph. -/
structure OnFlow (nodes : List Config.Node) (edges : List Config.Edge) (s : Run) : Prop where
  node : IsStep nodes edges s.runner.node
  source : ∀ source ∈ s.runner.preTransferNode, IsStep nodes edges source
  offered : ∀ e ∈ s.offered, e ∈ edges

/-- What a call can do to the node: a tool takes it along an edge, and abandoning a transfer
    back to the node before. -/
theorem call_cases (hs : s.call (buildGraph nodes edges) c = some s') :
    (∃ edge ∈ s.offered, ∃ m, c = .invoke edge ∧
      (buildGraph nodes edges).node? edge.target = some m ∧
      s' = { s with runner := s.runner.enter edge m }) ∨
    (∃ source, c = .abandonTransfer ∧ s.runner.preTransferNode = some source ∧
      s.runner.node.type = "transfer" ∧ s'.offered = s.offered ∧ s'.runner.node = source ∧
      s'.runner.preTransferNode = none) ∨
    (s'.runner.node = s.runner.node ∧ s'.runner.preTransferNode = s.runner.preTransferNode ∧
      (s'.offered = s.offered ∨
        s'.offered = s.offered ++ s.runner.localTools.map (·.2.2))) := by
  cases c with
  | localTools =>
    obtain rfl := Option.some.inj hs
    exact .inr (.inr ⟨rfl, rfl, .inr rfl⟩)
  | invoke edge =>
    rw [Run.call] at hs
    split_ifs at hs with he
    obtain ⟨r', hr', rfl⟩ := Option.map_eq_some_iff.1 hs
    obtain ⟨m, hm, rfl⟩ := Option.map_eq_some_iff.1 hr'
    exact .inl ⟨edge, he, m, rfl, hm, rfl⟩
  | abandonTransfer =>
    obtain rfl := Option.some.inj hs
    rcases s.runner.abandonTransfer_cases with ⟨hsource, htype, hpre⟩ | ⟨hnode, hpre⟩
    · exact .inr (.inl ⟨_, rfl, hsource, htype, rfl, rfl, hpre⟩)
    · exact .inr (.inr ⟨hnode, hpre, .inl rfl⟩)
  | _ =>
    obtain rfl := Option.some.inj hs
    exact .inr (.inr ⟨rfl, rfl, .inl rfl⟩)

theorem OnFlow.call (hv : Valid nodes edges) (h : OnFlow nodes edges s)
    (hs : s.call (buildGraph nodes edges) c = some s') : OnFlow nodes edges s' := by
  rcases call_cases hs with ⟨edge, he, m, -, hm, rfl⟩ |
    ⟨source, -, hsource, -, hoffered, hnode, hpre⟩ | ⟨hnode, hpre, hoffered⟩
  · obtain ⟨m', hm', hstep, -⟩ := exists_target hv (h.offered edge he)
    obtain rfl := Option.some.inj (hm.symm.trans hm')
    refine ⟨by rwa [Runner.enter_node], fun source hsource => ?_, h.offered⟩
    rw [Runner.enter_preTransferNode] at hsource
    split_ifs at hsource
    · exact Option.some.inj hsource ▸ h.node
    · cases hsource
  · refine ⟨hnode ▸ h.source source hsource, fun source hsource => ?_, hoffered ▸ h.offered⟩
    rw [hpre] at hsource
    cases hsource
  · refine ⟨hnode ▸ h.node, hpre ▸ h.source, fun e he => ?_⟩
    rcases hoffered with hoffered | hoffered
    · exact h.offered e (hoffered ▸ he)
    · rw [hoffered, List.mem_append] at he
      rcases he with he | he
      · exact h.offered e he
      · rw [(navigable_of_isStep hv h.node).tools, h.node.outEdges_eq, mem_outEdges_iff] at he
        exact he.1

theorem OnFlow.reentersByAbandoning (hv : Valid nodes edges) (h : OnFlow nodes edges s) :
    ReentersByAbandoning (buildGraph nodes edges) s := by
  obtain ⟨start, hstart, htype, -, hid⟩ := hv.startsOf_eq
  intro c s' hs hne heq
  rcases call_cases hs with ⟨edge, he, m, -, hm, rfl⟩ |
    ⟨source, rfl, hsource, htransfer, -, hnode, -⟩ | ⟨hnode, -, -⟩
  · -- The node with the id of the start is the start, to which no edge leads.
    obtain ⟨m', hm', -, hmid, hmtype⟩ := exists_target hv (h.offered edge he)
    obtain rfl := Option.some.inj (hm.symm.trans hm')
    rw [Runner.enter_node, hmid, hid] at heq
    rw [heq, hv.node?_of_mem hstart] at hm
    rw [← Option.some.inj hm] at hmtype
    exact absurd htype hmtype
  · exact ⟨rfl, htransfer, by rw [hsource, Option.map_some, ← hnode, heq]⟩
  · exact absurd (hnode ▸ heq) hne

/-- What a run of an accepted graph can rely on in each of its states. -/
theorem navigable_of_reachable {raw : Json} {g : Config.WorkflowGraph} (hg : parseGraph raw = .ok g)
    (vars : Dict String Json) : ∃ start, g.node? g.startNodeId = some start ∧
      ∀ s, (runs g start vars).Reachable s → ReentersByAbandoning g s ∧ Navigable g s.runner := by
  obtain ⟨-, -, -, nodes, edges, -, -, -, -, -, hv, rfl⟩ := parseGraph_eq_ok_iff.1 hg
  obtain ⟨start, hstart, hstep, -⟩ := exists_start hv
  refine ⟨start, hstart, fun s hs => ?_⟩
  have h : OnFlow nodes edges s :=
    System.Reachable.invariant ⟨hstep, nofun, nofun⟩ (fun s c s' h hs => h.call hv hs) hs
  exact ⟨h.reentersByAbandoning hv, navigable_of_isStep hv h.node⟩

/-- A flow that hands the caller over from its start. -/
private def transferDocument : Json :=
  let step (id type : String) (fields : List (String × Json)) : Json := .obj
    [("id", .str id), ("type", .str type), ("data", .obj (("name", .str id) :: fields))]
  let connection (target : String) : Json := .obj
    [("source", .str "start"), ("target", .str target), ("data", .obj
      [("label", .str target), ("condition", .str "when the caller asks for it")])]
  .obj
    [("nodes", .arr
      [step "start" "start" [], step "desk" "transfer" [("transfer_destination", .str "+100")],
        step "bye" "end" []]),
    ("edges", .arr [connection "desk", connection "bye"])]

private def transferGraph : Config.WorkflowGraph :=
  ((@parseGraph .ascii transferDocument).toOption).getD ⟨[], ""⟩

private def transferStart : Config.Node :=
  ((transferGraph.node? "start").getD { id := "", type := "", name := "" })

omit [Runtime] in
private theorem parseGraph_transferDocument :
    @parseGraph .ascii transferDocument = .ok transferGraph := rfl

omit [Runtime] in
theorem navigable_of_reachable_transfer :
    @parseGraph .ascii transferDocument = .ok transferGraph ∧
    ∃ start, transferGraph.node? transferGraph.startNodeId = some start ∧
      ∀ s, (@runs .ascii transferGraph start []).Reachable s →
        @ReentersByAbandoning .ascii transferGraph s ∧
          @Navigable .ascii transferGraph s.runner :=
  ⟨parseGraph_transferDocument,
    @navigable_of_reachable .ascii _ _ parseGraph_transferDocument []⟩

/-- The runner of the flow above takes the tool to the transfer node. -/
private def atTransfer : Option Run :=
  (@runs .ascii transferGraph transferStart []).exec { runner := .init transferStart [] }
    [.localTools, .invoke ⟨"", "start", "desk", "desk", "when the caller asks for it", none⟩]

omit [Runtime] in
private theorem atTransfer_isSome : atTransfer.isSome := by decide

omit [Runtime] in
/-- The transfer is rejected, and the runner is at the start again. -/
theorem not_neverReenters : ¬ ∀ (raw : Json) (g : Config.WorkflowGraph),
    @parseGraph .ascii raw = .ok g → ∀ start vars, g.node? g.startNodeId = some start →
      ∀ s, (@runs .ascii g start vars).Reachable s →
        @NeverReenters .ascii g s ∧ @Navigable .ascii g s.runner := by
  intro h
  have hs : (@runs .ascii transferGraph transferStart []).Reachable
      (atTransfer.get atTransfer_isSome) :=
    System.Reachable.exec .init (Option.some_get atTransfer_isSome).symm
  have hnever := (h _ _ parseGraph_transferDocument transferStart [] rfl _ hs).1
  exact hnever .abandonTransfer _ rfl (by decide) (by decide)

end Yuviz.Conversation.Workflow
