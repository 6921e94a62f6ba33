import Mathlib
import Yuviz.Conversation.Workflow.Navigation

/-!
# What a rejected transfer takes back

A tool takes the runner to a transfer node, other calls may come in between, and
the transfer is rejected: the runner is where it was before, with the path and the
end it had (`Undoes`). Only a tool handed out before can enter the transfer node
that the runner is at already, and then its name is left on the path a second time.
In any other state there is no transfer to take back, and only a stale request for
one is dropped (`DropsRequest`). Both hold in every run of an accepted graph
(`undoes_of_reachable`).

The line that the tool has the agent say is not taken back (`not_restores`): it is
left to the pipeline, which speaks it or drops it.
-/

namespace Yuviz.Conversation.Workflow

open Config Python

variable [Runtime] {nodes : List Config.Node} {edges : List Config.Edge} {source node : Config.Node}
  {edge : Config.Edge} {r r' : Runner} {s s' : Run} {c : Call} {g : Config.WorkflowGraph}

/-- A call that neither moves the runner nor abandons a transfer. -/
def Call.Stays : Call → Prop
  | .invoke _ | .abandonTransfer => False
  | _ => True

/-- An edge that a tool of the active node holds. -/
def Run.HasTool (s : Run) (edge : Config.Edge) : Prop := edge ∈ s.runner.localTools.map (·.2.2)

instance : Decidable (s.HasTool edge) := inferInstanceAs (Decidable (_ ∈ _))

/-- A tool takes the runner to a transfer node, and the transfer is abandoned: at once, or after
    other calls. -/
def Undoes (g : Config.WorkflowGraph) (s : Run) : Prop :=
  ∀ edge r, s.HasTool edge ∨ edge ∈ s.offered → s.runner.transition g edge = some r →
    r.node.type = "transfer" → (s.HasTool edge → s.runner.node.id ≠ r.node.id) ∧
    ∀ cs s' start vars, (∀ c ∈ cs, c.Stays) →
      (runs g start vars).exec { s with runner := r } cs = some s' →
        s'.runner.abandonTransfer = { s'.runner with
          node := s.runner.node
          visited := if s.runner.node.id = r.node.id then r.visited else s.runner.visited
          pendingEnd := s.runner.pendingEnd, pendingTransfer := none, preTransferNode := none }

/-- Where no transfer node has been entered, abandoning drops a request for a transfer. -/
def DropsRequest (s : Run) : Prop :=
  s.runner.node.type ≠ "transfer" ∨ s.runner.preTransferNode = none →
    s.runner.abandonTransfer = { s.runner with pendingTransfer := none }

/-- What a transition and an abandoned transfer would have to leave as it was. -/
def Restores (g : Config.WorkflowGraph) (s : Run) : Prop :=
  ∀ edge r, s.HasTool edge → s.runner.transition g edge = some r → r.node.type = "transfer" →
    r.abandonTransfer.node = s.runner.node ∧ r.abandonTransfer.visited = s.runner.visited ∧
    r.abandonTransfer.pendingTransfer = s.runner.pendingTransfer ∧
    r.abandonTransfer.pendingSpeech = s.runner.pendingSpeech ∧
    r.abandonTransfer.pendingEnd = s.runner.pendingEnd

omit [Runtime] in
theorem dropsRequest (s : Run) : DropsRequest s := by
  intro h
  rcases hsource : s.runner.preTransferNode with _ | source
  · simp [Runner.abandonTransfer, hsource]
  · rw [hsource] at h
    have htype : s.runner.node.type ≠ "transfer" := h.resolve_right (by simp)
    simp [Runner.abandonTransfer, hsource, htype]

theorem IsStep.eq_of_id (hv : Valid nodes edges) (h : IsStep nodes edges source)
    (h' : IsStep nodes edges node) (hid : source.id = node.id) : source = node := by
  obtain ⟨m, hm, rfl, -⟩ := h
  obtain ⟨m', hm', rfl, -⟩ := h'
  rw [List.inj_on_of_nodup_map hv.ids hm hm' hid]

/-- No two steps of a flow have one name. -/
theorem IsStep.eq_of_name (hv : Valid nodes edges) (h : IsStep nodes edges source)
    (h' : IsStep nodes edges node) (hname : source.name = node.name) : source = node := by
  obtain ⟨m, hm, rfl, -⟩ := h
  obtain ⟨m', hm', rfl, -⟩ := h'
  rw [List.inj_on_of_nodup_map hv.names hm hm' (congrArg Runtime.lower hname)]

/-- The runner is at a transfer node that it has entered from `source`. -/
structure Entered (source : Config.Node) (visited : List String) (pendingEnd : Bool)
    (r : Runner) : Prop where
  type : r.node.type = "transfer"
  held : r.preTransferNode = some source
  visited : r.visited = visited ++ [r.node.name]
  pendingEnd : r.pendingEnd = pendingEnd

variable {visited : List String} {pendingEnd : Bool}

theorem entered_enter (edge : Config.Edge) (htype : node.type = "transfer") :
    Entered r.node r.visited r.pendingEnd (r.enter edge node) := by
  have hend : node.type ≠ "end" := by
    rw [htype]
    decide
  rw [Runner.enter, if_neg hend, if_pos htype]
  exact ⟨htype, rfl, rfl, rfl⟩

/-- A call that stays leaves the transfer as it has been entered. -/
theorem Entered.call (h : Entered source visited pendingEnd s.runner) (hc : c.Stays)
    (hs : s.call g c = some s') :
    Entered source visited pendingEnd s'.runner ∧ s'.runner.node = s.runner.node := by
  cases c with
  | invoke edge => exact hc.elim
  | abandonTransfer => exact hc.elim
  | _ =>
    obtain rfl := Option.some.inj hs
    exact ⟨⟨h.type, h.held, h.visited, h.pendingEnd⟩, rfl⟩

omit [Runtime] in
/-- The code compares names: the last step is taken off the path unless it is called as the
    source. -/
theorem Entered.abandonTransfer (h : Entered source visited pendingEnd r) : r.abandonTransfer =
    { r with
      node := source, pendingEnd := pendingEnd, pendingTransfer := none, preTransferNode := none
      visited := if source.name = r.node.name then r.visited else visited } := by
  have hlast : (r.visited ≠ [] ∧ r.visited.getLast? ≠ some source.name) ↔
      source.name ≠ r.node.name := by
    rw [h.visited, List.getLast?_concat]
    constructor
    · rintro ⟨-, hne⟩ hname
      exact hne (congrArg some hname.symm)
    · intro hne
      exact ⟨by simp, fun hname => hne (Option.some.inj hname).symm⟩
  rw [Runner.abandonTransfer, h.held]
  dsimp only
  rw [if_pos h.type, ← h.pendingEnd]
  by_cases hname : source.name = r.node.name
  · rw [if_neg (hlast.not.2 (not_not.2 hname)), if_pos hname]
  · rw [if_pos (hlast.2 hname), if_neg hname, h.visited, List.dropLast_concat]

theorem OnFlow.undoes (hv : Valid nodes edges) (h : OnFlow nodes edges s) :
    Undoes (buildGraph nodes edges) s := by
  intro edge r hedge hr htype
  have hnav := navigable_of_isStep hv h.node
  have hout : s.HasTool edge → edge ∈ s.runner.node.outEdges := fun htool => hnav.tools ▸ htool
  have he : edge ∈ edges := by
    rcases hedge with htool | hoffered
    · have hmem := hout htool
      rw [h.node.outEdges_eq, mem_outEdges_iff] at hmem
      exact hmem.1
    · exact h.offered edge hoffered
  obtain ⟨node, hnode, hstep, -⟩ := exists_target hv he
  rw [Runner.transition, hnode] at hr
  obtain rfl := Option.some.inj hr
  rw [Runner.enter_node] at htype ⊢
  refine ⟨fun htool hid => ?_, fun cs s' start vars hstays hexec => ?_⟩
  · -- A transfer node has no tool that could enter it again.
    have heq : s.runner.node = node := h.node.eq_of_id hv hstep hid
    have hterminal : s.runner.node.isTerminal := by
      simp [Config.Node.isTerminal, terminalNodeTypes, heq, htype]
    rw [Run.HasTool, hnav.terminal hterminal] at htool
    cases htool
  · have hrun : Entered s.runner.node s.runner.visited s.runner.pendingEnd s'.runner ∧
        s'.runner.node = node := by
      refine System.exec_invariant
        (I := fun t => Entered s.runner.node s.runner.visited s.runner.pendingEnd t.runner ∧
          t.runner.node = node)
        (fun t c hc t' ht hcall => ?_) ⟨entered_enter edge htype, Runner.enter_node ..⟩ hexec
      obtain ⟨hentered, hsame⟩ := ht.1.call (hstays c hc) hcall
      exact ⟨hentered, hsame.trans ht.2⟩
    obtain ⟨hentered, hsame⟩ := hrun
    have hid : s.runner.node.id = node.id ↔ s.runner.node.name = node.name :=
      ⟨fun hid => h.node.eq_of_id hv hstep hid ▸ rfl,
        fun hname => h.node.eq_of_name hv hstep hname ▸ rfl⟩
    rw [hentered.abandonTransfer, hsame, hentered.visited, hsame,
      (entered_enter (r := s.runner) edge htype).visited, Runner.enter_node]
    simp only [hid]

/-- On every run of an accepted graph, an abandoned transfer is taken back, and where there is
    none only a stale request is dropped. -/
theorem undoes_of_reachable {raw : Json} (hg : parseGraph raw = .ok g) (vars : Dict String Json) :
    ∃ start, g.node? g.startNodeId = some start ∧
      ∀ s, (runs g start vars).Reachable s → Undoes g s ∧ DropsRequest s := by
  obtain ⟨-, -, -, nodes, edges, -, -, -, -, -, hv, rfl⟩ := parseGraph_eq_ok_iff.1 hg
  obtain ⟨start, hstart, hstep, -⟩ := exists_start hv
  refine ⟨start, hstart, fun s hs => ?_⟩
  have h : OnFlow nodes edges s :=
    System.Reachable.invariant ⟨hstep, nofun, nofun⟩ (fun s c s' h hs => h.call hv hs) hs
  exact ⟨h.undoes hv, dropsRequest s⟩

/-- A flow that hands the caller over from its start, with a word before. -/
private def handoffDocument : Json :=
  let step (id type : String) (fields : List (String × Json)) : Json := .obj
    [("id", .str id), ("type", .str type), ("data", .obj (("name", .str id) :: fields))]
  let connection (target : String) (fields : List (String × Json)) : Json := .obj
    [("source", .str "start"), ("target", .str target), ("data", .obj
      ([("label", .str target), ("condition", .str "asked for")] ++ fields))]
  .obj
    [("nodes", .arr
      [step "start" "start" [], step "desk" "transfer" [("transfer_destination", .str "+100")],
        step "bye" "end" []]),
    ("edges", .arr [connection "desk" [("transition_speech", .str "Hold on.")],
      connection "bye" []])]

private def handoffGraph : Config.WorkflowGraph :=
  ((@parseGraph .ascii handoffDocument).toOption).getD ⟨[], ""⟩

private def handoffStart : Config.Node :=
  ((handoffGraph.node? "start").getD { id := "", type := "", name := "" })

omit [Runtime] in
private theorem parseGraph_handoffDocument :
    @parseGraph .ascii handoffDocument = .ok handoffGraph := rfl

omit [Runtime] in
theorem undoes_of_reachable_handoff :
    @parseGraph .ascii handoffDocument = .ok handoffGraph ∧
    ∃ start, handoffGraph.node? handoffGraph.startNodeId = some start ∧
      ∀ s, (@runs .ascii handoffGraph start []).Reachable s →
        @Undoes .ascii handoffGraph s ∧ DropsRequest s :=
  ⟨parseGraph_handoffDocument, @undoes_of_reachable .ascii _ _ parseGraph_handoffDocument []⟩

private def handoffEdge : Config.Edge := ⟨"", "start", "desk", "desk", "asked for", some "Hold on."⟩

/-- The runner of the flow above, at the transfer node. -/
private def atDesk : Option Runner :=
  @Runner.transition .ascii handoffGraph (.init handoffStart []) handoffEdge

omit [Runtime] in
private theorem atDesk_isSome : atDesk.isSome := by decide

omit [Runtime] in
/-- The line of the tool stays where the tool has put it. -/
theorem not_restores : ¬ ∀ (raw : Json) (g : Config.WorkflowGraph), @parseGraph .ascii raw = .ok g →
    ∀ start vars, g.node? g.startNodeId = some start →
      ∀ s, (@runs .ascii g start vars).Reachable s → @Restores .ascii g s ∧ DropsRequest s := by
  intro h
  have hrestores := (h _ _ parseGraph_handoffDocument handoffStart [] rfl _ .init).1
  have hspeech := (hrestores handoffEdge _ (by decide)
    (Option.some_get atDesk_isSome).symm (by decide)).2.2.2.1
  exact absurd hspeech (by decide)

end Yuviz.Conversation.Workflow
