import Mathlib.Data.List.Basic

/-!
# The workflow of a call

The graph of a conversation, and the runner that knows which of its nodes is
active. The runner only flags what entering a node asks for: the pipeline acts
on it. A transfer node has no exits, so a transfer that does not go ahead is
*abandoned*: the runner moves back to the node it came from.
-/

namespace Yuviz.Conversation

inductive NodeType
  | start
  | agent
  | transfer
  | endNode
  | global
  deriving DecidableEq, Repr

/-- A connection between two steps, which the model takes as a tool. -/
structure Edge where
  source : String
  target : String
  toolName : String
  deriving DecidableEq, Repr

structure Node where
  id : String
  type : NodeType
  name : String
  transferDestination : Option String := none
  outEdges : List Edge := []
  deriving DecidableEq, Repr

def Node.isTerminal (n : Node) : Bool := n.type = .endNode ∨ n.type = .transfer

/-- A graph as `parse_graph` accepts it. -/
structure WorkflowGraph where
  nodes : List Node
  start : Node
  start_mem : start ∈ nodes
  start_type : start.type = .start
  /-- Nothing leads out of a terminal node. -/
  outEdges_of_isTerminal : ∀ n ∈ nodes, n.isTerminal = true → n.outEdges = []

/-- `graph.nodes[id]`. -/
def WorkflowGraph.node? (g : WorkflowGraph) (id : String) : Option Node :=
  g.nodes.find? (·.id = id)

/-- The runner of a graph. -/
structure WorkflowRunner where
  node : Node
  visited : List String
  lastTransition : String := ""
  pendingEnd : Bool := false
  /-- The transfer node just entered. -/
  pendingTransfer : Option Node := none
  endedOffGraph : Bool := false
  /-- The node left for a transfer node. -/
  preTransferNode : Option Node := none
  deriving DecidableEq, Repr

namespace WorkflowRunner

variable {g : WorkflowGraph} {w w' : WorkflowRunner} {e : Edge} {m : Node}

def init (g : WorkflowGraph) : WorkflowRunner where
  node := g.start
  visited := [g.start.name]

/-- The runner enters the node `m` by the edge `e`. -/
def enter (w : WorkflowRunner) (e : Edge) (m : Node) : WorkflowRunner :=
  let w' := { w with node := m, lastTransition := e.toolName, visited := w.visited ++ [m.name] }
  if m.type = .endNode then { w' with pendingEnd := true, preTransferNode := none }
  else if m.type = .transfer then
    { w' with pendingTransfer := some m, preTransferNode := some w.node }
  else { w' with preTransferNode := none }

/-- `_transition`, on one of the edges offered at the active node. -/
def transition (g : WorkflowGraph) (w : WorkflowRunner) (e : Edge) : Option WorkflowRunner :=
  if e ∈ w.node.outEdges then (g.node? e.target).map (w.enter e) else none

def abandonTransfer (w : WorkflowRunner) : WorkflowRunner :=
  match w.preTransferNode with
  | none => { w with pendingTransfer := none }
  | some source =>
    if w.node.type = .transfer then
      { w with
        node := source, preTransferNode := none, pendingTransfer := none
        visited := if w.visited.getLast? ≠ some source.name then w.visited.dropLast
          else w.visited }
    else { w with pendingTransfer := none }

@[simp] theorem abandonTransfer_pendingTransfer : w.abandonTransfer.pendingTransfer = none := by
  rw [abandonTransfer]
  rcases w.preTransferNode with _ | source
  · rfl
  · dsimp only
    split_ifs <;> rfl

/-- The runner of a call: it is at a node of the graph, and keeps the node it
    came from while it is at a transfer node. -/
structure Proper (g : WorkflowGraph) (w : WorkflowRunner) : Prop where
  node_mem : w.node ∈ g.nodes
  /-- Nothing leads from one transfer node to another. -/
  source : ∀ source ∈ w.preTransferNode, source ∈ g.nodes ∧ source.type ≠ .transfer
  isSome : w.node.type = .transfer → w.preTransferNode ≠ none

theorem proper_init (g : WorkflowGraph) : (init g).Proper g := by
  refine ⟨g.start_mem, nofun, fun h => ?_⟩
  rw [init, g.start_type] at h
  cases h

theorem Proper.transition (hw : w.Proper g) (h : w.transition g e = some w') : w'.Proper g := by
  rw [WorkflowRunner.transition] at h
  split_ifs at h with he
  obtain ⟨m, hm, rfl⟩ := Option.map_eq_some_iff.1 h
  have hmem : m ∈ g.nodes := List.mem_of_find?_eq_some hm
  have hsource : w.node.type ≠ .transfer := by
    intro ht
    rw [g.outEdges_of_isTerminal _ hw.node_mem (by simp [Node.isTerminal, ht])] at he
    cases he
  rw [enter]
  split_ifs with hend htransfer
  · exact ⟨hmem, nofun, fun ht => by simp [hend] at ht⟩
  · refine ⟨hmem, fun source hs => ?_, fun _ => nofun⟩
    rw [← Option.some.inj hs]
    exact ⟨hw.node_mem, hsource⟩
  · exact ⟨hmem, nofun, fun ht => absurd ht htransfer⟩

/-- Entering a transfer node asks for a transfer. -/
theorem transition_pendingTransfer (h : w.transition g e = some w') (ht : w'.node.type = .transfer) :
    w'.pendingTransfer ≠ none := by
  rw [WorkflowRunner.transition] at h
  split_ifs at h
  obtain ⟨m, -, rfl⟩ := Option.map_eq_some_iff.1 h
  have hnode : (w.enter e m).node = m := by
    rw [enter]
    split_ifs <;> rfl
  rw [hnode] at ht
  simp [enter, ht]

/-- Where an abandoned transfer leaves the runner. -/
theorem abandonTransfer_cases (w : WorkflowRunner) :
    (∃ source, w.preTransferNode = some source ∧
      w.abandonTransfer.node = source ∧ w.abandonTransfer.preTransferNode = none) ∨
    ((w.node.type = .transfer → w.preTransferNode = none) ∧
      w.abandonTransfer.node = w.node ∧ w.abandonTransfer.preTransferNode = w.preTransferNode) := by
  rcases hs : w.preTransferNode with _ | source
  · exact .inr ⟨fun _ => rfl, by simp [abandonTransfer, hs]⟩
  · by_cases ht : w.node.type = .transfer
    · exact .inl ⟨source, rfl, by simp [abandonTransfer, hs, ht]⟩
    · exact .inr ⟨fun h => absurd h ht, by simp [abandonTransfer, hs, ht]⟩

/-- No transfer node is left behind. -/
theorem Proper.abandonTransfer (hw : w.Proper g) :
    w.abandonTransfer.Proper g ∧ w.abandonTransfer.node.type ≠ .transfer := by
  rcases w.abandonTransfer_cases with ⟨source, hs, hnode, hpre⟩ | ⟨ht, hnode, hpre⟩
  · obtain ⟨hmem, htype⟩ := hw.source source hs
    refine ⟨⟨?_, ?_, fun h => ?_⟩, ?_⟩
    · rwa [hnode]
    · rw [hpre]
      exact nofun
    · exact absurd (hnode ▸ h) htype
    · rwa [hnode]
  · have htype : w.node.type ≠ .transfer := fun h => hw.isSome h (ht h)
    refine ⟨⟨?_, ?_, fun h => ?_⟩, ?_⟩
    · rw [hnode]
      exact hw.node_mem
    · rw [hpre]
      exact hw.source
    · exact absurd (hnode ▸ h) htype
    · rwa [hnode]

end WorkflowRunner

end Yuviz.Conversation
