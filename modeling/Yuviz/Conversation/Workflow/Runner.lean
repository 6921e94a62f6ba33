import Yuviz.Config.Workflow.Valid
import Yuviz.System

/-!
# The runner of a workflow

The runner knows which node of a graph is active. The model moves it by a tool,
one for each edge out of the active node; a transfer that is rejected takes it
back to the node before (`abandonTransfer`).

A tool is a function that holds its edge, and may be called whenever it has been
handed out. A run is any sequence of calls: of `localTools`, of a tool handed
out before, of the other methods, and of what the pipeline writes.
-/

namespace Yuviz.Conversation.Workflow

open Config Python

variable [Runtime]

/-- An edge label cannot shadow a tool of the registry. -/
def transitionToolName (edge : Config.Edge) : String := "goto_" ++ edge.toolName

structure ToolDefinition where
  name : String
  description : String
  parametersSchema : Json
  category : String

def noParameters : Json := .obj [("type", .str "object"), ("properties", .obj [])]

structure Runner where
  node : Config.Node
  vars : Dict String Json
  visited : List String
  pendingSpeech : Option String := none
  pendingEnd : Bool := false
  pendingTransfer : Option Config.Node := none
  endedOffGraph : Bool := false
  lastTransition : String := ""
  /-- The node left for a transfer node. -/
  preTransferNode : Option Config.Node := none

namespace Runner

/-- The runner of a graph with the start node `start`. -/
def init (start : Config.Node) (vars : Dict String Json) : Runner where
  node := start
  vars := vars
  visited := [start.name]

/-- Merges the results of an extraction. -/
def updateVariables (r : Runner) (values : Dict String Json) : Runner :=
  { r with vars := values.foldl (fun vars e => match e.2 with
      | .null => vars
      | value => vars.set e.1 value) r.vars }

/-- The texts the prompt of a node is composed of. -/
def systemPrompt (g : Config.WorkflowGraph) (suffix : String) (r : Runner) : String :=
  let parts := [render g.globalPrompt r.vars, render r.node.prompt r.vars, suffix]
  "\n\n".intercalate ((parts.map stripStr).filter (· ≠ ""))

/-- One tool for each edge out of the active node, with the edge its handler holds. -/
def localTools (r : Runner) : Dict String (ToolDefinition × Config.Edge) :=
  Dict.ofPairs (r.node.outEdges.map fun edge =>
    (transitionToolName edge,
      { name := transitionToolName edge
        description := edge.condition
        parametersSchema := noParameters
        category := "workflow_transition" }, edge))

/-- A rejected transfer does not strand the caller. -/
def abandonTransfer (r : Runner) : Runner :=
  match r.preTransferNode with
  | none => { r with pendingTransfer := none }
  | some source =>
    if r.node.type = "transfer" then
      { r with
        node := source, preTransferNode := none, pendingTransfer := none
        visited := if r.visited ≠ [] ∧ r.visited.getLast? ≠ some source.name then r.visited.dropLast
          else r.visited }
    else { r with pendingTransfer := none }

omit [Runtime] in
/-- Abandoning a transfer goes back to the node before it, if the runner is at one. -/
theorem abandonTransfer_cases (r : Runner) :
    (r.preTransferNode = some r.abandonTransfer.node ∧ r.node.type = "transfer" ∧
      r.abandonTransfer.preTransferNode = none) ∨
    (r.abandonTransfer.node = r.node ∧ r.abandonTransfer.preTransferNode = r.preTransferNode) := by
  rcases hsource : r.preTransferNode with _ | source
  · exact .inr (by simp [abandonTransfer, hsource])
  · by_cases htype : r.node.type = "transfer"
    · exact .inl (by simp [abandonTransfer, hsource, htype])
    · exact .inr (by simp [abandonTransfer, hsource, htype])

omit [Runtime] in
@[simp] theorem abandonTransfer_vars (r : Runner) : r.abandonTransfer.vars = r.vars := by
  rw [abandonTransfer]
  split
  · rfl
  · split_ifs <;> rfl

/-- The runner enters `node` by `edge`. -/
def enter (r : Runner) (edge : Config.Edge) (node : Config.Node) : Runner :=
  let r' :=
    { r with
      pendingSpeech := nonempty (render (edge.transitionSpeech.getD "") r.vars)
      node := node
      lastTransition := edge.toolName
      visited := r.visited ++ [node.name] }
  if node.type = "end" then { r' with pendingEnd := true, preTransferNode := none }
  else if node.type = "transfer" then
    { r' with pendingTransfer := some node, preTransferNode := some r.node }
  else { r' with preTransferNode := none }

@[simp] theorem enter_node (r : Runner) (edge : Config.Edge) (node : Config.Node) :
    (r.enter edge node).node = node := by
  rw [enter]
  split_ifs <;> rfl

@[simp] theorem enter_vars (r : Runner) (edge : Config.Edge) (node : Config.Node) :
    (r.enter edge node).vars = r.vars := by
  rw [enter]
  split_ifs <;> rfl

/-- A transfer node is entered with the node to go back to. -/
theorem enter_preTransferNode (r : Runner) (edge : Config.Edge) (node : Config.Node) :
    (r.enter edge node).preTransferNode = if node.type = "transfer" then some r.node else none := by
  rw [enter]
  split_ifs with hend htransfer <;> simp_all

/-- What `_transition` does to the runner; it fails on an edge that leads nowhere. -/
def transition (g : Config.WorkflowGraph) (r : Runner) (edge : Config.Edge) : Option Runner :=
  (g.node? edge.target).map (r.enter edge)

end Runner

/-! ### Runs -/

/-- A runner, and the edges of the tools handed out. -/
structure Run where
  runner : Runner
  offered : List Config.Edge := []

inductive Call
  | localTools
  | invoke (edge : Config.Edge)
  | abandonTransfer
  | updateVariables (values : Dict String Json)
  /-- What the pipeline writes. -/
  | clearSpeech
  | takeTransfer
  | endOffGraph

def Run.call (g : Config.WorkflowGraph) (s : Run) : Call → Option Run
  | .localTools => some { s with offered := s.offered ++ s.runner.localTools.map (·.2.2) }
  | .invoke edge =>
    if edge ∈ s.offered then
      (s.runner.transition g edge).map fun runner => { s with runner := runner }
    else none
  | .abandonTransfer => some { s with runner := s.runner.abandonTransfer }
  | .updateVariables values => some { s with runner := s.runner.updateVariables values }
  | .clearSpeech => some { s with runner := { s.runner with pendingSpeech := none } }
  | .takeTransfer => some { s with runner := { s.runner with pendingTransfer := none } }
  | .endOffGraph => some { s with runner := { s.runner with endedOffGraph := true } }

/-- The runs of a runner that starts at `start`. -/
def runs (g : Config.WorkflowGraph) (start : Config.Node) (vars : Dict String Json) :
    System Run Call where
  init := { runner := .init start vars }
  step := Run.call g

end Yuviz.Conversation.Workflow
