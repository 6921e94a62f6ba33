import Yuviz.Config.Templates
import Yuviz.Walk

/-!
# The workflow graph

What the config service validates on publish, and what a conversation walks at
runtime. `parseGraph` reads a JSON document: it refuses one with an error that
would break a call, and never returns a partial graph.

Only the size of a delay can make it fail in another way: `int` of an infinity
raises an error that nothing catches (`ParseError.overflow`).
-/

namespace Yuviz.Config

open Python

def nodeTypes : List String := ["start", "agent", "transfer", "end", "global"]

def terminalNodeTypes : List String := ["end", "transfer"]

/-- An always-on instruction is no step of a call, and exempt from the wiring rules. -/
def unwiredNodeTypes : List String := ["global"]

/-- The variables the pipeline supplies for every call. -/
def callContextVariables : Finset String :=
  {"caller_number", "called_number", "direction", "agent_name", "current_date", "current_time",
    "business_name"}

structure WorkflowError where
  kind : String
  id : Option String
  field : Option String
  message : String
  deriving DecidableEq, Repr

structure ExtractionVariable where
  name : String
  type : String := "string"
  prompt : String := ""
  deriving DecidableEq, Repr

structure Extraction where
  enabled : Bool := false
  prompt : String := ""
  vars : List ExtractionVariable := []
  deriving DecidableEq, Repr

structure Edge where
  id : String
  source : String
  target : String
  label : String
  condition : String
  transitionSpeech : Option String := none
  deriving DecidableEq, Repr

structure Node where
  id : String
  type : String
  name : String
  prompt : String := ""
  greeting : Option String := none
  delayedStartMs : ℤ := 0
  tools : List String := []
  knowledgeBaseIds : List String := []
  extraction : Option Extraction := none
  transferDestination : Option String := none
  disposition : Option String := none
  outEdges : List Edge := []
  deriving DecidableEq, Repr

def Node.isTerminal (n : Node) : Bool := n.type ∈ terminalNodeTypes

def Node.isUnwired (n : Node) : Bool := n.type ∈ unwiredNodeTypes

/-- A run of characters that are not of a tool name. -/
def nonToolNameRe (s : List Char) : Option (Unit × ℕ) :=
  let run := s.takeWhile fun c => !(c.isLower || c.isDigit)
  if run = [] then none else some ((), run.length)

/-- The tool the model takes the edge by, up to its prefix. -/
def Edge.toolName [Runtime] (e : Edge) : String :=
  let s := sub nonToolNameRe (fun _ => ['_']) (Runtime.lower e.label).toList
  String.ofList ((s.dropWhile (· = '_')).rdropWhile (· = '_'))

structure WorkflowGraph where
  nodes : Dict String Node
  startNodeId : String
  deriving DecidableEq, Repr

namespace WorkflowGraph

/-- `nodes[id]`. -/
def node? (g : WorkflowGraph) (id : String) : Option Node := g.nodes.get? id

/-- `nodes[id].out_edges`. -/
def outEdges (g : WorkflowGraph) (id : String) : List Edge :=
  ((g.node? id).map Node.outEdges).getD []

/-- The always-on instruction, which is put before that of every step. -/
def globalPrompt (g : WorkflowGraph) : String :=
  ((g.nodes.find? (·.2.isUnwired)).map (·.2.prompt)).getD ""

/-- An edge leads from the one node to the other. -/
def HasEdge (g : WorkflowGraph) (m n : String) : Prop := n ∈ (g.outEdges m).map Edge.target

end WorkflowGraph

/-! ### Reading nodes and edges -/

inductive ParseError
  | invalid (errors : List WorkflowError)
  | overflow
  deriving DecidableEq, Repr

def maxDelayedStartMs : ℤ := 2000

/-- A delay that is no number is none; one that is too long is cut. -/
def delayedStartMs (raw : Json) : Except ParseError ℤ :=
  match (if raw.truthy then raw else .int 0).toInt with
  | .error .overflowError => .error .overflow
  | .error _ => .ok 0
  | .ok value =>
    .ok (if value < 0 then 0 else if value > maxDelayedStartMs then maxDelayedStartMs else value)

def dataObject (raw : Dict String Json) : Dict String Json :=
  match Json.get raw "data" with
  | .obj data => data
  | _ => []

section

variable [Runtime]

/-- `text or None`. -/
def nonempty (text : String) : Option String := if text = "" then none else some text

def optionalStr : Json → Option String
  | .null => none
  | value => nonempty (stripStr value.toStr)

def parseVariable (v : Json) : Option ExtractionVariable :=
  match v with
  | .obj v =>
    let name := stripStr ((Json.get v "name").strOr "")
    if name = "" then none
    else some
      { name
        type := (Json.get v "type").strOr "string"
        prompt := (Json.get v "prompt").strOr "" }
  | _ => none

def parseExtraction : Json → Option Extraction
  | .obj raw =>
    let rawVars := match Json.get raw "variables" with
      | .arr vars => vars
      | _ => []
    some
      { enabled := (Json.get raw "enabled").truthy
        prompt := (Json.get raw "prompt").strOr ""
        vars := rawVars.filterMap parseVariable }
  | _ => none

def strList : Json → List String
  | .arr items => items.map Json.toStr
  | _ => []

def nodeFromRaw (raw : Dict String Json) : Except ParseError Node :=
  let data := dataObject raw
  (delayedStartMs (Json.get data "delayed_start_ms")).map fun delay =>
    { id := (Json.get raw "id").strOr ""
      type := (Json.get raw "type").strOr ""
      name := stripStr ((Json.get data "name").strOr "")
      prompt := (Json.get data "prompt").strOr ""
      greeting := match Json.get data "greeting" with
        | .null => none
        | greeting => some greeting.toStr
      delayedStartMs := delay
      tools := strList (Json.get data "tools")
      knowledgeBaseIds := strList (Json.get data "knowledge_base_ids")
      extraction := parseExtraction (Json.get data "extraction")
      transferDestination := optionalStr (Json.get data "transfer_destination")
      disposition := optionalStr (Json.get data "disposition") }

def edgeFromRaw (raw : Dict String Json) : Edge :=
  let data := dataObject raw
  { id := (Json.get raw "id").strOr ""
    source := (Json.get raw "source").strOr ""
    target := (Json.get raw "target").strOr ""
    label := stripStr ((Json.get data "label").strOr "")
    condition := stripStr ((Json.get data "condition").strOr "")
    transitionSpeech := nonempty (stripStr ((Json.get data "transition_speech").strOr "")) }

/-! ### Validation -/

/-- The errors of a node that is kept all the same. -/
def nodeErrors (node : Node) : List WorkflowError :=
  (if node.type ∉ nodeTypes then
    [⟨"node", node.id, "type",
      quoted node.type ++ " isn't a kind of step this editor knows about"⟩]
  else []) ++
  if node.name = "" then
    [⟨"node", node.id, "name",
      "This step needs a name — it's what you'll see in your call logs"⟩]
  else []

/-- Reads one node, after the errors and the nodes so far. -/
def readNode (s : List WorkflowError × Dict String Node) (rawNode : Json) :
    Except ParseError (List WorkflowError × Dict String Node) :=
  match rawNode with
  | .obj raw => (nodeFromRaw raw).map fun node =>
    if node.id = "" then
      (s.1 ++ [⟨"node", none, "id", "A step is missing its id — try reloading the page"⟩], s.2)
    else if node.id ∈ s.2.map Prod.fst then
      (s.1 ++ [⟨"node", node.id, "id", "Two steps share the id " ++ quoted node.id ++
        " — try reloading the page"⟩], s.2)
    else (s.1 ++ nodeErrors node, s.2.set node.id node)
  | _ => .ok (s.1 ++ [⟨"workflow", none, "nodes", "every step must be an object"⟩], s.2)

/-- The nodes whose name another one before has, up to the case. -/
def nameErrors : Dict String String → List Node → List WorkflowError
  | _, [] => []
  | seenNames, node :: nodes =>
    (if (seenNames.get? (Runtime.lower node.name)).isSome then
      [⟨"node", node.id, "name", "Another step is already called " ++ quoted node.name ++
        ". Names show up in your call logs and transcripts, so each one has to be different"⟩]
    else []) ++ nameErrors (seenNames.set (Runtime.lower node.name) node.id) nodes

def startsOf (nodes : List Node) : List Node := nodes.filter (·.type = "start")

/-- What a flow needs one of, and what it may not have more of. -/
def shapeErrors (nodes : List Node) : List WorkflowError :=
  let starts := startsOf nodes
  let globals := nodes.filter Node.isUnwired
  (if starts.length ≠ 1 then
    [⟨"workflow", none, none, "A flow needs exactly one starting point — " ++
      if starts = [] then "there isn't one" else "there are " ++ toString starts.length⟩]
  else []) ++
  (if nodes.any (·.type = "end") then []
  else [⟨"workflow", none, none,
    "Add a step that ends the call, otherwise the conversation has no way to finish"⟩]) ++
  if globals.length > 1 then
    [⟨"workflow", none, none, "There are " ++ toString globals.length ++
      " always-on instructions — keep one, and put anything step-specific on the step itself"⟩]
  else []

/-- The errors of an edge that is kept all the same. -/
def edgeErrors (edge : Edge) : List WorkflowError :=
  if edge.label = "" ∧ edge.condition = "" then
    [⟨"edge", edge.id, "condition", "This connection isn't set up yet — it needs a short name " ++
      "and a description of when the call should take it"⟩]
  else
    (if edge.label = "" then
      [⟨"edge", edge.id, "label",
        "This connection needs a short name — it's how the agent refers to this move"⟩]
    else if edge.toolName = "" then
      [⟨"edge", edge.id, "label", quoted edge.label ++
        " has no letters or numbers in it, so it can't be used as a name"⟩]
    else []) ++
    if edge.condition = "" then
      [⟨"edge", edge.id, "condition", "This connection needs a condition. Without one the agent " ++
        "never knows when to take it, so the call can't move on"⟩]
    else []

/-- Reads one edge between the nodes `ids`, after the errors and the edges so far. -/
def readEdge (ids : List String) (s : List WorkflowError × List Edge) (rawEdge : Json) :
    List WorkflowError × List Edge :=
  match rawEdge with
  | .obj raw =>
    let edge := edgeFromRaw raw
    if edge.source ∉ ids then
      (s.1 ++ [⟨"edge", edge.id, "source", "This connection points from unknown step " ++
        quoted edge.source ++ " — remove it or fix the id"⟩], s.2)
    else if edge.target ∉ ids then
      (s.1 ++ [⟨"edge", edge.id, "target", "This connection points to unknown step " ++
        quoted edge.target ++ " — remove it or fix the id"⟩], s.2)
    else (s.1 ++ edgeErrors edge, s.2 ++ [edge])
  | _ => (s.1 ++ [⟨"workflow", none, "edges", "every connection must be an object"⟩], s.2)

/-- `out_edges[node_id]`. -/
def outEdges (edges : List Edge) (nodeId : String) : List Edge := edges.filter (·.source = nodeId)

/-- `in_count[node_id]`. -/
def inCount (edges : List Edge) (nodeId : String) : ℕ := edges.countP (·.target = nodeId)

/-- The edges whose tool another one before has. An edge without a tool name is
    reported on its own. -/
def toolNameErrors : Dict String Edge → List Edge → List WorkflowError
  | _, [] => []
  | byToolName, edge :: edges =>
    if edge.toolName = "" then toolNameErrors byToolName edges
    else
      (match byToolName.get? edge.toolName with
        | some clash =>
          [⟨"edge", edge.id, "label", quoted edge.label ++ " and " ++ quoted clash.label ++
            " look like the same move to the agent, so only one of them would ever fire — " ++
            "give one a different name"⟩]
        | none => []) ++ toolNameErrors (byToolName.set edge.toolName edge) edges

/-- The errors in how a node is wired. -/
def wiringErrors (edges : List Edge) (node : Node) : List WorkflowError :=
  if node.isUnwired then
    if inCount edges node.id ≠ 0 ∨ outEdges edges node.id ≠ [] then
      [⟨"node", node.id, none, quoted node.name ++ " applies to every step, so it isn't part of " ++
        "the flow — remove the connection"⟩]
    else []
  else
    (if node.type = "start" ∧ inCount edges node.id ≠ 0 then
      [⟨"node", node.id, none,
        "Nothing can lead back into the starting point — it's where every call begins"⟩]
    else []) ++
    (if node.type = "transfer" ∧ stripStr (node.transferDestination.getD "") = "" then
      [⟨"node", node.id, "transfer_destination", quoted node.name ++
        " hands the call to a human, so it needs a destination number"⟩]
    else []) ++
    (if node.isTerminal ∧ outEdges edges node.id ≠ [] then
      [⟨"node", node.id, none, quoted node.name ++ " " ++
        (if node.type = "transfer" then "hands the call to a human" else "ends the call") ++
        ", so nothing can lead out of it — remove the connection leaving it"⟩]
    else []) ++
    (if ¬ node.isTerminal ∧ outEdges edges node.id = [] then
      [⟨"node", node.id, none, quoted node.name ++ " has no way out. A call that reaches it would " ++
        "be stuck there until it hits the time limit — connect it to another step, or make it " ++
        "end the call"⟩]
    else []) ++ toolNameErrors [] (outEdges edges node.id)

/-- The node with the edges that leave it. -/
def Node.withOutEdges (n : Node) (edges : List Edge) : Node :=
  { n with outEdges := Config.outEdges edges n.id }

/-- The graph of the nodes, and where it starts. -/
def buildGraph (nodes : List Node) (edges : List Edge) : WorkflowGraph where
  nodes := nodes.map fun n => (n.id, n.withOutEdges edges)
  startNodeId := ((startsOf nodes).head?.map Node.id).getD ""

/-- The raw edges; `none` when they are no list. -/
def rawEdges (raw : Dict String Json) : Option (List Json) :=
  let edges := Json.get raw "edges"
  if edges.truthy then
    match edges with
    | .arr edges => some edges
    | _ => none
  else some []

def parseGraph (raw : Json) : Except ParseError WorkflowGraph :=
  match raw with
  | .obj raw =>
    match Json.get raw "nodes" with
    | .arr (rawNode :: rawNodes) =>
      match rawEdges raw with
      | none => .error (.invalid [⟨"workflow", none, "edges", "edges must be a list"⟩])
      | some rawEdges => do
        let (errors, nodes) ← (rawNode :: rawNodes).foldlM readNode ([], [])
        if errors ≠ [] then .error (.invalid errors)
        else
          let nodes := nodes.map Prod.snd
          let (errors, edges) := rawEdges.foldl (readEdge (nodes.map Node.id))
            (nameErrors [] nodes ++ shapeErrors nodes, [])
          let errors := errors ++ nodes.flatMap (wiringErrors edges)
          if errors ≠ [] then .error (.invalid errors) else .ok (buildGraph nodes edges)
    | _ => .error (.invalid [⟨"workflow", none, "nodes", "workflow has no nodes"⟩])
  | _ => .error (.invalid [⟨"workflow", none, none, "workflow must be an object"⟩])

end

end Yuviz.Config
