import Mathlib
import Yuviz.Config.Workflow.Equivalent
import Yuviz.Config.Workflow.Warnings
import Yuviz.System

/-!
# The workflow of an agent

An agent's row holds the graph that is live, the draft of the editor, and two
columns with the texts a call begins with, which are taken from the live graph;
what has been live is kept, numbered, in a table of its own. Five requests write
them, each in one transaction: when it raises an error, nothing is written. The
row of one agent is modelled, under the requests made for it.

A graph comes back from the database as `jsonb` has it: the fields of an object in
another order, a number with an exponent written out.
-/

namespace Yuviz.Config.Workflows

open Python

/-- Columns of the type `jsonb`. -/
class Jsonb where
  /-- What is read back of a value, if it is not refused. -/
  load : Json → Option Json
  /-- `=` of two values. -/
  same : Json → Json → Bool

/-- What is relied on: strings are kept, an array keeps its items and an object its fields, in an
    order of its own, and what has been read back is kept. None of it is not a number, and no
    key comes twice, so that it equals itself. -/
class LawfulJsonb [Jsonb] : Prop where
  load_str {s : String} {x : Json} : Jsonb.load (.str s) = some x → x = .str s
  load_arr {items : List Json} {x : Json} : Jsonb.load (.arr items) = some x →
    ∃ items', x = .arr items' ∧ List.Forall₂ (fun y y' => Jsonb.load y = some y') items items'
  load_obj {fields : Dict String Json} {x : Json} : Jsonb.load (.obj fields) = some x →
    ∃ fields', x = .obj fields' ∧ ∀ k, Option.Rel (fun y y' => Jsonb.load y = some y')
      (Dict.get? fields k) (Dict.get? fields' k)
  load_load {x y : Json} : Jsonb.load x = some y → Jsonb.load y = some y
  eq_self {x y : Json} : Jsonb.load x = some y → y.eq y = true

inductive Failure
  | lookupError (message : String)
  | valueError (message : String)
  | workflowValidationError (errors : List WorkflowError)
  | staleDraft
  /-- Any other error, of a builtin function or of the database. -/
  | other
  deriving DecidableEq

/-- Which agent the requests are made for. -/
structure AgentRef where
  agentId : String
  tenantSlug : String

structure Version where
  version : ℕ
  graph : Dict String Json
  note : Option String

/-- A row of `agents`. -/
structure Agent where
  workflow : Option (Dict String Json)
  workflowDraft : Option (Dict String Json)
  greeting : String
  systemPrompt : String
  /-- The other columns. -/
  columns : Dict String Json
  configVersion : ℕ := 1

structure Rows where
  agent : Option Agent := none
  versions : List Version := []

/-! ### The texts of a graph -/

section Prompts

variable [Runtime]

/-- `_coerce_prompt` -/
def coercePrompt : Json → String
  | .null => ""
  | value => value.toStr

def isType (node : Dict String Json) (type : String) : Bool :=
  (Json.get node "type").eq (.str type)

/-- One node, after the greeting and the instruction that have been found. -/
def readPrompts (prompts : Option String × Option String) (node : Dict String Json) :
    Option String × Option String :=
  if isType node "start" then
    (some (coercePrompt (Json.get (dataObject node) "greeting")), prompts.2)
  else if isType node "global" then
    (prompts.1, some (coercePrompt (Json.get (dataObject node) "prompt")))
  else prompts

/-- The greeting and the instruction of a graph that has been validated: its nodes and their
    data are objects. -/
def promptsFromGraph (graph : Dict String Json) : Option String × Option String :=
  ((objects (Json.get graph "nodes")).getD []).foldl readPrompts (none, none)

def columnPrompts (graph : Dict String Json) : String × String :=
  ((promptsFromGraph graph).1.getD "", (promptsFromGraph graph).2.getD "")

def hashable : Json → Bool
  | .arr _ | .obj _ => false
  | _ => true

/-- `key in fields` -/
def contains (fields : Dict String Json) (key : String) : Bool := key ∈ fields.map Prod.fst

def requirePromptNodes (nodes : List (Dict String Json)) (fields : Dict String Json) :
    Except Failure Unit :=
  if nodes.any fun n => !hashable (Json.get n "type") then .error .other
  else if contains fields "greeting" ∧ ¬ nodes.any (isType · "start") then
    .error (.valueError "cannot update greeting: this agent's workflow has no start node")
  else if contains fields "system_prompt" ∧ ¬ nodes.any (isType · "global") then
    .error (.valueError
      "cannot update system_prompt: this agent's workflow has no always-on (global) node")
  else .ok ()

/-- The key and the value `dict` finds in an element of a list. -/
def pairOf : Json → Option (Json × Json)
  | .arr [k, v] => some (k, v)
  | .obj [(k, _), (k', _)] => some (.str k, .str k')
  | .str s =>
    match s.toList with
    | [c, c'] => some (.str (String.singleton c), .str (String.singleton c'))
    | _ => none
  | _ => none

/-- `d[k] = v`, where the keys are any hashable values. -/
def setItem (d : List (Json × Json)) (e : Json × Json) : List (Json × Json) :=
  if d.any (·.1.eq e.1) then d.map fun e' => if e'.1.eq e.1 then (e'.1, e.2) else e'
  else d ++ [e]

/-- The key of an object that `json.dumps` writes for a hashable value. -/
def keyText : Json → String
  | .str s => s
  | k => k.dumps

/-- `dict(x or {})`, as it is stored. -/
def dictOf (x : Json) : Except Failure (Dict String Json) :=
  if x.truthy then
    match x with
    | .obj fields => .ok fields
    | .arr items =>
      match items.mapM pairOf with
      | some pairs =>
        if pairs.all fun e => hashable e.1 then
          .ok (Dict.ofPairs ((pairs.foldl setItem []).map fun e => (keyText e.1, e.2)))
        else .error .other
      | none => .error .other
    | _ => .error .other
  else .ok []

/-- The data of a node with the texts that are among the `fields`. -/
def mirrorData (fields raw data : Dict String Json) : Dict String Json :=
  let data := if isType raw "global" ∧ contains fields "system_prompt" then
    data.set "prompt" (.str (coercePrompt (Json.get fields "system_prompt"))) else data
  if isType raw "start" ∧ contains fields "greeting" then
    data.set "greeting" (.str (coercePrompt (Json.get fields "greeting"))) else data

def mirrorNode (fields raw : Dict String Json) : Except Failure (Dict String Json) :=
  (dictOf (Json.get raw "data")).map fun data =>
    raw.set "data" (.obj (mirrorData fields raw data))

/-- `_mirror_prompts_into_graph` -/
def mirrorPromptsIntoGraph (graph fields : Dict String Json) :
    Except Failure (Dict String Json) :=
  if ¬ contains fields "greeting" ∧ ¬ contains fields "system_prompt" then .ok graph
  else
    match objects (Json.get graph "nodes") with
    | none => .error .other
    | some nodes => do
      requirePromptNodes nodes fields
      let nodes ← nodes.mapM (mirrorNode fields)
      .ok (graph.set "nodes" (.arr (nodes.map .obj)))

/-- The graph of a new agent. -/
def starterGraph (greeting systemPrompt : String) : Dict String Json :=
  let position (x y : ℤ) : Json := .obj [("x", .int x), ("y", .int y)]
  [("version", .int 1),
  ("nodes", .arr
    [.obj [("id", .str "global"), ("type", .str "global"), ("position", position 330 0),
      ("data", .obj [("name", .str "always applies"), ("prompt", .str systemPrompt)])],
    .obj [("id", .str "start"), ("type", .str "start"), ("position", position 0 0),
      ("data", .obj
        [("name", .str "greeting"),
        ("prompt", .str "Greet the caller and find out what they need."),
        ("greeting", .str greeting), ("tools", .arr []), ("knowledge_base_ids", .arr [])])],
    .obj [("id", .str "end"), ("type", .str "end"), ("position", position 0 230),
      ("data", .obj
        [("name", .str "goodbye"),
        ("prompt", .str "Confirm anything outstanding and close warmly."),
        ("disposition", .str "completed")])]]),
  ("edges", .arr
    [.obj [("id", .str "e-start-end"), ("source", .str "start"), ("target", .str "end"),
      ("data", .obj
        [("label", .str "conversation finished"),
        ("condition", .str "The caller has no further questions.")])]])]

end Prompts

/-! ### The database -/

section Database

variable [Jsonb]

/-- What is read back of a graph that is written. -/
def stored (graph : Dict String Json) : Except Failure (Dict String Json) :=
  match Jsonb.load (.obj graph) with
  | some (.obj graph) => .ok graph
  | _ => .error .other

/-- `to_jsonb` of a row, without the draft and the number. -/
def Agent.row (agent : Agent) : Json :=
  .obj (("workflow", (agent.workflow.map Json.obj).getD .null) ::
    ("greeting", .str agent.greeting) :: ("system_prompt", .str agent.systemPrompt) ::
    agent.columns)

/-- `bump_agent_config_version`: the row is updated, and numbered anew unless only the draft
    is another. -/
def Agent.update (old new : Agent) : Agent :=
  { new with
    configVersion :=
      if Jsonb.same old.row new.row then old.configVersion else old.configVersion + 1 }

/-- `COALESCE(MAX(version), 0)` -/
def maxVersion (versions : List Version) : ℕ := (versions.map Version.version).foldr max 0

def appendVersion (versions : List Version) (graph : Dict String Json) (note : Option String) :
    List Version :=
  versions ++ [⟨maxVersion versions + 1, graph, note⟩]

end Database

/-! ### The requests -/

inductive Op
  | createAgent (greeting systemPrompt : String) (workflow : Option (Dict String Json))
      (columns : Dict String Json) (tenantSlug : Option String)
  | updateAgent (fields : Dict String Json)
  | saveDraft (graph : Dict String Json) (baseConfigVersion : Option ℕ)
  | publish (graph : Option (Dict String Json)) (note : Option String)
  | rollback (version : ℕ)

inductive Answer
  | agent (agent : Agent)
  | saved (configVersion : ℕ)
  | published (version configVersion : ℕ) (warnings : List WorkflowError)

def updatableFields : List String :=
  ["name", "greeting", "system_prompt", "goodbye_grace_ms", "language", "stt_config_id",
    "llm_config_id", "tts_config_id", "transfer_type", "transfer_destination", "queue_id",
    "escalation_threshold", "caller_id_policy", "platform_did", "custom_caller_id",
    "transfer_waiting_experience", "end_call_prompt", "transfer_prompt", "farewell_message",
    "transfer_announcement", "status", "max_call_duration_s"]

section Requests

variable [Runtime] [Jsonb]

def AgentRef.notFound (ref : AgentRef) : Failure :=
  .lookupError ("agent " ++ ref.agentId ++ " not found under tenant " ++ quoted ref.tenantSlug)

/-- `_locked_agent` -/
def lockedAgent (ref : AgentRef) (s : Rows) : Except Failure Agent :=
  match s.agent with
  | some agent => .ok agent
  | none => .error ref.notFound

def validate (graph : Dict String Json) : Except Failure (List WorkflowError) :=
  match parseGraph (.obj graph) with
  | .ok g => .ok (graphWarnings g)
  | .error (.invalid errors) => .error (.workflowValidationError errors)
  | .error .overflow => .error .other

/-- `graphs_equivalent` -/
def equivalent (a b : Option (Dict String Json)) : Except Failure Bool :=
  match graphsEquivalent a b with
  | some equivalent => .ok equivalent
  | none => .error .other

/-- The graph a new agent is created with. -/
def initialGraph (greeting systemPrompt : String) (workflow : Option (Dict String Json)) :
    Dict String Json :=
  match workflow with
  | some (field :: fields) => field :: fields
  | _ => starterGraph greeting systemPrompt

def createAgent (greeting systemPrompt : String) (workflow : Option (Dict String Json))
    (columns : Dict String Json) (s : Rows) : Except Failure (Rows × Answer) := do
  let graph := initialGraph greeting systemPrompt workflow
  let _ ← validate graph
  let graphJson ← stored graph
  let agent : Agent :=
    { workflow := graphJson
      workflowDraft := graphJson
      greeting := (columnPrompts graph).1
      systemPrompt := (columnPrompts graph).2
      columns := columns }
  -- The slug is taken.
  if s.agent.isSome then .error .other
  else
    .ok ({ agent := agent
           versions := appendVersion s.versions graphJson "created with the agent" },
      .agent agent)

/-- `set_fields`: the texts are strings. -/
def coerceFields (fields : Dict String Json) : Dict String Json :=
  fields.mapItems fun key value =>
    if key = "greeting" ∨ key = "system_prompt" then .str (coercePrompt value) else value

/-- The graph with the texts, if that makes another graph of it. -/
def synced (graph fields : Dict String Json) : Except Failure (Option (Dict String Json)) :=
  (mirrorPromptsIntoGraph graph fields).map fun graph' =>
    if (Json.obj graph').eq (.obj graph) then none else some graph'

/-- What is written of the two graphs. -/
def syncedGraphs (old : Agent) (fields : Dict String Json) :
    Except Failure (Option (Dict String Json) × Option (Dict String Json)) :=
  match old.workflow with
  | some workflow =>
    if contains fields "greeting" ∨ contains fields "system_prompt" then do
      let graph ← synced workflow fields
      let draft ← synced (old.workflowDraft.getD workflow) fields
      .ok (graph, draft)
    else .ok (none, none)
  | none => .ok (none, none)

/-- A text column, when it is among the fields. -/
def textColumn (fields : Dict String Json) (column old : String) : String :=
  ((fields.get? column).map Json.toStr).getD old

/-- Writes a graph that is given. -/
def storedOr (graph : Option (Dict String Json)) (old : Option (Dict String Json)) :
    Except Failure (Option (Dict String Json)) :=
  match graph with
  | some graph => (stored graph).map some
  | none => .ok old

def checkUpdatable (fields : Dict String Json) : Except Failure Unit :=
  let unknown := (fields.map Prod.fst).filter (· ∉ updatableFields)
  if fields = [] then .error (.valueError "update_agent() called with no fields to update")
  else if unknown ≠ [] then
    .error (.valueError ("update_agent() got non-updatable field(s): \x7b" ++
      ", ".intercalate ((Runtime.order unknown.toFinset).map quoted) ++ "\x7d"))
  else .ok ()

def updateAgent (ref : AgentRef) (fields : Dict String Json) (s : Rows) :
    Except Failure (Rows × Answer) := do
  checkUpdatable fields
  let old ← lockedAgent ref s
  let setFields := coerceFields fields
  let (graph, draft) ← syncedGraphs old setFields
  let workflow ← storedOr graph old.workflow
  let workflowDraft ← storedOr draft old.workflowDraft
  let new := old.update
    { old with
      workflow := workflow
      workflowDraft := workflowDraft
      greeting := textColumn setFields "greeting" old.greeting
      systemPrompt := textColumn setFields "system_prompt" old.systemPrompt
      columns := (setFields.filter fun e => e.1 ≠ "greeting" ∧ e.1 ≠ "system_prompt").foldl
        (fun columns e => columns.set e.1 e.2) old.columns }
  .ok ({ agent := new
         versions := match graph, workflow with
           | some _, some workflow =>
             appendVersion s.versions workflow "mirrored greeting/system_prompt"
           | _, _ => s.versions },
    .agent new)

def saveDraft (ref : AgentRef) (graph : Dict String Json) (baseConfigVersion : Option ℕ)
    (s : Rows) : Except Failure (Rows × Answer) := do
  let draft ← stored graph
  let old ← lockedAgent ref s
  if baseConfigVersion = none ∨ baseConfigVersion = some old.configVersion then
    let new := old.update { old with workflowDraft := draft }
    .ok ({ s with agent := new }, .saved new.configVersion)
  else .error .staleDraft

/-- What is published: the draft, when no graph is given. -/
def candidate (ref : AgentRef) (graph : Option (Dict String Json)) (s : Rows) :
    Except Failure (Dict String Json) :=
  match graph with
  | some graph => .ok graph
  | none => do
    let agent ← lockedAgent ref s
    match agent.workflowDraft with
    | some draft => .ok draft
    | none => .error (.valueError "nothing to publish — this agent has no workflow draft")

/-- The draft is peeked at before the transaction, and may be written in between. A request is
    one step here, so that it is not. -/
def revalidate (candidate peeked : Dict String Json) (warnings : List WorkflowError) :
    Except Failure (List WorkflowError) := do
  let same ← equivalent candidate peeked
  if same then .ok warnings else validate candidate

def publish (ref : AgentRef) (graph : Option (Dict String Json)) (note : Option String)
    (s : Rows) : Except Failure (Rows × Answer) := do
  let peeked ← candidate ref graph s
  let warnings ← validate peeked
  let old ← lockedAgent ref s
  let candidate ← candidate ref graph s
  let warnings ← revalidate candidate peeked warnings
  let isLive ← equivalent candidate old.workflow
  let payload ← stored candidate
  let new := old.update
    { old with
      workflow := payload
      workflowDraft := payload
      greeting := if isLive then old.greeting else (columnPrompts candidate).1
      systemPrompt := if isLive then old.systemPrompt else (columnPrompts candidate).2 }
  let versions := if isLive then s.versions else appendVersion s.versions payload note
  .ok ({ agent := new, versions := versions },
    .published (maxVersion versions) new.configVersion warnings)

def rollback (ref : AgentRef) (version : ℕ) (s : Rows) : Except Failure (Rows × Answer) :=
  match s.agent.bind fun _ => s.versions.find? (·.version = version) with
  | some oldVersion =>
    publish ref oldVersion.graph ("rollback to version " ++ toString version) s
  | none =>
    .error (.lookupError
      ("workflow version " ++ toString version ++ " not found for agent " ++ ref.agentId))

/-- What a request does, if nothing fails that is not modelled. -/
def perform (ref : AgentRef) : Op → Rows → Except Failure (Rows × Answer)
  | .createAgent greeting systemPrompt workflow columns _ =>
    createAgent greeting systemPrompt workflow columns
  | .updateAgent fields => updateAgent ref fields
  | .saveDraft graph baseConfigVersion => saveDraft ref graph baseConfigVersion
  | .publish graph note => publish ref graph note
  | .rollback version => rollback ref version

structure Request where
  op : Op
  /-- Another check, or the database, fails before the transaction is committed. -/
  fails : Bool := false
  /-- The database fails afterwards, when the agent is read for the cache. -/
  readFails : Bool := false

/-- A new agent is read once, when its tenant is known. -/
def Request.fetches (r : Request) : Bool :=
  match r.op with
  | .createAgent _ _ _ _ (some _) => true
  | _ => false

/-- The rows after a request, and its answer. -/
def Request.run (ref : AgentRef) (r : Request) (s : Rows) : Rows × Except Failure Answer :=
  if r.fails then (s, .error .other)
  else
    match perform ref r.op s with
    | .error failure => (s, .error failure)
    | .ok (s', answer) => (s', if r.fetches ∧ r.readFails then .error .other else .ok answer)

/-- The requests for an agent, one after the other. -/
def requests (ref : AgentRef) : System Rows Request where
  init := {}
  step s r := some (r.run ref s).1

end Requests

end Yuviz.Config.Workflows
