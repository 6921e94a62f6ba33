import Yuviz.Config.Workflow.Variables

/-!
# Warnings about a graph

Mistakes of the editor that do not block a publish: steps no call reaches, and
variables that are not filled on every path before they are spoken. A graph with
no template problem promises what `Filling` says: that a text refers only to
variables supplied from the start, or captured on every path to where it is
spoken (`filling_of_graphWarnings`).
-/

namespace Yuviz.Config

open Python

variable [Runtime]

/-- Where a text is, for its warnings. -/
structure TextPlace where
  kind : String
  id : String
  field : String
  nodeName : Option String := none
  alwaysOn : Bool := false

/-- The message for a variable that will come out blank. -/
def blankMessage (place : TextPlace) (declaredAnywhere : Finset String) (name : String) : String :=
  let placeholder := "\x7b\x7b " ++ name ++ " \x7d\x7d"
  if place.alwaysOn then
    placeholder ++ " is in the always-on instruction, so it has to come from the call itself (or " ++
      "contact data) — a later step can't fill it in time"
  else if name ∈ declaredAnywhere then
    placeholder ++ " is used " ++
      (match place.nodeName with
        | some nodeName => if nodeName = "" then "on this connection" else "on " ++ quoted nodeName
        | none => "on this connection") ++
      " before every path captures it, so it will come out blank when the agent speaks"
  else
    "Nothing in this flow provides " ++ placeholder ++ ", so it will come out blank when the agent " ++
      "speaks. Check the spelling, or have a step capture it"

/-- `_warn_templates`. -/
def warnTemplates (place : TextPlace) (text : String) (available declaredAnywhere : Finset String) :
    List WorkflowError :=
  ((malformedTemplates text).map fun chunk =>
    ⟨place.kind, place.id, place.field, chunk ++ " isn't a valid placeholder — use " ++
      "\x7b\x7b name \x7d\x7d (letters/numbers/underscore only)"⟩) ++
  (sorted (templateVariables text \ available)).map fun name =>
    ⟨place.kind, place.id, place.field, blankMessage place declaredAnywhere name⟩

def alwaysOnPlace (node : Node) : TextPlace where
  kind := "node"
  id := node.id
  field := "prompt"
  nodeName := node.name
  alwaysOn := true

/-- The warnings about one node. -/
def nodeWarnings (g : WorkflowGraph) (always : Finset String) (node : Node) : List WorkflowError :=
  if node.isUnwired then
    warnTemplates (alwaysOnPlace node) node.prompt always g.declaredVariables
  else if node.id ∉ g.reachable then
    [⟨"node", node.id, none, "No path leads to " ++ quoted node.name ++
      ", so no call will ever reach it"⟩]
  else
    let onEntry := always ∪ g.variablesAvailableAt node.id
    let onLeave := always ∪ g.variablesAvailableAt node.id true
    warnTemplates { kind := "node", id := node.id, field := "prompt", nodeName := node.name }
      node.prompt onEntry g.declaredVariables ++
    warnTemplates { kind := "node", id := node.id, field := "greeting", nodeName := node.name }
      (node.greeting.getD "") onEntry g.declaredVariables ++
    node.outEdges.flatMap fun edge =>
      warnTemplates { kind := "edge", id := edge.id, field := "transition_speech" }
        (edge.transitionSpeech.getD "") onLeave g.declaredVariables

def graphWarnings (g : WorkflowGraph) (knownVariables : Finset String := ∅) : List WorkflowError :=
  g.nodes.flatMap fun e => nodeWarnings g (callContextVariables ∪ knownVariables) e.2

/-- A warning that is not about a text names no field. -/
def NoTemplateProblem (g : WorkflowGraph) (knownVariables : Finset String) : Prop :=
  ∀ w ∈ graphWarnings g knownVariables, w.field = none

/-- The variables a text of a step refers to are supplied, or captured on every path. -/
structure Filling (g : WorkflowGraph) (always : Finset String) (node : Node) : Prop where
  prompt : templateVariables node.prompt ⊆ always ∪ g.variablesAvailableAt node.id
  greeting : templateVariables (node.greeting.getD "") ⊆ always ∪ g.variablesAvailableAt node.id
  speech : ∀ e ∈ node.outEdges, templateVariables (e.transitionSpeech.getD "") ⊆
    always ∪ g.variablesAvailableAt node.id true

variable {g : WorkflowGraph} {place : TextPlace} {text : String}
  {available declaredAnywhere always known : Finset String} {node : Node}

theorem subset_of_warnTemplates
    (h : ∀ w ∈ warnTemplates place text available declaredAnywhere, w.field = none) :
    templateVariables text ⊆ available := by
  intro v hv
  by_contra hn
  have hmem : (⟨place.kind, place.id, place.field, blankMessage place declaredAnywhere v⟩ :
      WorkflowError) ∈ warnTemplates place text available declaredAnywhere := by
    refine List.mem_append_right _ (List.mem_map.2 ⟨v, ?_, rfl⟩)
    exact mem_sorted_iff.2 (Finset.mem_sdiff.2 ⟨hv, hn⟩)
  cases h _ hmem

theorem filling_of_graphWarnings (h : NoTemplateProblem g known) {id : String}
    (hnode : (id, node) ∈ g.nodes) (hwired : ¬ node.isUnwired) (hreach : node.id ∈ g.reachable) :
    Filling g (callContextVariables ∪ known) node := by
  have hwarn : ∀ w ∈ nodeWarnings g (callContextVariables ∪ known) node, w.field = none :=
    fun w hw => h w (List.mem_flatMap.2 ⟨_, hnode, hw⟩)
  rw [nodeWarnings, if_neg hwired, if_neg (not_not.2 hreach)] at hwarn
  simp only [List.forall_mem_append, List.mem_flatMap] at hwarn
  obtain ⟨⟨hprompt, hgreeting⟩, hspeech⟩ := hwarn
  exact ⟨subset_of_warnTemplates hprompt, subset_of_warnTemplates hgreeting,
    fun e he => subset_of_warnTemplates fun w hw => hspeech w ⟨e, he, hw⟩⟩

/-- The always-on instruction refers only to what is supplied. -/
theorem globalPrompt_of_graphWarnings (h : NoTemplateProblem g known) :
    templateVariables g.globalPrompt ⊆ callContextVariables ∪ known := by
  rw [WorkflowGraph.globalPrompt]
  rcases hfind : g.nodes.find? (·.2.isUnwired) with _ | ⟨id, node⟩ <;> rw [hfind]
  · exact Finset.empty_subset _
  · have hunwired : node.isUnwired := by simpa using List.find?_some hfind
    have hwarn : ∀ w ∈ nodeWarnings g (callContextVariables ∪ known) node, w.field = none :=
      fun w hw => h w (List.mem_flatMap.2 ⟨_, List.mem_of_find?_eq_some hfind, hw⟩)
    rw [nodeWarnings, if_pos hunwired] at hwarn
    exact subset_of_warnTemplates hwarn

end Yuviz.Config
