import Yuviz.Config.Workflow.Warnings
import Yuviz.Conversation.Workflow.Extractor
import Yuviz.Conversation.Workflow.Navigation

/-!
# What a call renders

A workflow renders its texts when they are needed: the greeting as the call
opens, the prompt of the active node at the start of a turn, and in the middle
of a turn, when the model takes a tool, the line of the edge and the prompt of
the node it leads to. The warnings take what a node captures for known as soon
as the node is left. But then its extraction is only queued: it is started after
the turn, and put back into the queue when the caller speaks. A text rendered
before it is done comes out with a blank (`not_reachable_filled`).

That is the only way: as long as no text refers to a variable whose extraction
is still to be done, no text of a graph without template problems has a blank
(`reachable_filled`).
-/

namespace Yuviz.Conversation.Workflow

open Config Python

variable [Runtime] {H : Type*}

/-- A text that was rendered, with the variables it was rendered with. -/
structure Rendering where
  text : String
  vars : Dict String Json

/-- No placeholder of the text comes out blank. -/
def Rendering.Filled (r : Rendering) : Prop :=
  ∀ v ∈ templateVariables r.text, hasValue (r.vars.get? v)

instance (r : Rendering) : Decidable r.Filled :=
  inferInstanceAs (Decidable (∀ v ∈ templateVariables r.text, _))

/-- What the handler is at: a turn of the caller, or the turn after a failed transfer. -/
inductive Phase
  | idle
  | turn
  | recovery
deriving DecidableEq

/-- The runner and the extractor of a call, and what has been rendered so far. -/
structure Handler (H : Type*) where
  runner : Runner
  extractor : VariableExtractor H := {}
  phase : Phase := .idle
  rendered : List Rendering := []

inductive Event (H : Type*)
  | greeting
  /-- The tasks are interrupted in some order. -/
  | speechEnded (order : List (Config.Node × H))
  | turn
  /-- The model takes the tool of an edge; `store` is the history at that time. -/
  | transition (edge : Config.Edge) (store : H)
  /-- The generation of the turn is over. -/
  | respond
  | cancel (order : List (Config.Node × H))
  | workflowTransfer
  | abandonTransfer
  | transferFailed
  | recovered
  /-- An extraction is done. -/
  | extracted (item : Config.Node × H) (values : Dict String Json)

/-- An extraction yields a value for each of its variables. -/
def Yields (node : Config.Node) (values : Dict String Json) : Prop :=
  (∀ v ∈ node.declares, v ∈ values.map Prod.fst) ∧ ∀ e ∈ values, hasValue (some e.2)

instance (node : Config.Node) (values : Dict String Json) : Decidable (Yields node values) :=
  inferInstanceAs (Decidable (_ ∧ _))

namespace Handler

def render (s : Handler H) (text : String) : Handler H :=
  { s with rendered := s.rendered ++ [⟨text, s.runner.vars⟩] }

/-- What `systemPrompt` renders. -/
def renderPrompt (g : Config.WorkflowGraph) (s : Handler H) : Handler H :=
  (s.render g.globalPrompt).render s.runner.node.prompt

/-- The extraction of the node that is left. -/
def queueExtraction (s : Handler H) (store : H) : VariableExtractor H :=
  if s.runner.node.extraction.any (·.enabled) then s.extractor.extract s.runner.node store
  else s.extractor

/-- `_transition`. -/
def transition (g : Config.WorkflowGraph) (s : Handler H) (edge : Config.Edge) (store : H) :
    Option (Handler H) :=
  (s.runner.transition g edge).map fun runner =>
    renderPrompt g { s.render (edge.transitionSpeech.getD "") with
      runner := runner
      extractor := s.queueExtraction store }

def step [DecidableEq H] (g : Config.WorkflowGraph) (s : Handler H) : Event H → Option (Handler H)
  | .greeting => (g.node? g.startNodeId).map fun start => s.render (start.greeting.getD "")
  | .speechEnded order =>
    if order.Perm s.extractor.inflight then
      some { s with extractor := s.extractor.interruptForLiveTurn order }
    else none
  | .turn => if s.phase = .idle then some (renderPrompt g { s with phase := .turn }) else none
  | .transition edge store =>
    if s.phase ≠ .idle ∧ edge ∈ s.runner.node.outEdges then s.transition g edge store else none
  | .respond =>
    if s.phase = .turn then some { s with extractor := s.extractor.startDeferred, phase := .idle }
    else none
  | .cancel order =>
    if order.Perm s.extractor.inflight then
      some { s with
        runner := { s.runner with pendingSpeech := none }
        extractor := s.extractor.interruptForLiveTurn order }
    else none
  | .workflowTransfer => s.runner.pendingTransfer.map fun _ =>
    { s with
      runner := { s.runner with pendingTransfer := none }
      extractor := s.extractor.startDeferred }
  | .abandonTransfer => some { s with runner := s.runner.abandonTransfer }
  | .transferFailed =>
    if s.phase = .idle then
      some (renderPrompt g { s with runner := s.runner.abandonTransfer, phase := .recovery })
    else none
  | .recovered => if s.phase = .recovery then some { s with phase := .idle } else none
  | .extracted item values =>
    if item ∈ s.extractor.inflight ∧ Yields item.1 values then
      some { s with
        runner := s.runner.updateVariables values
        extractor := s.extractor.onTaskDone item }
    else none

/-- Each variable `text` refers to has its value, if it is one that is still to be
    extracted, or that the node being left is to yield (`leaving`). -/
def Ready (s : Handler H) (leaving : Finset String) (text : String) : Prop :=
  ∀ v ∈ templateVariables text, v ∈ leaving ∨ s.extractor.Outstanding v →
    hasValue (s.runner.vars.get? v)

instance (s : Handler H) (leaving : Finset String) (text : String) :
    Decidable (s.Ready leaving text) :=
  inferInstanceAs (Decidable (∀ v ∈ templateVariables text, _))

/-- The texts a step renders are ready for it. -/
def AllReady (g : Config.WorkflowGraph) (s : Handler H) : Event H → Prop
  | .turn => s.Ready ∅ s.runner.node.prompt
  | .transition edge _ =>
    s.Ready s.runner.node.declares (edge.transitionSpeech.getD "") ∧
      ∀ target ∈ g.node? edge.target, s.Ready s.runner.node.declares target.prompt
  | .transferFailed => s.Ready ∅ s.runner.abandonTransfer.node.prompt
  | _ => True

instance (g : Config.WorkflowGraph) (s : Handler H) : (e : Event H) → Decidable (s.AllReady g e)
  | .turn => inferInstanceAs (Decidable (s.Ready _ _))
  | .transition _ _ => inferInstanceAs (Decidable (s.Ready _ _ ∧ ∀ target ∈ _, s.Ready _ _))
  | .transferFailed => inferInstanceAs (Decidable (s.Ready _ _))
  | .greeting | .speechEnded _ | .respond | .cancel _ | .workflowTransfer | .abandonTransfer
  | .recovered | .extracted _ _ => inferInstanceAs (Decidable True)

end Handler

/-- The calls on the graph `g`. -/
def calls (H : Type*) [DecidableEq H] (g : Config.WorkflowGraph) (start : Config.Node)
    (vars : Dict String Json) : System (Handler H) (Event H) where
  init := { runner := .init start vars }
  step := Handler.step g

/-! ### What is promised -/

/-- The variable has its value, or there is an extraction that is to yield it. -/
def Handler.Promised (s : Handler H) (v : String) : Prop :=
  hasValue (s.runner.vars.get? v) ∨ s.extractor.Outstanding v

/-- The call got to `n` through nodes all whose variables are promised. -/
structure OnPath (nodes : List Config.Node) (edges : List Config.Edge) (s : Handler H)
    (n : Config.Node) : Prop where
  isStep : IsStep nodes edges n
  path : ∃ l, Walk (buildGraph nodes edges).HasEdge (buildGraph nodes edges).startNodeId l n.id ∧
    ∀ m ∈ l, ∀ v ∈ (buildGraph nodes edges).declaredBy m, s.Promised v

/-- What holds in every state of the runs in which each text is ready. -/
structure Sound (nodes : List Config.Node) (edges : List Config.Edge) (known : Finset String)
    (s : Handler H) : Prop where
  node : OnPath nodes edges s s.runner.node
  source : ∀ source ∈ s.runner.preTransferNode, OnPath nodes edges s source
  supplied : ∀ v ∈ callContextVariables ∪ known, hasValue (s.runner.vars.get? v)
  filled : ∀ r ∈ s.rendered, r.Filled

/-- Nothing known, or promised, is lost. -/
structure Keeps (s s' : Handler H) : Prop where
  value : ∀ v, hasValue (s.runner.vars.get? v) → hasValue (s'.runner.vars.get? v)
  promised : ∀ v, s.Promised v → s'.Promised v

variable {nodes : List Config.Node} {edges : List Config.Edge} {known leaving : Finset String}
  {n : Config.Node} {v text : String} {s s' : Handler H} {e : Event H}

omit [Runtime] in
theorem updateVariables_cons {r : Runner} {k : String} {value : Json} {values : Dict String Json}
    (h : hasValue (some value)) : r.updateVariables ((k, value) :: values) =
      Runner.updateVariables { r with vars := r.vars.set k value } values := by
  rcases value with _ | _ | _ | _ | _ | _ | _
  · exact absurd h (by decide)
  all_goals rfl

omit [Runtime] in
/-- The values of an extraction are added to those there are. -/
theorem hasValue_updateVariables {r : Runner} {values : Dict String Json}
    (h : ∀ e ∈ values, hasValue (some e.2))
    (hv : hasValue (r.vars.get? v) ∨ v ∈ values.map Prod.fst) :
    hasValue ((r.updateVariables values).vars.get? v) := by
  induction values generalizing r with
  | nil => exact hv.resolve_right List.not_mem_nil
  | cons e values ih =>
    obtain ⟨k, value⟩ := e
    rw [List.forall_mem_cons] at h
    rw [updateVariables_cons h.1]
    refine ih h.2 ?_
    rw [Dict.get?_set]
    rcases eq_or_ne v k with rfl | hne
    · exact .inl (by rw [if_pos rfl]; exact h.1)
    · rw [if_neg hne]
      exact hv.imp_right fun hv => by simpa [hne] using hv

omit [Runtime] in
theorem OnPath.keeps (h : OnPath nodes edges s n) (hk : Keeps s s') : OnPath nodes edges s' n := by
  obtain ⟨l, hl, hpromised⟩ := h.path
  exact ⟨h.isStep, l, hl, fun m hm v hv => hk.promised v (hpromised m hm v hv)⟩

theorem IsStep.declaredBy_eq (hv : Valid nodes edges) (h : IsStep nodes edges n) :
    (buildGraph nodes edges).declaredBy n.id = n.declares := by
  obtain ⟨m, hm, rfl, -⟩ := h
  rw [WorkflowGraph.declaredBy, show (m.withOutEdges edges).id = m.id from rfl, hv.node?_of_mem hm]
  rfl

omit [Runtime] in
theorem IsStep.mem_nodes (h : IsStep nodes edges n) : (n.id, n) ∈ (buildGraph nodes edges).nodes := by
  obtain ⟨m, hm, rfl, -⟩ := h
  exact List.mem_map_of_mem (f := fun m => (m.id, m.withOutEdges edges)) hm

/-- What the warnings promise of the texts of a node that a call is at. -/
theorem OnPath.filling (hv : Valid nodes edges)
    (hw : NoTemplateProblem (buildGraph nodes edges) known) (h : OnPath nodes edges s n) :
    Filling (buildGraph nodes edges) (callContextVariables ∪ known) n := by
  obtain ⟨l, hl, -⟩ := h.path
  exact filling_of_graphWarnings hw h.isStep.mem_nodes (h.isStep.wired hv).1
    (WorkflowGraph.mem_reachable_iff.2 (exists_walk_iff.1 ⟨l, hl⟩))

theorem Handler.Ready.filled (hv : Valid nodes edges) (hready : s.Ready leaving text)
    (hsupplied : ∀ v ∈ callContextVariables ∪ known, hasValue (s.runner.vars.get? v))
    (hpath : OnPath nodes edges s n) {isLeaving : Bool}
    (hleaving : isLeaving = true → n.declares ⊆ leaving)
    (hsub : templateVariables text ⊆
      (callContextVariables ∪ known) ∪ (buildGraph nodes edges).variablesAvailableAt n.id isLeaving) :
    Rendering.Filled ⟨text, s.runner.vars⟩ := by
  intro v hvt
  obtain ⟨l, hl, hpromised⟩ := hpath.path
  have hreach := WorkflowGraph.mem_reachable_iff.2 (exists_walk_iff.1 ⟨l, hl⟩)
  rcases Finset.mem_union.1 (hsub hvt) with hvs | hva
  · exact hsupplied v hvs
  · rw [hv.mem_variablesAvailableAt_iff hreach] at hva
    rcases hva with hcaptured | ⟨hleave, hdeclared⟩
    · -- Captured on every path, and so on the one taken.
      obtain ⟨m, hm, hvm⟩ := hcaptured l hl
      exact (hpromised m hm v hvm).elim id fun hout => hready v hvt (.inr hout)
    · rw [hpath.isStep.declaredBy_eq hv] at hdeclared
      exact hready v hvt (.inl (hleaving hleave hdeclared))

/-! ### Steps -/

omit [Runtime] in
theorem Sound.keeps (h : Sound nodes edges known s) (hk : Keeps s s')
    (hnode : s'.runner.node = s.runner.node ∨ s'.runner.node ∈ s.runner.preTransferNode)
    (hsource : ∀ source ∈ s'.runner.preTransferNode, source ∈ s.runner.preTransferNode)
    (hrendered : s'.rendered = s.rendered) : Sound nodes edges known s' := by
  refine ⟨?_, fun source hs => (h.source source (hsource source hs)).keeps hk,
    fun v hv => hk.value v (h.supplied v hv), hrendered ▸ h.filled⟩
  rcases hnode with hnode | hnode
  · exact hnode ▸ h.node.keeps hk
  · exact (h.source _ hnode).keeps hk

omit [Runtime] in
theorem outstanding_queueExtraction_iff {store : H} :
    (s.queueExtraction store).Outstanding v ↔
      v ∈ s.runner.node.declares ∨ s.extractor.Outstanding v := by
  rw [Handler.queueExtraction]
  split_ifs with henabled
  · exact VariableExtractor.outstanding_extract_iff
  · have hwants : ¬ VariableExtractor.wantsExtraction s.runner.node := by
      rw [VariableExtractor.wantsExtraction]
      generalize s.runner.node.extraction = extraction at henabled
      rcases extraction with _ | extraction <;> simp_all
    rw [VariableExtractor.declares_of_not_wantsExtraction hwants]
    simp

theorem Sound.greeting (hv : Valid nodes edges)
    (hw : NoTemplateProblem (buildGraph nodes edges) known) (h : Sound nodes edges known s)
    {start : Config.Node}
    (hstart : (buildGraph nodes edges).node? (buildGraph nodes edges).startNodeId = some start) :
    Sound nodes edges known (s.render (start.greeting.getD "")) := by
  have hk : Keeps s (s.render (start.greeting.getD "")) := ⟨fun _ => id, fun _ => id⟩
  refine ⟨h.node.keeps hk, fun n hn => (h.source n hn).keeps hk, h.supplied, fun r hr => ?_⟩
  obtain ⟨start', hstart', hstep, hid⟩ := exists_start hv
  obtain rfl := Option.some.inj (hstart'.symm.trans hstart)
  have hpath : OnPath nodes edges s start' := ⟨hstep, [], hid ▸ .nil, nofun⟩
  rcases List.mem_append.1 hr with hr | hr
  · exact h.filled r hr
  · rw [List.mem_singleton] at hr
    subst hr
    intro v hvt
    rcases Finset.mem_union.1 ((hpath.filling hv hw).greeting hvt) with hvs | hva
    · exact h.supplied v hvs
    · -- Nothing is captured before the start.
      rw [hid, hv.mem_variablesAvailableAt_iff (WorkflowGraph.mem_reachable_iff.2 .refl)] at hva
      exact absurd (hva.resolve_right (by simp)) not_inevitable_start

theorem Sound.renderPrompt (hv : Valid nodes edges)
    (hw : NoTemplateProblem (buildGraph nodes edges) known) (h : Sound nodes edges known s)
    (hready : s.Ready ∅ s.runner.node.prompt) :
    Sound nodes edges known (s.renderPrompt (buildGraph nodes edges)) := by
  have hk : Keeps s (s.renderPrompt (buildGraph nodes edges)) := ⟨fun _ => id, fun _ => id⟩
  refine ⟨h.node.keeps hk, fun n hn => (h.source n hn).keeps hk, h.supplied, fun r hr => ?_⟩
  simp only [Handler.renderPrompt, Handler.render, List.mem_append, List.mem_singleton] at hr
  rcases hr with (hr | rfl) | rfl
  · exact h.filled r hr
  · exact fun v hvt => h.supplied v (globalPrompt_of_graphWarnings hw hvt)
  · exact hready.filled hv h.supplied h.node (by simp)
      (h.node.filling hv hw).prompt

/-- A tool takes the call along an edge, and queues the extraction of the node it leaves. -/
theorem Sound.transition (hv : Valid nodes edges)
    (hw : NoTemplateProblem (buildGraph nodes edges) known) (h : Sound nodes edges known s)
    {edge : Config.Edge} {store : H} (he : edge ∈ s.runner.node.outEdges)
    (hready : s.AllReady (buildGraph nodes edges) (.transition edge store))
    (hs : s.transition (buildGraph nodes edges) edge store = some s') :
    Sound nodes edges known s' := by
  obtain ⟨runner, hrunner, rfl⟩ := Option.map_eq_some_iff.1 hs
  obtain ⟨m, hm, rfl⟩ := Option.map_eq_some_iff.1 hrunner
  have hedge := he
  rw [h.node.isStep.outEdges_eq, mem_outEdges_iff] at hedge
  obtain ⟨m', hm', hstep, hid, -⟩ := exists_target hv hedge.1
  obtain rfl := Option.some.inj (hm.symm.trans hm')
  set s₁ : Handler H := { s.render (edge.transitionSpeech.getD "") with
    runner := s.runner.enter edge m
    extractor := s.queueExtraction store } with hs₁
  have hvars : s₁.runner.vars = s.runner.vars := Runner.enter_vars _ _ _
  have hout (v : String) : s₁.extractor.Outstanding v ↔
      v ∈ s.runner.node.declares ∨ s.extractor.Outstanding v := outstanding_queueExtraction_iff
  have hk : Keeps s s₁ := by
    refine ⟨fun v hv => hvars ▸ hv, fun v hv => ?_⟩
    exact hv.imp (hvars ▸ ·) fun hv => (hout v).2 (.inr hv)
  have hpath : OnPath nodes edges s₁ m := by
    obtain ⟨l, hl, hpromised⟩ := h.node.path
    refine ⟨hstep, l ++ [s.runner.node.id], hl.snoc ?_, fun n hn v hvn => ?_⟩
    · exact hv.hasEdge_iff.2 ⟨edge, hedge.1, hedge.2, hid.symm⟩
    · rcases List.mem_append.1 hn with hn | hn
      · exact hk.promised v (hpromised n hn v hvn)
      · rw [List.mem_singleton.1 hn, h.node.isStep.declaredBy_eq hv] at hvn
        exact .inr ((hout v).2 (.inl hvn))
  have hsound : Sound nodes edges known s₁ := by
    refine ⟨(Runner.enter_node s.runner edge m).symm ▸ hpath, fun source hsource => ?_,
      fun v hv => hvars ▸ h.supplied v hv, fun r hr => ?_⟩
    · rw [hs₁, Runner.enter_preTransferNode] at hsource
      split_ifs at hsource
      · exact Option.some.inj hsource ▸ h.node.keeps hk
      · exact absurd hsource nofun
    · rcases List.mem_append.1 hr with hr | hr
      · exact h.filled r hr
      · exact List.mem_singleton.1 hr ▸ hready.1.filled hv h.supplied h.node
          (fun _ => subset_rfl) ((h.node.filling hv hw).speech edge he)
  refine hsound.renderPrompt hv hw fun v hvt hwait => ?_
  rw [show s₁.runner.node = m from Runner.enter_node _ _ _] at hvt
  exact hvars ▸ hready.2 m hm v hvt ((hout v).1 (hwait.resolve_left (Finset.notMem_empty v)))

omit [Runtime] in
theorem Sound.abandonTransfer (h : Sound nodes edges known s) (phase : Phase) :
    Sound nodes edges known { s with runner := s.runner.abandonTransfer, phase := phase } := by
  have hvars := s.runner.abandonTransfer_vars
  refine h.keeps ⟨fun v hv => hvars ▸ hv, fun v hv => hv.imp_left (hvars ▸ ·)⟩ ?_
    (fun source hsource => ?_) rfl
  all_goals rcases s.runner.abandonTransfer_cases with ⟨hpre, -, hnone⟩ | ⟨hnode, hpre⟩
  · exact .inr hpre
  · exact .inl hnode
  · exact absurd (hnone ▸ hsource) nofun
  · exact hpre ▸ hsource

omit [Runtime] in
/-- An extraction that is done has its values known. -/
theorem Sound.extracted [DecidableEq H] (h : Sound nodes edges known s) {item : Config.Node × H}
    {values : Dict String Json} (hvalues : Yields item.1 values) :
    Sound nodes edges known { s with
      runner := s.runner.updateVariables values
      extractor := s.extractor.onTaskDone item } := by
  have hkeep (v : String) (hv : hasValue (s.runner.vars.get? v)) :
      hasValue ((s.runner.updateVariables values).vars.get? v) :=
    hasValue_updateVariables hvalues.2 (.inl hv)
  refine h.keeps ⟨hkeep, fun v hv => ?_⟩ (.inl rfl) (fun source => id) rfl
  rcases hv with hv | hv
  · exact .inl (hkeep v hv)
  · have hdone : v ∈ item.1.declares ∨ (s.extractor.onTaskDone item).Outstanding v := hv.onTaskDone
    refine hdone.imp (fun hdeclared => ?_) id
    exact hasValue_updateVariables hvalues.2 (.inr (hvalues.1 v hdeclared))

theorem Sound.step [DecidableEq H] (hv : Valid nodes edges)
    (hw : NoTemplateProblem (buildGraph nodes edges) known) (h : Sound nodes edges known s)
    (hready : s.AllReady (buildGraph nodes edges) e)
    (hs : s.step (buildGraph nodes edges) e = some s') : Sound nodes edges known s' := by
  -- The steps that only move extractions between the queue and the tasks.
  have hmoved {t : Handler H} (hnode : t.runner.node = s.runner.node)
      (hvars : t.runner.vars = s.runner.vars)
      (hsource : t.runner.preTransferNode = s.runner.preTransferNode)
      (hrendered : t.rendered = s.rendered)
      (hout : ∀ v, s.extractor.Outstanding v → t.extractor.Outstanding v) :
      Sound nodes edges known t :=
    h.keeps ⟨fun v hv => hvars ▸ hv, fun v hv => hv.imp (hvars ▸ ·) (hout v)⟩ (.inl hnode)
      (fun source => (hsource ▸ ·)) hrendered
  have hinterrupted {order : List (Config.Node × H)} (hperm : order.Perm s.extractor.inflight)
      (v : String) :
      s.extractor.Outstanding v → (s.extractor.interruptForLiveTurn order).Outstanding v :=
    (VariableExtractor.outstanding_interruptForLiveTurn_iff hperm).2
  have hstarted (v : String) :
      s.extractor.Outstanding v → s.extractor.startDeferred.Outstanding v :=
    VariableExtractor.outstanding_startDeferred_iff.2
  cases e with
  | greeting =>
    obtain ⟨start, hstart, rfl⟩ := Option.map_eq_some_iff.1 hs
    exact h.greeting hv hw hstart
  | speechEnded order =>
    obtain ⟨hperm, hs⟩ := Option.ite_none_right_eq_some.1 hs
    exact Option.some.inj hs ▸ hmoved rfl rfl rfl rfl (hinterrupted hperm)
  | turn =>
    obtain ⟨-, hs⟩ := Option.ite_none_right_eq_some.1 hs
    have hbegun : Sound nodes edges known { s with phase := .turn } :=
      hmoved rfl rfl rfl rfl fun v => id
    exact Option.some.inj hs ▸ hbegun.renderPrompt hv hw hready
  | transition edge store =>
    obtain ⟨⟨-, he⟩, hs⟩ := Option.ite_none_right_eq_some.1 hs
    exact h.transition hv hw he hready hs
  | respond =>
    obtain ⟨-, hs⟩ := Option.ite_none_right_eq_some.1 hs
    exact Option.some.inj hs ▸ hmoved rfl rfl rfl rfl hstarted
  | cancel order =>
    obtain ⟨hperm, hs⟩ := Option.ite_none_right_eq_some.1 hs
    exact Option.some.inj hs ▸ hmoved rfl rfl rfl rfl (hinterrupted hperm)
  | workflowTransfer =>
    obtain ⟨-, -, rfl⟩ := Option.map_eq_some_iff.1 hs
    exact hmoved rfl rfl rfl rfl hstarted
  | abandonTransfer => exact Option.some.inj hs ▸ h.abandonTransfer s.phase
  | transferFailed =>
    obtain ⟨-, hs⟩ := Option.ite_none_right_eq_some.1 hs
    refine Option.some.inj hs ▸ (h.abandonTransfer .recovery).renderPrompt hv hw ?_
    exact fun v hvt hout => s.runner.abandonTransfer_vars ▸ hready v hvt hout
  | recovered =>
    obtain ⟨-, hs⟩ := Option.ite_none_right_eq_some.1 hs
    exact Option.some.inj hs ▸ hmoved rfl rfl rfl rfl fun v => id
  | extracted item values =>
    obtain ⟨⟨-, hvalues⟩, hs⟩ := Option.ite_none_right_eq_some.1 hs
    exact Option.some.inj hs ▸ h.extracted hvalues

/-- The calls on an accepted graph without template problems leave nothing blank, as long as
    each text is ready when it is rendered. -/
theorem reachable_filled (H : Type*) [DecidableEq H] {raw : Json} {g : Config.WorkflowGraph}
    (hg : parseGraph raw = .ok g) {known : Finset String} (hw : NoTemplateProblem g known)
    {vars : Dict String Json}
    (hvars : ∀ v ∈ callContextVariables ∪ known, hasValue (vars.get? v)) :
    ∃ start, g.node? g.startNodeId = some start ∧
      ∀ s, (calls H g start vars).ReachableIf (Handler.AllReady g) s →
        ∀ r ∈ s.rendered, r.Filled := by
  obtain ⟨-, -, -, nodes, edges, -, -, -, -, -, hv, rfl⟩ := parseGraph_eq_ok_iff.1 hg
  obtain ⟨start, hstart, hstep, hid⟩ := exists_start hv
  refine ⟨start, hstart, fun s hs => ?_⟩
  have h : Sound nodes edges known s := by
    refine System.ReachableIf.invariant ?_ (fun s e s' h hready hs => h.step hv hw hready hs) hs
    exact ⟨⟨hstep, [], hid ▸ .nil, nofun⟩, nofun, hvars, nofun⟩
  exact h.filled

/-- A flow that asks for the name of the caller, helps if that is wanted, and thanks the caller
    by the name. -/
private def thanksDocument : Json := .obj
  [("nodes", .arr
    [.obj [("id", .str "ask"), ("type", .str "start"), ("data", .obj
      [("name", .str "Ask"), ("prompt", .str "Ask \x7b\x7b caller_number \x7d\x7d for a name."),
        ("extraction", .obj
          [("enabled", .bool true), ("variables", .arr [.obj [("name", .str "name")]])])])],
      .obj [("id", .str "help"), ("type", .str "agent"), ("data", .obj [("name", .str "Help")])],
      .obj [("id", .str "bye"), ("type", .str "end"), ("data", .obj [("name", .str "Bye")])]]),
  ("edges", .arr
    [.obj [("source", .str "ask"), ("target", .str "bye"), ("data", .obj
      [("label", .str "bye"), ("condition", .str "when the caller has given a name"),
        ("transition_speech", .str "Thank you, \x7b\x7b name \x7d\x7d.")])],
      .obj [("source", .str "ask"), ("target", .str "help"), ("data", .obj
        [("label", .str "help"), ("condition", .str "when the caller asks for help")])],
      .obj [("source", .str "help"), ("target", .str "bye"), ("data", .obj
        [("label", .str "bye"), ("condition", .str "when the caller has been helped"),
          ("transition_speech", .str "Thank you, \x7b\x7b name \x7d\x7d.")])]])]

private def thanksEdge : Config.Edge :=
  ⟨"", "ask", "bye", "bye", "when the caller has given a name",
    some "Thank you, \x7b\x7b name \x7d\x7d."⟩

private def helpEdge : Config.Edge :=
  ⟨"", "ask", "help", "help", "when the caller asks for help", none⟩

private def helpedEdge : Config.Edge :=
  ⟨"", "help", "bye", "bye", "when the caller has been helped",
    some "Thank you, \x7b\x7b name \x7d\x7d."⟩

private def thanksStart : Config.Node where
  id := "ask"
  type := "start"
  name := "Ask"
  prompt := "Ask \x7b\x7b caller_number \x7d\x7d for a name."
  extraction := some { enabled := true, vars := [{ name := "name" }] }
  outEdges := [thanksEdge, helpEdge]

private def thanksGraph : Config.WorkflowGraph where
  nodes := [("ask", thanksStart),
    ("help", { id := "help", type := "agent", name := "Help", outEdges := [helpedEdge] }),
    ("bye", { id := "bye", type := "end", name := "Bye" })]
  startNodeId := "ask"

private def contextVars : Dict String Json :=
  [("caller_number", .str "100"), ("called_number", .str "200"), ("direction", .str "inbound"),
    ("agent_name", .str "Ada"), ("business_name", .str "Clinic"),
    ("current_date", .str "2026-01-01"), ("current_time", .str "09:00")]

omit [Runtime] in
private theorem parseGraph_thanksDocument :
    @parseGraph .ascii thanksDocument = .ok thanksGraph := (rfl)

omit [Runtime] in
private theorem noTemplateProblem_thanksGraph : @NoTemplateProblem .ascii thanksGraph ∅ := by
  show ∀ w ∈ @graphWarnings .ascii thanksGraph ∅, w.field = none
  decide

omit [Runtime] in
private theorem hasValue_contextVars :
    ∀ v ∈ callContextVariables ∪ ∅, hasValue (contextVars.get? v) := by
  decide

/-- The caller is helped, and meanwhile the name is extracted. -/
private def helped : Option (Handler Unit) :=
  (@calls .ascii Unit _ thanksGraph thanksStart contextVars).execIf
    (Handler.AllReady thanksGraph) { runner := .init thanksStart contextVars }
    [.greeting, .speechEnded [], .turn, .transition helpEdge (), .respond,
      .extracted (thanksStart, ()) [("name", .str "Grace")], .speechEnded [], .turn,
      .transition helpedEdge ()]

omit [Runtime] in
private theorem helped_isSome : helped.isSome := by decide

omit [Runtime] in
theorem reachable_filled_thanks :
    ∃ s, (@calls .ascii Unit _ thanksGraph thanksStart contextVars).ReachableIf
        (Handler.AllReady thanksGraph) s ∧
      "Thank you, \x7b\x7b name \x7d\x7d." ∈ s.rendered.map Rendering.text ∧
      ∀ r ∈ s.rendered, r.Filled := by
  obtain ⟨start, hstart, hfilled⟩ := @reachable_filled .ascii Unit _ _ _ parseGraph_thanksDocument _
    noTemplateProblem_thanksGraph _ hasValue_contextVars
  obtain rfl : thanksStart = start := Option.some.inj hstart
  have hs := System.ReachableIf.execIf .init (Option.some_get helped_isSome).symm
  exact ⟨helped.get helped_isSome, hs, by decide, hfilled _ hs⟩

/-- The caller gives a name, and the model takes the edge in the same turn. -/
private def thanked : Option (Handler Unit) :=
  (@calls .ascii Unit _ thanksGraph thanksStart contextVars).exec
    { runner := .init thanksStart contextVars }
    [.greeting, .speechEnded [], .turn, .transition thanksEdge ()]

omit [Runtime] in
private theorem thanked_isSome : thanked.isSome := by decide

omit [Runtime] in
/-- The extraction that is to yield the name is queued when the line is spoken. -/
theorem not_reachable_filled : ¬ ∀ (raw : Json) (g : Config.WorkflowGraph),
    @parseGraph .ascii raw = .ok g → ∀ known, @NoTemplateProblem .ascii g known →
      ∀ vars : Dict String Json,
        (∀ v ∈ callContextVariables ∪ known, hasValue (vars.get? v)) →
        ∀ start, g.node? g.startNodeId = some start →
          ∀ s, (@calls .ascii Unit _ g start vars).Reachable s → ∀ r ∈ s.rendered, r.Filled := by
  intro h
  have hs : (@calls .ascii Unit _ thanksGraph thanksStart contextVars).Reachable
      (thanked.get thanked_isSome) :=
    System.Reachable.exec .init (Option.some_get thanked_isSome).symm
  exact absurd (h _ _ parseGraph_thanksDocument _ noTemplateProblem_thanksGraph _
    hasValue_contextVars thanksStart rfl _ hs) (by decide)

end Yuviz.Conversation.Workflow
