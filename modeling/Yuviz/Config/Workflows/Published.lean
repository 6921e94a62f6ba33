import Mathlib
import Yuviz.Config.Workflows.Mirror

/-!
# What is live, and what is kept of it

The live graph of an agent is there three times: in its row, in the two columns taken
from it, and in the newest version. The three agree in every run whose graphs are kept
by the database and hold plain texts (`published_consistent`): equivalent graphs have
the same texts then, so that one that is published over an equivalent one leaves the
columns as they have to be.
-/

namespace Yuviz.Config.Workflows

open Python

variable {x y : Json} {a b c d d' graph graph' fields : Dict String Json}
  {nds nds' : List (Dict String Json)} {prompts : Option String × Option String} {t u : String}

/-! ### Plain texts -/

/-- A string, or none. -/
def IsText : Json → Prop
  | .null | .str _ => True
  | _ => False

instance : DecidablePred IsText
  | .null | .str _ => .isTrue trivial
  | .bool _ | .int _ | .float _ _ | .arr _ | .obj _ => .isFalse id

/-- The texts of a node a call begins with are texts. -/
def PlainNode (d : Dict String Json) : Prop :=
  IsText (Json.get (dataObject d) "greeting") ∧ IsText (Json.get (dataObject d) "prompt")

instance : DecidablePred PlainNode := fun _ => inferInstanceAs (Decidable (_ ∧ _))

def Plain (graph : Dict String Json) : Prop :=
  ∀ d ∈ (objects (Json.get graph "nodes")).getD [], PlainNode d

instance : DecidablePred Plain := fun _ => inferInstanceAs (Decidable (∀ d ∈ _, PlainNode d))

/-- Equal texts are the same. -/
theorem IsText.eq_of_eq (hx : IsText x) (h : x.eq y = true) : y = x := by
  cases x with
  | null => cases y <;> simp_all [Json.eq, Json.number]
  | str s => exact Json.str_eq_iff.1 h
  | _ => cases hx

theorem isType_of_eq (h : (Json.obj d).eq (.obj d') = true) : isType d t ↔ isType d' t := by
  have htype := Json.get_eq h "type"
  rw [isType_iff, isType_iff]
  constructor
  · intro ht
    rw [ht] at htype
    exact Json.str_eq_iff.1 htype
  · intro ht
    rw [ht] at htype
    exact Json.eq_str_iff.1 htype

/-- A node that equals a plain one has its texts. -/
theorem PlainNode.get_eq (h : PlainNode d) (heq : (Json.obj d).eq (.obj d') = true) :
    Json.get (dataObject d') "greeting" = Json.get (dataObject d) "greeting" ∧
      Json.get (dataObject d') "prompt" = Json.get (dataObject d) "prompt" :=
  ⟨h.1.eq_of_eq (Json.get_eq (eq_dataObject heq) _),
    h.2.eq_of_eq (Json.get_eq (eq_dataObject heq) _)⟩

/-- What is equal to a plain node is plain. -/
theorem PlainNode.of_eq (h : PlainNode d) (heq : (Json.obj d).eq (.obj d') = true) :
    PlainNode d' := by
  obtain ⟨hgreeting, hprompt⟩ := h.get_eq heq
  rw [PlainNode, hgreeting, hprompt]
  exact h

section

variable [Runtime]

/-- The texts of the nodes, where no two nodes of a type have different ones. -/
theorem foldl_readPrompts_eq
    (hs : ∀ d ∈ nds, isType d "start" → coercePrompt (Json.get (dataObject d) "greeting") = t)
    (hg : ∀ d ∈ nds, isType d "global" → coercePrompt (Json.get (dataObject d) "prompt") = u) :
    nds.foldl readPrompts prompts =
      (if nds.any (isType · "start") then some t else prompts.1,
        if nds.any (isType · "global") then some u else prompts.2) := by
  induction nds generalizing prompts with
  | nil => rfl
  | cons d nds ih =>
    rw [List.forall_mem_cons] at hs hg
    have hne : isType d "start" → ¬ isType d "global" := by
      rw [isType_iff, isType_iff]
      intro h h'
      exact absurd (Json.str.inj (h.symm.trans h')) (by decide)
    rw [List.foldl_cons, ih hs.2 hg.2, List.any_cons, List.any_cons, readPrompts]
    by_cases h : isType d "start"
    · simp [h, hne h, hs.1 h]
    · by_cases h' : isType d "global"
      · simp [h, h', hg.1 h']
      · simp [h, h']

theorem length_filter_le {p : Dict String Json → Bool} {q : Node → Bool} {ns : List Node}
    (hpq : ∀ d n, nodeFromRaw d = .ok n → p d → q n)
    (h : List.Forall₂ (fun d n => nodeFromRaw d = .ok n) nds ns) :
    (nds.filter p).length ≤ (ns.filter q).length := by
  induction h with
  | nil => exact le_rfl
  | @cons d n nds ns hread _ ih =>
    rw [List.filter_cons, List.filter_cons]
    by_cases hp : p d
    · rw [if_pos hp, if_pos (hpq d n hread hp)]
      exact Nat.succ_le_succ ih
    · rw [if_neg hp]
      split_ifs
      · exact ih.trans (Nat.le_succ _)
      · exact ih

theorem type_of_isType {n : Node} (h : nodeFromRaw d = .ok n) (ht : isType d t) (hne : t ≠ "") :
    n.type = t := by
  obtain ⟨delay, -, rfl⟩ := nodeFromRaw_eq_ok_iff.1 h
  change (Json.get d "type").strOr "" = t
  rw [isType_iff.1 ht]
  simp [Json.strOr, Json.truthy, Json.toStr, hne]

/-- An accepted graph has one first step, and at most one always-on instruction. -/
theorem eq_of_isType {g : WorkflowGraph} (hg : parseGraph (.obj a) = .ok g)
    (hn : objects (Json.get a "nodes") = some nds) (ht : t = "start" ∨ t = "global") (hd : d ∈ nds)
    (hd' : d' ∈ nds) (h : isType d t) (h' : isType d' t) : d = d' := by
  obtain ⟨nds₁, eds, hn₁, he⟩ := objects_of_parseGraph hg
  obtain rfl := Option.some.inj (hn.symm.trans hn₁)
  obtain ⟨ns, hns, hvalid, -⟩ := (parseGraph_obj_eq_ok_iff hn he).1 hg
  have hle : (nds.filter (isType · t)).length ≤ 1 := by
    obtain rfl | rfl := ht
    · refine (length_filter_le (q := fun n => n.type = "start") ?_ hns).trans hvalid.start.le
      intro d n hread hp
      exact decide_eq_true (type_of_isType hread hp (by decide))
    · refine (length_filter_le (q := Node.isUnwired) ?_ hns).trans hvalid.global
      intro d n hread hp
      rw [Node.isUnwired, type_of_isType hread hp (by decide)]
      decide
  have hmem : d ∈ nds.filter (isType · t) := List.mem_filter.2 ⟨hd, h⟩
  have hmem' : d' ∈ nds.filter (isType · t) := List.mem_filter.2 ⟨hd', h'⟩
  rcases hfilter : nds.filter (isType · t) with _ | ⟨e, rest⟩
  · rw [hfilter] at hmem
    cases hmem
  · rw [hfilter] at hle hmem hmem'
    obtain rfl : rest = [] := by simpa using hle
    rw [List.mem_singleton] at hmem hmem'
    rw [hmem, hmem']

theorem exists_text {g : WorkflowGraph} (hg : parseGraph (.obj a) = .ok g)
    (hn : objects (Json.get a "nodes") = some nds) (ht : t = "start" ∨ t = "global")
    (text : Dict String Json → String) : ∃ u, ∀ d ∈ nds, isType d t → text d = u := by
  by_cases h : ∃ d ∈ nds, isType d t
  · obtain ⟨d, hd, hdt⟩ := h
    exact ⟨text d, fun d' hd' hdt' => congrArg text (eq_of_isType hg hn ht hd' hd hdt' hdt)⟩
  · exact ⟨"", fun d hd hdt => absurd ⟨d, hd, hdt⟩ h⟩

/-! ### Equivalent graphs -/

/-- Every node of two equivalent graphs equals one of the other, but for its chrome. -/
theorem exists_eq_of_equivalent (h : graphsEquivalent (some a) (some b) = some true) :
    ∃ nds nds', objects (Json.get a "nodes") = some nds ∧ objects (Json.get b "nodes") = some nds' ∧
      (∀ d ∈ nds, ∃ d' ∈ nds',
        (Json.obj (pick rfNodeLogic d)).eq (.obj (pick rfNodeLogic d')) = true) ∧
      ∀ d' ∈ nds', ∃ d ∈ nds,
        (Json.obj (pick rfNodeLogic d)).eq (.obj (pick rfNodeLogic d')) = true := by
  simp only [graphsEquivalent, logicView, bind, Option.bind_eq_some_iff, Option.some.injEq] at h
  obtain ⟨viewA, ⟨nds, hn, eds, he, rfl⟩, viewB, ⟨nds', hn', eds', he', rfl⟩, heq⟩ := h
  have hnodes : Json.eq (.arr ((sortById (nds.map (pick rfNodeLogic))).map .obj))
      (.arr ((sortById (nds'.map (pick rfNodeLogic))).map .obj)) = true := Json.get_eq heq "nodes"
  have hmem {ds : List (Dict String Json)} {d : Dict String Json} :
      d ∈ sortById (ds.map (pick rfNodeLogic)) ↔ ∃ e ∈ ds, pick rfNodeLogic e = d := by
    rw [sortById, List.mem_insertionSort, List.mem_map]
  rw [Json.eq, Json.eqItems_iff, List.forall₂_map_left_iff, List.forall₂_map_right_iff,
    List.forall₂_iff_get] at hnodes
  obtain ⟨hlength, hget⟩ := hnodes
  refine ⟨nds, nds', hn, hn', fun d hd => ?_, fun d' hd' => ?_⟩
  · obtain ⟨i, hi, hpick⟩ := List.getElem_of_mem (hmem.2 ⟨d, hd, rfl⟩)
    obtain ⟨d', hd', hpick'⟩ := hmem.1 (List.getElem_mem (hlength ▸ hi))
    refine ⟨d', hd', ?_⟩
    rw [hpick', ← hpick]
    exact hget i hi (hlength ▸ hi)
  · obtain ⟨i, hi, hpick⟩ := List.getElem_of_mem (hmem.2 ⟨d', hd', rfl⟩)
    obtain ⟨d, hd, hpick'⟩ := hmem.1 (List.getElem_mem (hlength ▸ hi))
    refine ⟨d, hd, ?_⟩
    rw [hpick', ← hpick]
    exact hget i (hlength ▸ hi) hi

omit [Runtime] in
theorem isType_pick : isType (pick rfNodeLogic d) t = isType d t := by
  rw [isType, isType, get_pick (by decide)]

omit [Runtime] in
theorem plainNode_pick : PlainNode (pick rfNodeLogic d) ↔ PlainNode d := by
  rw [PlainNode, PlainNode, dataObject_pick (by decide)]

/-- A graph that is equivalent to an accepted one with plain texts begins a call with the same. -/
theorem columnPrompts_of_equivalent {g : WorkflowGraph} (hg : parseGraph (.obj a) = .ok g)
    (hplain : Plain a) (h : graphsEquivalent (some a) (some b) = some true) :
    Plain b ∧ columnPrompts b = columnPrompts a := by
  obtain ⟨nds, nds', hn, hn', hright, hleft⟩ := exists_eq_of_equivalent h
  rw [Plain, hn, Option.getD_some] at hplain
  have htype {d d' : Dict String Json} {t : String}
      (heq : (Json.obj (pick rfNodeLogic d)).eq (.obj (pick rfNodeLogic d')) = true) :
      isType d t ↔ isType d' t := by
    have := isType_of_eq (t := t) heq
    rwa [isType_pick, isType_pick] at this
  have hget {d d' : Dict String Json} (hd : d ∈ nds)
      (heq : (Json.obj (pick rfNodeLogic d)).eq (.obj (pick rfNodeLogic d')) = true) :
      Json.get (dataObject d') "greeting" = Json.get (dataObject d) "greeting" ∧
        Json.get (dataObject d') "prompt" = Json.get (dataObject d) "prompt" := by
    have := (plainNode_pick.2 (hplain d hd)).get_eq heq
    rwa [dataObject_pick (by decide), dataObject_pick (by decide)] at this
  have hany (t : String) : nds'.any (isType · t) = nds.any (isType · t) := by
    rw [Bool.eq_iff_iff, List.any_eq_true, List.any_eq_true]
    constructor
    · rintro ⟨d', hd', ht⟩
      obtain ⟨d, hd, heq⟩ := hleft d' hd'
      exact ⟨d, hd, (htype heq).2 ht⟩
    · rintro ⟨d, hd, ht⟩
      obtain ⟨d', hd', heq⟩ := hright d hd
      exact ⟨d', hd', (htype heq).1 ht⟩
  obtain ⟨t, ht⟩ := exists_text hg hn (.inl rfl)
    fun d => coercePrompt (Json.get (dataObject d) "greeting")
  obtain ⟨u, hu⟩ := exists_text hg hn (.inr rfl)
    fun d => coercePrompt (Json.get (dataObject d) "prompt")
  constructor
  · rw [Plain, hn', Option.getD_some]
    intro d' hd'
    obtain ⟨d, hd, heq⟩ := hleft d' hd'
    exact plainNode_pick.1 ((plainNode_pick.2 (hplain d hd)).of_eq heq)
  · have ht' : ∀ d' ∈ nds', isType d' "start" →
        coercePrompt (Json.get (dataObject d') "greeting") = t := by
      intro d' hd' hstart
      obtain ⟨d, hd, heq⟩ := hleft d' hd'
      rw [(hget hd heq).1]
      exact ht d hd ((htype heq).2 hstart)
    have hu' : ∀ d' ∈ nds', isType d' "global" →
        coercePrompt (Json.get (dataObject d') "prompt") = u := by
      intro d' hd' hglobal
      obtain ⟨d, hd, heq⟩ := hleft d' hd'
      rw [(hget hd heq).2]
      exact hu d hd ((htype heq).2 hglobal)
    rw [columnPrompts, columnPrompts, promptsFromGraph, promptsFromGraph, hn, hn', Option.getD_some,
      Option.getD_some, foldl_readPrompts_eq ht hu, foldl_readPrompts_eq ht' hu', hany, hany]

/-- What is equivalent to a graph that is so to itself has it equivalent, too. -/
theorem graphsEquivalent_symm (hself : graphsEquivalent (some b) (some b) = some true)
    (h : graphsEquivalent (some a) (some b) = some true) :
    graphsEquivalent (some b) (some a) = some true := by
  simp only [graphsEquivalent, bind, Option.bind_eq_some_iff, Option.some.injEq] at *
  obtain ⟨viewA, ha, viewB, hb, hab⟩ := h
  obtain ⟨viewB', hb', viewB'', hb'', hbb⟩ := hself
  obtain rfl := Option.some.inj (hb.symm.trans hb')
  obtain rfl := Option.some.inj (hb.symm.trans hb'')
  exact ⟨viewB, hb, viewA, ha, Json.eq_symm hbb hab⟩

/-! ### The live graph and its copies -/

/-- The graph is live: it is accepted, its texts are in the columns, and the newest version is
    equivalent to it and has the same texts. -/
structure Live (versions : List Version) (agent : Agent) (graph : Dict String Json) : Prop where
  workflow : agent.workflow = some graph
  parses : ∃ g, parseGraph (.obj graph) = .ok g
  columns : (agent.greeting, agent.systemPrompt) = columnPrompts graph
  newest : ∃ v ∈ versions.getLast?, graphsEquivalent (some v.graph) (some graph) = some true ∧
    columnPrompts v.graph = columnPrompts graph

structure Consistent (s : Rows) : Prop where
  live : ∀ agent ∈ s.agent, ∃ graph, Live s.versions agent graph
  increasing : s.versions.Pairwise (·.version < ·.version)

/-- What is read back of a graph is equivalent to it, and has the same texts. -/
structure Keeps (graph graph' : Dict String Json) : Prop where
  equivalent : graphsEquivalent (some graph) (some graph') = some true
  texts : SameTexts graph graph'

theorem Keeps.parses {g : WorkflowGraph} (h : Keeps graph graph')
    (hg : parseGraph (.obj graph) = .ok g) : ∃ g', parseGraph (.obj graph') = .ok g' := by
  obtain ⟨g', hg', -⟩ := (graphsEquivalent_sound_iff h.equivalent hg).2 h.texts
  exact ⟨g', hg'⟩

omit [Runtime] in
/-- No version is newer than the newest, -/
theorem le_maxVersion {versions : List Version} {v : Version} (h : v ∈ versions) :
    v.version ≤ maxVersion versions := by
  induction versions with
  | nil => cases h
  | cons w versions ih =>
    rw [maxVersion, List.map_cons, List.foldr_cons]
    rcases List.mem_cons.1 h with rfl | h
    · exact le_max_left _ _
    · exact (ih h).trans (le_max_right _ _)

omit [Runtime] in
/-- and one that is appended is newer than all. -/
theorem pairwise_appendVersion {versions : List Version} {note : Option String}
    (h : versions.Pairwise (·.version < ·.version)) :
    (appendVersion versions graph note).Pairwise (·.version < ·.version) := by
  rw [appendVersion, List.pairwise_append]
  refine ⟨h, List.pairwise_singleton _ _, fun v hv w hw => ?_⟩
  rw [List.mem_singleton.1 hw]
  exact Nat.lt_succ_of_le (le_maxVersion hv)

omit [Runtime] in
theorem forall_mem_appendVersion {P : Version → Prop} {versions : List Version}
    {note : Option String} (h : ∀ v ∈ versions, P v)
    (hg : P ⟨maxVersion versions + 1, graph, note⟩) :
    ∀ v ∈ appendVersion versions graph note, P v := by
  intro v hv
  rcases List.mem_append.1 hv with hv | hv
  · exact h v hv
  · exact List.mem_singleton.1 hv ▸ hg

variable [Jsonb]

/-- `Consistent`, with what every graph that is kept has. -/
structure Inv (s : Rows) : Prop where
  live : ∀ agent ∈ s.agent, ∃ graph, Live s.versions agent graph ∧ Loaded graph ∧ Plain graph
  draft : ∀ agent ∈ s.agent, ∀ draft ∈ agent.workflowDraft, Loaded draft
  versions : ∀ v ∈ s.versions, Loaded v.graph ∧ Plain v.graph
  increasing : s.versions.Pairwise (·.version < ·.version)

theorem Inv.consistent {s : Rows} (h : Inv s) : Consistent s where
  live agent ha := by
    obtain ⟨graph, hlive, -⟩ := h.live agent ha
    exact ⟨graph, hlive⟩
  increasing := h.increasing

/-- If it is accepted, the graph has plain texts, and is kept. -/
def Proper (graph : Dict String Json) : Prop :=
  (parseGraph (.obj graph)).toOption.isSome →
    Plain graph ∧ ∀ graph' ∈ (stored graph).toOption, Keeps graph graph'

theorem Proper.of_parseGraph {g : WorkflowGraph} (h : Proper graph)
    (hg : parseGraph (.obj graph) = .ok g) (hst : stored graph = .ok graph') :
    Plain graph ∧ Keeps graph graph' := by
  obtain ⟨hplain, hkeeps⟩ := h (by rw [hg]; rfl)
  exact ⟨hplain, hkeeps graph' (by rw [hst]; rfl)⟩

variable [LawfulJsonb]

theorem graphsEquivalent_of_loaded {g : WorkflowGraph} (h : Loaded graph)
    (hg : parseGraph (.obj graph) = .ok g) :
    graphsEquivalent (some graph) (some graph) = some true := by
  obtain ⟨nds, eds, hn, he⟩ := objects_of_parseGraph hg
  exact graphsEquivalent_self h.eq_self hn he

omit [Runtime] [LawfulJsonb] in
/-- A graph that was loaded is stored as it is. -/
theorem stored_of_loaded (h : Loaded graph) (hst : stored graph = .ok graph') : graph' = graph := by
  rw [stored_eq_ok_iff.2 h] at hst
  exact (Except.ok.inj hst).symm

/-- A graph that has been read back is kept. -/
theorem keeps_of_loaded {g : WorkflowGraph} (h : Loaded graph)
    (hg : parseGraph (.obj graph) = .ok g) (hst : stored graph = .ok graph') :
    Keeps graph graph' := by
  obtain rfl := stored_of_loaded h hst
  exact ⟨graphsEquivalent_of_loaded h hg, .refl _, .refl _⟩

/-- What becomes of the rows when a graph is made live, and a version of it. -/
theorem inv_of_appended {versions : List Version} {agent : Agent} {note : Option String}
    {g : WorkflowGraph} (hversions : ∀ v ∈ versions, Loaded v.graph ∧ Plain v.graph)
    (hincreasing : versions.Pairwise (·.version < ·.version))
    (hworkflow : agent.workflow = some graph)
    (hdraft : ∀ draft ∈ agent.workflowDraft, Loaded draft) (hloaded : Loaded graph)
    (hplain : Plain graph) (hg : parseGraph (.obj graph) = .ok g)
    (hcolumns : (agent.greeting, agent.systemPrompt) = columnPrompts graph) :
    Inv { agent := some agent, versions := appendVersion versions graph note } where
  live := by
    rintro _ ⟨⟩
    refine ⟨graph, ⟨hworkflow, ⟨g, hg⟩, hcolumns, ⟨maxVersion versions + 1, graph, note⟩, ?_, ?_⟩,
      hloaded, hplain⟩
    · exact List.getLast?_concat
    · exact ⟨graphsEquivalent_of_loaded hloaded hg, rfl⟩
  draft := by
    rintro _ ⟨⟩
    exact hdraft
  versions := forall_mem_appendVersion hversions ⟨hloaded, hplain⟩
  increasing := pairwise_appendVersion hincreasing

/-! ### The requests -/

variable {ref : AgentRef} {s s' : Rows} {answer : Answer} {agent old : Agent}

omit [Jsonb] [LawfulJsonb] in
theorem validate_eq_ok {warnings : List WorkflowError} (h : validate graph = .ok warnings) :
    ∃ g, parseGraph (.obj graph) = .ok g := by
  rw [validate.eq_def] at h
  split at h
  · exact ⟨_, ‹_›⟩
  · cases h
  · cases h

omit [Jsonb] [LawfulJsonb] in
theorem lockedAgent_eq_ok_iff : lockedAgent ref s = .ok agent ↔ s.agent = some agent := by
  rw [lockedAgent]
  rcases s.agent with _ | agent' <;> simp

/-- An agent is created with its first version, -/
theorem createAgent_inv {greeting systemPrompt : String} {workflow : Option (Dict String Json)}
    {columns : Dict String Json} (hs : Inv s)
    (hproper : Proper (initialGraph greeting systemPrompt workflow))
    (h : createAgent greeting systemPrompt workflow columns s = .ok (s', answer)) : Inv s' := by
  rw [createAgent] at h
  obtain ⟨warnings, hvalid, h⟩ := bind_eq_ok h
  obtain ⟨graph, hstored, h⟩ := bind_eq_ok h
  obtain ⟨g, hg⟩ := validate_eq_ok hvalid
  split_ifs at h
  obtain ⟨rfl, -⟩ := Prod.mk.inj (Except.ok.inj h)
  obtain ⟨hplain, hkeep⟩ := hproper.of_parseGraph hg hstored
  obtain ⟨hplain', hcolumns⟩ := columnPrompts_of_equivalent hg hplain hkeep.equivalent
  obtain ⟨g', hg'⟩ := hkeep.parses hg
  have hloaded := loaded_of_stored hstored
  refine inv_of_appended hs.versions hs.increasing rfl ?_ hloaded hplain' hg' hcolumns.symm
  rintro _ ⟨⟩
  exact hloaded

/-- a draft changes neither the live graph nor the versions, -/
theorem saveDraft_inv {base : Option ℕ} (hs : Inv s)
    (h : saveDraft ref graph base s = .ok (s', answer)) : Inv s' := by
  rw [saveDraft] at h
  obtain ⟨draft, hstored, h⟩ := bind_eq_ok h
  obtain ⟨old, hagent, h⟩ := bind_eq_ok h
  split_ifs at h
  obtain ⟨rfl, -⟩ := Prod.mk.inj (Except.ok.inj h)
  refine ⟨?_, ?_, hs.versions, hs.increasing⟩
  · rintro _ ⟨⟩
    obtain ⟨graph, hlive, hgraph⟩ := hs.live old (lockedAgent_eq_ok_iff.1 hagent)
    exact ⟨graph, ⟨hlive.workflow, hlive.parses, hlive.columns, hlive.newest⟩, hgraph⟩
  · rintro _ ⟨⟩ _ ⟨⟩
    exact loaded_of_stored hstored

omit [LawfulJsonb] in
/-- What is published is accepted, and stored; an equivalent one only replaces what is live. -/
theorem publish_eq_ok {given : Option (Dict String Json)} {note : Option String}
    (h : publish ref given note s = .ok (s', answer)) :
    ∃ c g old isLive payload new, candidate ref given s = .ok c ∧ parseGraph (.obj c) = .ok g ∧
      s.agent = some old ∧ graphsEquivalent (some c) old.workflow = some isLive ∧
      stored c = .ok payload ∧ new.workflow = some payload ∧ new.workflowDraft = some payload ∧
      (new.greeting, new.systemPrompt) =
        (if isLive then (old.greeting, old.systemPrompt) else columnPrompts c) ∧
      s' = ⟨some new, if isLive then s.versions else appendVersion s.versions payload note⟩ := by
  rw [publish] at h
  obtain ⟨c, hc, h⟩ := bind_eq_ok h
  obtain ⟨warnings, hvalid, h⟩ := bind_eq_ok h
  obtain ⟨g, hg⟩ := validate_eq_ok hvalid
  obtain ⟨old, hagent, h⟩ := bind_eq_ok h
  obtain ⟨c', hc', h⟩ := bind_eq_ok h
  obtain rfl := Except.ok.inj (hc.symm.trans hc')
  obtain ⟨warnings', -, h⟩ := bind_eq_ok h
  obtain ⟨isLive, hlive, h⟩ := bind_eq_ok h
  obtain ⟨payload, hpayload, h⟩ := bind_eq_ok h
  have hequivalent : graphsEquivalent (some c) old.workflow = some isLive := by
    rw [equivalent.eq_def] at hlive
    split at hlive
    · rename_i heq
      rw [heq, Except.ok.inj hlive]
    · cases hlive
  obtain ⟨rfl, -⟩ := Prod.mk.inj (Except.ok.inj h)
  refine ⟨c, g, old, isLive, payload, _, hc, hg, lockedAgent_eq_ok_iff.1 hagent, hequivalent,
    hpayload, rfl, rfl, ?_, rfl⟩
  cases isLive <;> rfl

/-- what is published is the live graph and the newest version, -/
theorem publish_inv {given : Option (Dict String Json)} {note : Option String} (hs : Inv s)
    (hproper : ∀ c g c', candidate ref given s = .ok c → parseGraph (.obj c) = .ok g →
      stored c = .ok c' → Plain c ∧ Keeps c c')
    (h : publish ref given note s = .ok (s', answer)) : Inv s' := by
  obtain ⟨c, g, old, isLive, payload, new, hc, hg, hagent, hequivalent, hpayload, hworkflow, hdraft,
    hcolumns, rfl⟩ := publish_eq_ok h
  obtain ⟨hplain, hkeep⟩ := hproper c g payload hc hg hpayload
  obtain ⟨hplain', htexts⟩ := columnPrompts_of_equivalent hg hplain hkeep.equivalent
  obtain ⟨g', hg'⟩ := hkeep.parses hg
  have hloaded := loaded_of_stored hpayload
  have hdrafts : ∀ draft ∈ new.workflowDraft, Loaded draft := by
    rw [hdraft]
    rintro _ ⟨⟩
    exact hloaded
  cases isLive with
  | false =>
    change Inv ⟨some new, appendVersion s.versions payload note⟩
    exact inv_of_appended hs.versions hs.increasing hworkflow hdrafts hloaded hplain' hg'
      (hcolumns.trans htexts.symm)
  | true =>
    obtain ⟨graph, hlive, hgraph, -⟩ := hs.live old hagent
    obtain ⟨v, hv, hnewest, hnewestTexts⟩ := hlive.newest
    obtain ⟨p, hp⟩ := hlive.parses
    rw [hlive.workflow] at hequivalent
    -- The columns are those of the graph that was live, to which this one is equivalent.
    have hsame := (columnPrompts_of_equivalent hg hplain hequivalent).2
    have hback := graphsEquivalent_symm (graphsEquivalent_of_loaded hgraph hp) hequivalent
    refine ⟨?_, ?_, hs.versions, hs.increasing⟩
    · rintro _ ⟨⟩
      refine ⟨payload, ⟨hworkflow, ⟨g', hg'⟩, ?_, v, hv, ?_⟩, hloaded, hplain'⟩
      · rw [hcolumns, if_pos rfl, hlive.columns, hsame, htexts]
      · exact ⟨graphsEquivalent_trans (graphsEquivalent_trans hnewest hback) hkeep.equivalent,
          hnewestTexts.trans (hsame.trans htexts.symm)⟩
    · rintro _ ⟨⟩
      exact hdrafts

/-- so is a version that is rolled back to, -/
theorem rollback_inv {version : ℕ} (hs : Inv s)
    (h : rollback ref version s = .ok (s', answer)) : Inv s' := by
  rw [rollback] at h
  split at h
  · rename_i v hfind
    obtain ⟨old, -, hv⟩ := Option.bind_eq_some_iff.1 hfind
    obtain ⟨hloaded, hplain⟩ := hs.versions v (List.mem_of_find?_eq_some hv)
    refine publish_inv hs (fun c g c' hc hg hst => ?_) h
    obtain rfl := Except.ok.inj hc
    exact ⟨hplain, keeps_of_loaded hloaded hg hst⟩
  · cases h

/-! ### Other texts in the live graph -/

omit [Jsonb] [LawfulJsonb] in
theorem Mirrors.plainNode (h : Mirrors fields d d') (hd : PlainNode d) : PlainNode d' := by
  obtain ⟨data, hdata, rfl⟩ := h
  have htext (k : String) (hk : IsText (Json.get data k)) :
      IsText (Json.get (mirrorData fields d data) k) := by
    obtain ⟨text, hstr⟩ | hsame := get_mirrorData fields d data k
    · rw [hstr]
      trivial
    · rwa [hsame]
  rw [PlainNode, dataObject_of_get hdata] at hd
  rw [PlainNode, dataObject_set]
  exact ⟨htext _ hd.1, htext _ hd.2⟩

omit [Runtime] [Jsonb] [LawfulJsonb] in
theorem SameReads.plainNode (h : SameReads d d') (hd : PlainNode d) : PlainNode d' := by
  rw [PlainNode, h.get_data, h.get_data]
  exact hd

omit [Jsonb] [LawfulJsonb] in
theorem forall_plainNode {nds'' : List (Dict String Json)}
    (h : List.Forall₂ (Mirrors fields) nds nds') (h' : List.Forall₂ SameReads nds' nds'')
    (hd : ∀ d ∈ nds, PlainNode d) :
    ∀ d ∈ nds'', PlainNode d := by
  induction h generalizing nds'' with
  | nil =>
    obtain rfl := List.forall₂_nil_left_iff.1 h'
    exact hd
  | cons h _ ih =>
    obtain ⟨d'', nds'', hread, hrest, rfl⟩ := List.forall₂_cons_left_iff.1 h'
    rw [List.forall_mem_cons] at hd ⊢
    exact ⟨hread.plainNode (h.plainNode hd.1), ih hrest hd.2⟩

theorem plain_mirror {g : WorkflowGraph} (hg : parseGraph (.obj graph) = .ok g)
    (hloaded : Loaded graph) (hplain : Plain graph)
    (hmirror : mirrorPromptsIntoGraph graph fields = .ok a)
    (hc : contains fields "greeting" ∨ contains fields "system_prompt")
    (hst : stored a = .ok graph') : Plain graph' := by
  obtain ⟨nds, nds', hn, hmirrors, rfl, -, -⟩ :=
    mirrorPromptsIntoGraph_eq_ok (objectData_of_parseGraph hg) hmirror hc
  obtain ⟨-, nds'', hn'', hreads⟩ := stored_mirror hloaded hn hmirrors hst
  rw [Plain, hn, Option.getD_some] at hplain
  rw [Plain, hn'', Option.getD_some]
  exact forall_plainNode hmirrors hreads hplain

/-- The live graph with the texts that are written: the texts of what is live then. -/
theorem synced_stored {g : WorkflowGraph} {o workflow : Option (Dict String Json)}
    (hg : parseGraph (.obj graph) = .ok g) (hloaded : Loaded graph) (hplain : Plain graph)
    (hc : contains fields "greeting" ∨ contains fields "system_prompt")
    (hsynced : synced graph fields = .ok o) (hst : storedOr o (some graph) = .ok workflow) :
    ∃ graph', workflow = some graph' ∧ Loaded graph' ∧ Plain graph' ∧
      (∃ g', parseGraph (.obj graph') = .ok g') ∧
      columnPrompts graph' = (overwrite fields "greeting" (columnPrompts graph).1,
        overwrite fields "system_prompt" (columnPrompts graph).2) ∧
      (o = none → graph' = graph) := by
  rw [synced] at hsynced
  rcases hmirror : mirrorPromptsIntoGraph graph fields with failure | a
  · rw [hmirror] at hsynced
    cases hsynced
  · rw [hmirror] at hsynced
    have htexts := columnPrompts_mirror (objectData_of_parseGraph hg) hmirror hc
    have ho : (if (Json.obj a).eq (.obj graph) = true then none else some a) = o :=
      Except.ok.inj hsynced
    by_cases heq : (Json.obj a).eq (.obj graph) = true
    · rw [if_pos heq] at ho
      subst ho
      obtain rfl := Except.ok.inj hst
      refine ⟨graph, rfl, hloaded, hplain, ⟨g, hg⟩, ?_, fun _ => rfl⟩
      exact (columnPrompts_of_eq hg hmirror hc heq).trans htexts
    · rw [if_neg heq] at ho
      subst ho
      rcases hstored : stored a with failure | graph'
      · rw [storedOr, hstored] at hst
        cases hst
      · rw [storedOr, hstored] at hst
        obtain rfl := Except.ok.inj hst
        obtain ⟨hparses, hcolumns⟩ := parseGraph_mirror hg hloaded hmirror hc hstored
        exact ⟨graph', rfl, loaded_of_stored hstored,
          plain_mirror hg hloaded hplain hmirror hc hstored, hparses, hcolumns.trans htexts,
          by simp⟩

omit [Jsonb] [LawfulJsonb] in
/-- A text column is written as the texts are mirrored. -/
theorem textColumn_coerceFields {key old : String} (hk : key = "greeting" ∨ key = "system_prompt") :
    textColumn (coerceFields fields) key old = overwrite (coerceFields fields) key old := by
  have hget : (coerceFields fields).get? key =
      (fields.get? key).map fun v => .str (coercePrompt v) := by
    rw [coerceFields, Dict.get?_mapItems]
    simp only [if_pos hk]
  have hmem : contains (coerceFields fields) key = (fields.get? key).isSome := by
    rw [contains, ← Bool.coe_iff_coe, decide_eq_true_eq, ← Dict.isSome_get?_iff, hget,
      Option.isSome_map]
  rw [textColumn, overwrite, hmem, Json.get, hget]
  rcases fields.get? key with _ | v
  · rfl
  · rfl

omit [LawfulJsonb] in
theorem updateAgent_eq_ok (h : updateAgent ref fields s = .ok (s', answer)) :
    ∃ old graph draft workflow workflowDraft new, s.agent = some old ∧
      syncedGraphs old (coerceFields fields) = .ok (graph, draft) ∧
      storedOr graph old.workflow = .ok workflow ∧
      storedOr draft old.workflowDraft = .ok workflowDraft ∧
      new.workflow = workflow ∧ new.workflowDraft = workflowDraft ∧
      (new.greeting, new.systemPrompt) =
        (overwrite (coerceFields fields) "greeting" old.greeting,
          overwrite (coerceFields fields) "system_prompt" old.systemPrompt) ∧
      s'.agent = some new ∧ s'.versions = match graph, workflow with
        | some _, some workflow =>
          appendVersion s.versions workflow "mirrored greeting/system_prompt"
        | _, _ => s.versions := by
  rw [updateAgent] at h
  obtain ⟨-, -, h⟩ := bind_eq_ok h
  obtain ⟨old, hagent, h⟩ := bind_eq_ok h
  obtain ⟨⟨graph, draft⟩, hgraphs, h⟩ := bind_eq_ok h
  obtain ⟨workflow, hworkflow, h⟩ := bind_eq_ok h
  obtain ⟨workflowDraft, hdraft, h⟩ := bind_eq_ok h
  obtain ⟨rfl, -⟩ := Prod.mk.inj (Except.ok.inj h)
  refine ⟨old, graph, draft, workflow, workflowDraft, _, lockedAgent_eq_ok_iff.1 hagent, hgraphs,
    hworkflow, hdraft, rfl, rfl, ?_, rfl, rfl⟩
  rw [← textColumn_coerceFields (.inl rfl), ← textColumn_coerceFields (.inr rfl)]
  rfl

omit [Runtime] in
theorem storedOr_loaded {o w w' : Option (Dict String Json)} (hw : ∀ graph ∈ w, Loaded graph)
    (h : storedOr o w = .ok w') : ∀ graph ∈ w', Loaded graph := by
  rcases o with _ | graph
  · obtain rfl := Except.ok.inj h
    exact hw
  · rcases hstored : stored graph with failure | graph'
    · rw [storedOr, hstored] at h
      cases h
    · rw [storedOr, hstored] at h
      obtain rfl := Except.ok.inj h
      rintro _ ⟨⟩
      exact loaded_of_stored hstored

/-- and new texts get into the live graph. -/
theorem updateAgent_inv (hs : Inv s) (h : updateAgent ref fields s = .ok (s', answer)) :
    Inv s' := by
  obtain ⟨old, o, draft, workflow, workflowDraft, new, hagent, hgraphs, hworkflow, hdraft, hnew,
    hnewDraft, hcolumns, hagent', hversions'⟩ := updateAgent_eq_ok h
  obtain ⟨graph, hlive, hloaded, hplain⟩ := hs.live old hagent
  obtain ⟨g, hg⟩ := hlive.parses
  obtain ⟨agent', versions'⟩ := s'
  obtain rfl : agent' = some new := hagent'
  obtain rfl := hversions'
  have hdrafts := storedOr_loaded (hs.draft old hagent) hdraft
  rw [← hnewDraft] at hdrafts
  have hold := hlive.columns
  rw [hlive.workflow] at hworkflow
  rw [syncedGraphs, hlive.workflow] at hgraphs
  dsimp only at hgraphs
  split_ifs at hgraphs with hc
  · obtain ⟨o', hsynced, hgraphs⟩ := bind_eq_ok hgraphs
    obtain ⟨draft', -, hgraphs⟩ := bind_eq_ok hgraphs
    obtain ⟨rfl, rfl⟩ := Prod.mk.inj (Except.ok.inj hgraphs)
    obtain ⟨graph', rfl, hloaded', hplain', ⟨g', hg'⟩, htexts, hsame⟩ :=
      synced_stored hg hloaded hplain hc hsynced hworkflow
    rw [← hold, ← hcolumns] at htexts
    rcases o' with _ | a
    · -- The texts are those of the live graph.
      obtain rfl := hsame rfl
      refine ⟨?_, ?_, hs.versions, hs.increasing⟩
      · rintro _ ⟨⟩
        exact ⟨graph', ⟨hnew, ⟨g', hg'⟩, htexts.symm, hlive.newest⟩, hloaded', hplain'⟩
      · rintro _ ⟨⟩
        exact hdrafts
    · exact inv_of_appended hs.versions hs.increasing hnew hdrafts hloaded' hplain' hg' htexts.symm
  · obtain ⟨rfl, rfl⟩ := Prod.mk.inj (Except.ok.inj hgraphs)
    obtain rfl := Except.ok.inj hworkflow
    obtain ⟨hgreeting, hprompt⟩ := not_or.1 hc
    rw [overwrite, if_neg hgreeting, overwrite, if_neg hprompt, hold] at hcolumns
    refine ⟨?_, ?_, hs.versions, hs.increasing⟩
    · rintro _ ⟨⟩
      exact ⟨graph, ⟨hnew, ⟨g, hg⟩, hcolumns, hlive.newest⟩, hloaded, hplain⟩
    · rintro _ ⟨⟩
      exact hdrafts

/-! ### The runs -/

/-- The graph that is to be live, if there is one, is proper. The draft has been read back, so that
    only its texts have to be plain. -/
def Op.IsProper (s : Rows) : Op → Prop
  | .createAgent greeting systemPrompt workflow _ _ =>
    Proper (initialGraph greeting systemPrompt workflow)
  | .publish (some graph) _ => Proper graph
  | .publish none _ => ∀ agent ∈ s.agent, ∀ draft ∈ agent.workflowDraft, Plain draft
  | .updateAgent _ | .saveDraft _ _ | .rollback _ => True

def Meets (s : Rows) (r : Request) : Prop := r.fails = false → r.op.IsProper s

theorem perform_inv {op : Op} (hs : Inv s) (hop : op.IsProper s)
    (h : perform ref op s = .ok (s', answer)) : Inv s' := by
  cases op with
  | createAgent greeting systemPrompt workflow columns tenantSlug =>
    exact createAgent_inv hs hop h
  | updateAgent fields => exact updateAgent_inv hs h
  | saveDraft graph base => exact saveDraft_inv hs h
  | publish given note =>
    refine publish_inv hs (fun c g c' hc hg hst => ?_) h
    rcases given with _ | graph
    · -- The draft is as it was read back.
      obtain ⟨agent, hagent, hc⟩ := bind_eq_ok hc
      rw [lockedAgent_eq_ok_iff] at hagent
      split at hc
      · rename_i draft hdraft
        obtain rfl := Except.ok.inj hc
        exact ⟨hop agent hagent draft hdraft,
          keeps_of_loaded (hs.draft agent hagent draft hdraft) hg hst⟩
      · cases hc
    · obtain rfl := Except.ok.inj hc
      exact Proper.of_parseGraph hop hg hst
  | rollback version => exact rollback_inv hs h

omit [LawfulJsonb] in
theorem inv_init : Inv (requests ref).init where
  live := by rintro _ ⟨⟩
  draft := by rintro _ ⟨⟩
  versions := by rintro _ ⟨⟩
  increasing := .nil

theorem run_inv {r : Request} (hs : Inv s) (hmeets : Meets s r) : Inv (r.run ref s).1 := by
  obtain ⟨op, fails, readFails⟩ := r
  rw [Request.run]
  cases fails with
  | true => exact hs
  | false =>
    rw [if_neg Bool.false_ne_true]
    rcases h : perform ref op s with failure | ⟨s', answer⟩
    · exact hs
    · exact perform_inv hs (hmeets rfl) h

/-- After every request of a run whose graphs are proper, what is live, the columns and the newest
    version agree. -/
theorem published_consistent (h : (requests ref).ReachableIf Meets s) : Consistent s := by
  have hinv : Inv s := by
    refine h.invariant inv_init fun s r s' hs hmeets hst => ?_
    obtain rfl := Option.some.inj hst
    exact run_inv hs hmeets
  exact hinv.consistent

end

section

variable [Runtime]

instance (a b : Dict String Json) : Decidable (SameTexts a b) :=
  decidable_of_iff (_ ∧ _) ⟨fun h => ⟨h.1, h.2⟩, fun h => ⟨h.1, h.2⟩⟩

instance (graph graph' : Dict String Json) : Decidable (Keeps graph graph') :=
  decidable_of_iff (_ ∧ _) ⟨fun h => ⟨h.1, h.2⟩, fun h => ⟨h.1, h.2⟩⟩

variable [Jsonb]

instance : DecidablePred Proper := fun graph =>
  inferInstanceAs (Decidable (_ → _ ∧ ∀ graph' ∈ (stored graph).toOption, Keeps graph graph'))

instance (s : Rows) : DecidablePred (Op.IsProper s)
  | .createAgent _ _ _ _ _ | .publish (some _) _ => inferInstanceAs (Decidable (Proper _))
  | .publish none _ =>
    inferInstanceAs (Decidable (∀ agent ∈ s.agent, ∀ draft ∈ agent.workflowDraft, Plain draft))
  | .updateAgent _ | .saveDraft _ _ | .rollback _ => .isTrue trivial

instance (s : Rows) (r : Request) : Decidable (Meets s r) :=
  inferInstanceAs (Decidable (_ → r.op.IsProper s))

end

/-- A database that reads back what it was given, in the order it came in. -/
@[reducible] def Jsonb.ordered : Jsonb where
  load x := if x.eq x then some x else none
  same x y := x.eq y

theorem load_ordered_iff : @Jsonb.load .ordered x = some y ↔ x.eq x = true ∧ y = x := by
  change (if x.eq x then some x else none) = some y ↔ _
  split_ifs with h
  · simp [h, eq_comm]
  · simp [h]

theorem lawful_ordered : @LawfulJsonb .ordered := by
  refine @LawfulJsonb.mk .ordered ?_ ?_ ?_ ?_ ?_
  · intro s x h
    exact (load_ordered_iff.1 h).2
  · intro items x h
    obtain ⟨hself, rfl⟩ := load_ordered_iff.1 h
    rw [Json.eq, Json.eqItems_iff, List.forall₂_same] at hself
    exact ⟨items, rfl, List.forall₂_same.2 fun y hy => load_ordered_iff.2 ⟨hself y hy, rfl⟩⟩
  · intro fields x h
    obtain ⟨hself, rfl⟩ := load_ordered_iff.1 h
    refine ⟨fields, rfl, fun k => ?_⟩
    have hk := Json.optionEq_get? hself k
    rcases hv : Dict.get? fields k with _ | v
    · exact .none
    · rw [hv] at hk
      cases hk with
      | some hself => exact .some (load_ordered_iff.2 ⟨hself, rfl⟩)
  · intro x y h
    obtain ⟨hself, rfl⟩ := load_ordered_iff.1 h
    exact h
  · intro x y h
    obtain ⟨hself, rfl⟩ := load_ordered_iff.1 h
    exact hself

/-- A flow as it is read back: its fields by their length, then by their names. -/
def clinicFlow (greeting prompt : String) (x : ℤ) : Dict String Json :=
  [("edges", .arr
    [.obj [("id", .str "e"), ("data", .obj
      [("label", .str "done"), ("condition", .str "when the caller is done")]),
      ("source", .str "start"), ("target", .str "end")]]),
  ("nodes", .arr
    [.obj [("id", .str "global"), ("data", .obj
      [("name", .str "always applies"), ("prompt", .str prompt)]), ("type", .str "global")],
    .obj [("id", .str "start"), ("data", .obj
      [("name", .str "hello"), ("greeting", .str greeting)]), ("type", .str "start"),
      ("position", .obj [("x", .int x)])],
    .obj [("id", .str "end"), ("data", .obj [("name", .str "goodbye")]), ("type", .str "end")]]),
  ("version", .int 1)]

def clinic : AgentRef := ⟨"7", "acme"⟩

/-- The greeting is written, a draft published, the step moved, and all of it rolled back. -/
private def clinicRequests : List Request :=
  [{ op := .createAgent "" "" (some (clinicFlow "Hello." "Be brief." 0)) [] (some "acme") },
  { op := .updateAgent [("greeting", .str "Good morning.")] },
  { op := .saveDraft (clinicFlow "Good evening." "Be kind." 0) (some 2) },
  { op := .publish none none },
  { op := .publish (some (clinicFlow "Good evening." "Be kind." 40)) none },
  { op := .publish (some []) none },
  { op := .rollback 1 }]

private def rolledBack : Option Rows :=
  (@requests .ascii .ordered clinic).execIf (@Meets .ascii .ordered)
    (@requests .ascii .ordered clinic).init clinicRequests

private theorem rolledBack_isSome : rolledBack.isSome := by decide

theorem published_consistent_rollback : ∃ s, rolledBack = some s ∧
    s.versions.map Version.version = [1, 2, 3, 4] ∧ @Consistent .ascii s := by
  have hinit : (@requests .ascii .ordered clinic).ReachableIf (@Meets .ascii .ordered)
      (@requests .ascii .ordered clinic).init := .init
  have hs := hinit.execIf (Option.some_get rolledBack_isSome).symm
  exact ⟨_, (Option.some_get rolledBack_isSome).symm, by decide,
    @published_consistent .ascii .ordered lawful_ordered clinic _ hs⟩

end Yuviz.Config.Workflows
