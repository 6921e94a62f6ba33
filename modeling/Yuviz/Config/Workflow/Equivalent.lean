import Mathlib.Data.List.Sort
import Yuviz.Config.Workflow.Valid
import Yuviz.Python.JsonEquality

/-!
# Equivalent documents

`graphsEquivalent` compares the logic of two documents as Python compares
values. A graph is read as text, though, and values that are equal may print
differently: `1` and `true`, `1` and `1.0`, or an object whose fields come in
another order. So an equivalent document is accepted, and as the same graph,
just when its nodes and edges have the same texts
(`graphsEquivalent_sound_iff`).
-/

namespace Yuviz.Config

open Python

variable [Runtime]

/-- `{k: n[k] for k in keys if k in n}`. -/
def pick (keys : List String) (n : Dict String Json) : Dict String Json :=
  keys.filterMap fun k => (n.get? k).map fun v => (k, v)

/-- What of a node, and of an edge, is not chrome of the editor. -/
def rfNodeLogic : List String := ["id", "type", "data"]

def rfEdgeLogic : List String := ["id", "source", "target", "sourceHandle", "targetHandle", "data"]

/-- The objects of a list; `none` when it is something else, which the comparison is not
    made for. -/
def objects (x : Json) : Option (List (Dict String Json)) :=
  if x.truthy then
    match x with
    | .arr items => items.mapM fun
      | .obj fields => some fields
      | _ => none
    | _ => none
  else some []

/-- What a list is sorted by. -/
def sortKey (n : Dict String Json) : String := ((n.get? "id").getD (.str "")).toStr

def sortById (l : List (Dict String Json)) : List (Dict String Json) :=
  l.insertionSort fun n m => sortKey n ≤ sortKey m

def logicView (graph : Dict String Json) : Option Json := do
  let nodes ← objects (Json.get graph "nodes")
  let edges ← objects (Json.get graph "edges")
  some (.obj
    [("version", Json.get graph "version"),
    ("nodes", .arr ((sortById (nodes.map (pick rfNodeLogic))).map .obj)),
    ("edges", .arr ((sortById (edges.map (pick rfEdgeLogic))).map .obj))])

def graphsEquivalent (a b : Option (Dict String Json)) : Option Bool :=
  match a, b with
  | some a, some b => do
    let viewA ← logicView a
    let viewB ← logicView b
    some (viewA.eq viewB)
  | none, none => some true
  | _, _ => some false

/-! ### The texts of a document -/

/-- What of a node is read as text: all but its delay, and whether it extracts. -/
def nodeTexts (raw : Dict String Json) : Node :=
  let data := dataObject raw
  { id := (Json.get raw "id").strOr ""
    type := (Json.get raw "type").strOr ""
    name := stripStr ((Json.get data "name").strOr "")
    prompt := (Json.get data "prompt").strOr ""
    greeting := match Json.get data "greeting" with
      | .null => none
      | greeting => some greeting.toStr
    tools := strList (Json.get data "tools")
    knowledgeBaseIds := strList (Json.get data "knowledge_base_ids")
    extraction := (parseExtraction (Json.get data "extraction")).map ({ · with enabled := false })
    transferDestination := optionalStr (Json.get data "transfer_destination")
    disposition := optionalStr (Json.get data "disposition") }

def edgeTexts (raw : Dict String Json) : List String :=
  let data := dataObject raw
  [(Json.get raw "id").strOr "", (Json.get raw "source").strOr "", (Json.get raw "target").strOr "",
    stripStr ((Json.get data "label").strOr ""), stripStr ((Json.get data "condition").strOr ""),
    stripStr ((Json.get data "transition_speech").strOr "")]

/-- The nodes and the edges of two documents have the same texts, in whichever order. -/
structure SameTexts (a b : Dict String Json) : Prop where
  nodes : (((objects (Json.get a "nodes")).getD []).map nodeTexts).Perm
    (((objects (Json.get b "nodes")).getD []).map nodeTexts)
  edges : (((objects (Json.get a "edges")).getD []).map edgeTexts).Perm
    (((objects (Json.get b "edges")).getD []).map edgeTexts)

/-- A node apart from the edges out of it. -/
def Node.withoutEdges (n : Node) : Node := { n with outEdges := [] }

/-- The same nodes, and for each the same set of edges out of it. -/
structure SameGraph (g g' : WorkflowGraph) : Prop where
  start : g.startNodeId = g'.startNodeId
  nodes : ∀ id, (g.node? id).map Node.withoutEdges = (g'.node? id).map Node.withoutEdges
  edges : ∀ id e, e ∈ g.outEdges id ↔ e ∈ g'.outEdges id

/-! ### Documents whose nodes and edges are objects -/

variable {x : Json} {a b : Dict String Json} {ds nds eds nds' eds' : List (Dict String Json)}
  {g g' : WorkflowGraph} {nodes nodes' : List Node} {edges edges' : List Edge} {n : Node}

omit [Runtime] in
theorem objects_of_truthy (h : objects x = some ds) (hx : x.truthy) :
    x = .arr (ds.map .obj) := by
  rw [objects.eq_def, if_pos hx] at h
  split at h
  next items =>
    congr 1
    clear hx
    induction items generalizing ds with
    | nil =>
      obtain rfl := Option.some.inj h
      rfl
    | cons item items ih =>
      rw [List.mapM_cons] at h
      simp only [bind, Option.bind_eq_some_iff, pure, Option.some.injEq] at h
      obtain ⟨fields, hitem, ds, hds, rfl⟩ := h
      cases item with
      | obj fields =>
        obtain rfl := Option.some.inj hitem
        rw [List.map_cons, ← ih hds]
      | _ => cases hitem
  · cases h

omit [Runtime] in
theorem objects_of_not_truthy (h : objects x = some ds) (hx : ¬ x.truthy) : ds = [] := by
  rw [objects.eq_def, if_neg hx] at h
  exact (Option.some.inj h).symm

omit [Runtime] in
theorem rawEdges_of_objects (h : objects (Json.get a "edges") = some ds) :
    rawEdges a = some (ds.map .obj) := by
  rw [rawEdges]
  by_cases hx : (Json.get a "edges").truthy
  · rw [if_pos hx, objects_of_truthy h hx]
  · rw [if_neg hx, objects_of_not_truthy h hx]
    rfl

theorem parseGraph_obj_eq_ok_iff (hn : objects (Json.get a "nodes") = some nds)
    (he : objects (Json.get a "edges") = some eds) : parseGraph (.obj a) = .ok g ↔
      ∃ ns, List.Forall₂ (fun raw n => nodeFromRaw raw = .ok n) nds ns ∧
        Valid ns (eds.map edgeFromRaw) ∧ g = buildGraph ns (eds.map edgeFromRaw) := by
  have hreadEdges (es : List Edge) : List.Forall₂ ReadsEdge (eds.map .obj) es ↔
      es = eds.map edgeFromRaw := by
    rw [List.forall₂_map_left_iff]
    simp only [ReadsEdge, Json.obj.injEq, exists_eq_left']
    rw [← List.forall₂_map_left_iff (f := edgeFromRaw) (R := fun e' e => e = e'),
      show (fun e' e : Edge => e = e') = Eq from funext₂ fun _ _ => propext eq_comm,
      List.forall₂_eq_eq_eq, eq_comm]
  have hreadNodes (ns : List Node) : List.Forall₂ ReadsNode (nds.map .obj) ns ↔
      List.Forall₂ (fun raw n => nodeFromRaw raw = .ok n) nds ns := by
    rw [List.forall₂_map_left_iff]
    simp [ReadsNode]
  rw [parseGraph_eq_ok_iff]
  constructor
  · rintro ⟨fields, rawNodes, rawEdges', ns, es, hfields, hnodes, hedges, hns, hes, hvalid, rfl⟩
    obtain rfl := Json.obj.inj hfields
    obtain rfl := Option.some.inj ((rawEdges_of_objects he).symm.trans hedges)
    obtain rfl := (hreadEdges es).1 hes
    have htruthy : (Json.get a "nodes").truthy := by
      rw [hnodes]
      rcases rawNodes with _ | ⟨rawNode, rawNodes⟩
      · exact absurd (List.forall₂_nil_left_iff.1 hns) hvalid.ne_nil
      · rfl
    rw [objects_of_truthy hn htruthy] at hnodes
    obtain rfl := Json.arr.inj hnodes
    exact ⟨ns, (hreadNodes ns).1 hns, hvalid, rfl⟩
  · rintro ⟨ns, hns, hvalid, rfl⟩
    have htruthy : (Json.get a "nodes").truthy := by
      by_contra h
      rw [objects_of_not_truthy hn h, List.forall₂_nil_left_iff] at hns
      exact hvalid.ne_nil hns
    exact ⟨a, _, _, ns, _, rfl, objects_of_truthy hn htruthy, rawEdges_of_objects he,
      (hreadNodes ns).2 hns, (hreadEdges _).2 rfl, hvalid, rfl⟩

/-! ### What is checked does not depend on an order -/

theorem Wired.perm (he : edges.Perm edges') (h : Wired edges n) : Wired edges' n := by
  have hout : (outEdges edges n.id).Perm (outEdges edges' n.id) := he.filter _
  have hin : inCount edges n.id = inCount edges' n.id := he.countP_eq _
  refine ⟨fun hunwired => ?_, fun hstart => ?_, h.destination, fun hterminal => ?_,
    fun hunwired hterminal => ?_, fun hunwired => ?_⟩
  · obtain ⟨hcount, hnil⟩ := h.unwired hunwired
    exact ⟨hin ▸ hcount, (hnil ▸ hout).nil_eq.symm⟩
  · exact hin ▸ h.start hstart
  · exact (h.terminal hterminal ▸ hout).nil_eq.symm
  · intro hnil
    exact h.exits hunwired hterminal (hnil ▸ hout).eq_nil
  · exact (hout.map Edge.toolName).nodup_iff.1 (h.tools hunwired)

theorem Valid.perm (hn : nodes.Perm nodes') (he : edges.Perm edges') (h : Valid nodes edges) :
    Valid nodes' edges' where
  node n hmem := h.node n (hn.mem_iff.2 hmem)
  ids := (hn.map Node.id).nodup_iff.1 h.ids
  names := (hn.map fun n => Runtime.lower n.name).nodup_iff.1 h.names
  start := (hn.filter _).length_eq ▸ h.start
  ending := by
    obtain ⟨n, hmem, htype⟩ := h.ending
    exact ⟨n, hn.mem_iff.1 hmem, htype⟩
  global := (hn.filter _).length_eq ▸ h.global
  edge e hmem := by
    obtain ⟨hsource, htarget, hlabel, hname, hcondition⟩ := h.edge e (he.mem_iff.2 hmem)
    exact ⟨(hn.map Node.id).mem_iff.1 hsource, (hn.map Node.id).mem_iff.1 htarget, hlabel, hname,
      hcondition⟩
  wired n hmem := (h.wired n (hn.mem_iff.2 hmem)).perm he

/-! ### What is read, and as which text -/

variable {raw raw' : Dict String Json} {keys : List String} {k : String}

/-- A node, but for its delay and whether it extracts. -/
def Node.texts (n : Node) : Node :=
  { n with
    delayedStartMs := 0
    extraction := n.extraction.map ({ · with enabled := false }) }

def Edge.texts (e : Edge) : List String :=
  [e.id, e.source, e.target, e.label, e.condition, e.transitionSpeech.getD ""]

def edgeOfTexts : List String → Edge
  | [id, source, target, label, condition, speech] =>
    ⟨id, source, target, label, condition, nonempty speech⟩
  | _ => ⟨"", "", "", "", "", none⟩

theorem texts_edgeFromRaw : (edgeFromRaw raw).texts = edgeTexts raw := by
  have h (text : String) : (nonempty text).getD "" = text := by
    rw [nonempty]
    split_ifs with htext
    · exact htext.symm
    · rfl
  rw [Edge.texts, edgeTexts, edgeFromRaw, h]

theorem nodeFromRaw_eq_ok_iff : nodeFromRaw raw = .ok n ↔
    ∃ delay, delayedStartMs (Json.get (dataObject raw) "delayed_start_ms") = .ok delay ∧
      n = { nodeTexts raw with
        delayedStartMs := delay
        extraction := parseExtraction (Json.get (dataObject raw) "extraction") } := by
  rw [nodeFromRaw]
  rcases delayedStartMs (Json.get (dataObject raw) "delayed_start_ms") with error | delay
  · simp [Except.map]
  · simp only [Except.map, Except.ok.injEq, exists_eq_left', nodeTexts]
    exact eq_comm

theorem nodeTexts_of_nodeFromRaw (h : nodeFromRaw raw = .ok n) : nodeTexts raw = n.texts := by
  obtain ⟨delay, -, rfl⟩ := nodeFromRaw_eq_ok_iff.1 h
  rfl

theorem outEdges_of_nodeFromRaw (h : nodeFromRaw raw = .ok n) : n.outEdges = [] := by
  obtain ⟨delay, -, rfl⟩ := nodeFromRaw_eq_ok_iff.1 h
  rfl

omit [Runtime] in
theorem eq_dataObject (h : Json.eq (.obj raw) (.obj raw') = true) :
    Json.eq (.obj (dataObject raw)) (.obj (dataObject raw')) = true := by
  have hdata := Json.get_eq h "data"
  rw [dataObject, dataObject]
  rcases Json.eq_cases hdata with ⟨hx, hy⟩ | ⟨s, hx, hy⟩ | ⟨xs, ys, hx, hy, -⟩ |
    ⟨fields, fields', hx, hy⟩ | ⟨v, hx, hy⟩
  · rw [hx, hy]
    rfl
  · rw [hx, hy]
    rfl
  · rw [hx, hy]
    rfl
  · rw [hx, hy] at hdata ⊢
    exact hdata
  · -- A number is no object.
    revert hx hy
    cases Json.get raw "data" <;> cases Json.get raw' "data" <;> intro hx hy <;>
      first | rfl | simp [Json.number] at hx hy

/-- An extraction is read the same but for its texts. -/
theorem parseExtraction_eq {x y : Json} (h : Json.eq x y = true)
    (htexts : (parseExtraction x).map ({ · with enabled := false }) =
      (parseExtraction y).map ({ · with enabled := false })) :
    parseExtraction x = parseExtraction y := by
  rcases Json.eq_cases h with ⟨rfl, rfl⟩ | ⟨s, rfl, rfl⟩ | ⟨xs, ys, rfl, rfl, -⟩ |
    ⟨fields, fields', rfl, rfl⟩ | ⟨v, hx, hy⟩
  · rfl
  · rfl
  · rfl
  · have henabled := Json.truthy_eq (Json.get_eq h "enabled")
    simp only [parseExtraction, Option.map_some, Option.some.injEq, Extraction.mk.injEq,
      true_and] at htexts ⊢
    exact ⟨henabled, htexts⟩
  · cases x <;> cases y <;> first | rfl | simp [Json.number] at hx hy

theorem nodeFromRaw_eq_map : nodeFromRaw raw =
    (delayedStartMs (Json.get (dataObject raw) "delayed_start_ms")).map fun delay =>
      { nodeTexts raw with
        delayedStartMs := delay
        extraction := parseExtraction (Json.get (dataObject raw) "extraction") } := rfl

/-- A node is read the same but for its texts. -/
theorem nodeFromRaw_eq (h : Json.eq (.obj raw) (.obj raw') = true)
    (htexts : nodeTexts raw = nodeTexts raw') : nodeFromRaw raw = nodeFromRaw raw' := by
  have hdata := eq_dataObject h
  have hdelay := Json.get_eq hdata "delayed_start_ms"
  have hextraction := parseExtraction_eq (Json.get_eq hdata "extraction")
    (congrArg Node.extraction htexts)
  rw [nodeFromRaw_eq_map, nodeFromRaw_eq_map, htexts, hextraction]
  congr 1
  have hnumber : Json.toInt (if (Json.get (dataObject raw) "delayed_start_ms").truthy
      then Json.get (dataObject raw) "delayed_start_ms" else .int 0) =
      Json.toInt (if (Json.get (dataObject raw') "delayed_start_ms").truthy
        then Json.get (dataObject raw') "delayed_start_ms" else .int 0) := by
    rw [Json.truthy_eq hdelay]
    split_ifs
    · exact Json.toInt_eq hdelay
    · rfl
  rw [delayedStartMs, delayedStartMs, hnumber]

omit [Runtime] in
theorem get?_pick : (pick keys raw).get? k = if k ∈ keys then raw.get? k else none := by
  induction keys with
  | nil => rfl
  | cons k' keys ih =>
    rw [pick] at ih ⊢
    rcases hk' : raw.get? k' with _ | v
    · rw [List.filterMap_cons_none (by rw [hk']; rfl), ih]
      rcases eq_or_ne k k' with rfl | hne
      · simp [hk']
      · simp [hne]
    · rw [List.filterMap_cons_some (b := (k', v)) (by rw [hk']; rfl), Dict.get?, List.find?_cons]
      rcases eq_or_ne k k' with rfl | hne
      · simp [hk']
      · simpa [hne, hne.symm, Dict.get?] using ih

omit [Runtime] in
theorem get_pick (hk : k ∈ keys) : Json.get (pick keys raw) k = Json.get raw k := by
  rw [Json.get, Json.get, get?_pick, if_pos hk]

omit [Runtime] in
theorem dataObject_pick (hk : "data" ∈ keys) : dataObject (pick keys raw) = dataObject raw := by
  rw [dataObject, dataObject, get_pick hk]

theorem nodeTexts_pick : nodeTexts (pick rfNodeLogic raw) = nodeTexts raw := by
  rw [nodeTexts, nodeTexts, dataObject_pick (by decide), get_pick (by decide), get_pick (by decide)]

theorem nodeFromRaw_pick : nodeFromRaw (pick rfNodeLogic raw) = nodeFromRaw raw := by
  rw [nodeFromRaw_eq_map, nodeFromRaw_eq_map, nodeTexts_pick, dataObject_pick (by decide)]

/-! ### Equal documents with the same texts -/

theorem sortKey_of_texts (h : (nodeTexts raw).id ≠ "") : sortKey raw = (nodeTexts raw).id := by
  have hid : (nodeTexts raw).id = (Json.get raw "id").strOr "" := rfl
  rw [hid, Json.strOr] at h ⊢
  have htruthy : (Json.get raw "id").truthy := by
    by_contra hn
    exact h (if_neg hn)
  rw [if_pos htruthy, sortKey]
  rw [Json.get] at htruthy ⊢
  rcases hget : raw.get? "id" with _ | v
  · rw [hget] at htruthy
    exact absurd htruthy Bool.false_ne_true
  · rfl

omit [Runtime] in
theorem map_eq_of_forall₂ {α β γ : Type*} {R : α → α → Prop} {t : α → β} {f : α → γ}
    (hf : ∀ x y, R x y → t x = t y → f x = f y) {l l' : List α} (h : List.Forall₂ R l l')
    (ht : l.map t = l'.map t) : l.map f = l'.map f := by
  induction h with
  | nil => rfl
  | cons hxy _ ih =>
    rw [List.map_cons, List.map_cons, List.cons.injEq] at ht
    rw [List.map_cons, List.map_cons, hf _ _ hxy ht.1, ih ht.2]

instance : Std.Total fun d d' : Dict String Json => sortKey d ≤ sortKey d' :=
  ⟨fun _ _ => le_total _ _⟩

instance : IsTrans (Dict String Json) fun d d' => sortKey d ≤ sortKey d' :=
  ⟨fun _ _ _ => le_trans⟩

/-- Nodes with an id are sorted by the text of it. -/
theorem pairwise_sortById (h : ∀ d ∈ ds, (nodeTexts d).id ≠ "") :
    ((sortById ds).map nodeTexts).Pairwise (·.id ≤ ·.id) := by
  rw [List.pairwise_map]
  refine (List.pairwise_insertionSort _ ds).imp_of_mem fun {d d'} hd hd' hle => ?_
  have hperm : (sortById ds).Perm ds := List.perm_insertionSort _ ds
  rwa [sortKey_of_texts (h d (hperm.mem_iff.1 hd)),
    sortKey_of_texts (h d' (hperm.mem_iff.1 hd'))] at hle

theorem map_nodeFromRaw_perm
    (heq : List.Forall₂ (fun d d' => Json.eq (.obj d) (.obj d') = true) (sortById ds) (sortById nds))
    (hne : ∀ d ∈ ds, (nodeTexts d).id ≠ "") (hids : ((ds.map nodeTexts).map Node.id).Nodup)
    (htexts : (ds.map nodeTexts).Perm (nds.map nodeTexts)) :
    (ds.map nodeFromRaw).Perm (nds.map nodeFromRaw) := by
  have hds : (sortById ds).Perm ds := List.perm_insertionSort _ ds
  have hnds : (sortById nds).Perm nds := List.perm_insertionSort _ nds
  have hne' : ∀ d ∈ nds, (nodeTexts d).id ≠ "" := by
    intro d hd
    obtain ⟨d', hd', heq⟩ := List.mem_map.1 (htexts.mem_iff.2 (List.mem_map_of_mem hd))
    rw [← heq]
    exact hne d' hd'
  -- The ids are distinct, so there is only one way to sort the texts.
  have hsorted : (sortById ds).map nodeTexts = (sortById nds).map nodeTexts := by
    refine List.Perm.eq_of_pairwise (fun n m hn hm hle hge => ?_) (pairwise_sortById hne)
      (pairwise_sortById hne') ((hds.map _).trans (htexts.trans (hnds.map _).symm))
    have hn := (hds.map nodeTexts).mem_iff.1 hn
    have hm := htexts.mem_iff.2 ((hnds.map nodeTexts).mem_iff.1 hm)
    exact List.inj_on_of_nodup_map hids hn hm (le_antisymm hle hge)
  have hread := map_eq_of_forall₂ (t := nodeTexts) (f := nodeFromRaw)
    (fun d d' h ht => nodeFromRaw_eq h ht) heq hsorted
  exact (hds.map nodeFromRaw).symm.trans (hread ▸ hnds.map nodeFromRaw)

/-- The same nodes and edges, in whichever order, build the same graph. -/
theorem Valid.sameGraph_of_perm (h : Valid nodes edges) (hn : nodes.Perm nodes')
    (he : edges.Perm edges') : SameGraph (buildGraph nodes edges) (buildGraph nodes' edges') := by
  have h' := h.perm hn he
  constructor
  · obtain ⟨n, -, -, hstarts, hid⟩ := h.startsOf_eq
    obtain ⟨n', -, -, hstarts', hid'⟩ := h'.startsOf_eq
    have hperm : (startsOf nodes).Perm (startsOf nodes') := hn.filter _
    rw [hstarts, hstarts', List.singleton_perm_singleton] at hperm
    rw [hid, hid', hperm]
  · intro id
    by_cases hid : id ∈ nodes.map Node.id
    · obtain ⟨n, hmem, rfl⟩ := List.mem_map.1 hid
      rw [h.node?_of_mem hmem, h'.node?_of_mem (hn.mem_iff.1 hmem)]
      rfl
    · have hid' : id ∉ nodes'.map Node.id := fun hmem => hid ((hn.map Node.id).mem_iff.2 hmem)
      rw [WorkflowGraph.node?, WorkflowGraph.node?, Dict.get?_eq_none_iff.2 (nodes_buildGraph ▸ hid),
        Dict.get?_eq_none_iff.2 (nodes_buildGraph ▸ hid')]
  · intro id e
    rw [h.outEdges_buildGraph, h'.outEdges_buildGraph, mem_outEdges_iff, mem_outEdges_iff,
      he.mem_iff]

omit [Runtime] in
theorem forall₂_ok_iff {α β ε : Type*} {f : α → Except ε β} {l : List α} {l' : List β} :
    List.Forall₂ (fun x y => f x = .ok y) l l' ↔ l.map f = l'.map .ok := by
  induction l generalizing l' with
  | nil => simp [eq_comm]
  | cons x l ih => rcases l' with _ | ⟨y, l'⟩ <;> simp [ih]

theorem map_nodeTexts_eq (h : List.Forall₂ (fun d n => nodeFromRaw d = .ok n) ds nodes) :
    ds.map nodeTexts = nodes.map Node.texts := by
  induction h with
  | nil => rfl
  | cons hn _ ih => rw [List.map_cons, List.map_cons, nodeTexts_of_nodeFromRaw hn, ih]

/-- A document whose nodes and edges equal those of an accepted one, and have the same texts,
    is accepted. -/
theorem SameTexts.parseGraph (htexts : SameTexts a b) (hn : objects (Json.get a "nodes") = some nds)
    (he : objects (Json.get a "edges") = some eds) (hn' : objects (Json.get b "nodes") = some nds')
    (he' : objects (Json.get b "edges") = some eds')
    (heq : List.Forall₂ (fun d d' => Json.eq (.obj d) (.obj d') = true)
      (sortById (nds.map (pick rfNodeLogic))) (sortById (nds'.map (pick rfNodeLogic))))
    (hg : parseGraph (.obj a) = .ok g) : ∃ g', parseGraph (.obj b) = .ok g' ∧ SameGraph g g' := by
  obtain ⟨ns, hns, hvalid, rfl⟩ := (parseGraph_obj_eq_ok_iff hn he).1 hg
  obtain ⟨hnodes, hedges⟩ := htexts
  rw [hn, hn', Option.getD_some, Option.getD_some] at hnodes
  rw [he, he', Option.getD_some, Option.getD_some] at hedges
  have hpick (ds : List (Dict String Json)) :
      (ds.map (pick rfNodeLogic)).map nodeTexts = ds.map nodeTexts := by
    rw [List.map_map]
    exact List.map_congr_left fun d _ => nodeTexts_pick
  have hpickRead (ds : List (Dict String Json)) :
      (ds.map (pick rfNodeLogic)).map nodeFromRaw = ds.map nodeFromRaw := by
    rw [List.map_map]
    exact List.map_congr_left fun d _ => nodeFromRaw_pick
  have hid : (ns.map Node.texts).map Node.id = ns.map Node.id := by
    rw [List.map_map]
    rfl
  have hread : (nds.map nodeFromRaw).Perm (nds'.map nodeFromRaw) := by
    rw [← hpickRead nds, ← hpickRead nds']
    refine map_nodeFromRaw_perm heq (fun d hd => ?_) ?_ ?_
    · have hmem : (nodeTexts d).id ∈ ns.map Node.id := by
        rw [← hid, ← map_nodeTexts_eq hns, ← hpick]
        exact List.mem_map_of_mem (List.mem_map_of_mem hd)
      obtain ⟨n, hmem, heq⟩ := List.mem_map.1 hmem
      exact heq ▸ (hvalid.node n hmem).id_ne
    · rw [hpick, map_nodeTexts_eq hns, hid]
      exact hvalid.ids
    · rwa [hpick, hpick]
  rw [forall₂_ok_iff.1 hns] at hread
  obtain ⟨ns', hns', hperm⟩ : ∃ ns' : List Node, nds'.map nodeFromRaw = ns'.map .ok ∧
      ns'.Perm ns := by
    have := congrFun₂ (List.eq_map_comp_perm (Except.ok : Node → Except ParseError Node))
      (nds'.map nodeFromRaw) ns
    exact this.mpr hread.symm
  have hedges' : (eds.map edgeFromRaw).Perm (eds'.map edgeFromRaw) := by
    have := hedges.map edgeOfTexts
    rw [List.map_map, List.map_map] at this
    exact this
  exact ⟨_, (parseGraph_obj_eq_ok_iff hn' he').2
    ⟨ns', forall₂_ok_iff.2 hns', hvalid.perm hperm.symm hedges', rfl⟩,
    hvalid.sameGraph_of_perm hperm.symm hedges'⟩

omit [Runtime] in
theorem SameGraph.symm (h : SameGraph g g') : SameGraph g' g :=
  ⟨h.start.symm, fun id => (h.nodes id).symm, fun id e => (h.edges id e).symm⟩

/-- The nodes of a graph are those of any that is the same. -/
theorem SameGraph.mem_of_mem (hv : Valid nodes edges) (hout : ∀ n ∈ nodes, n.outEdges = [])
    (hout' : ∀ n ∈ nodes', n.outEdges = [])
    (h : SameGraph (buildGraph nodes edges) (buildGraph nodes' edges')) (hn : n ∈ nodes) :
    n ∈ nodes' := by
  have hbare {n : Node} (h : n.outEdges = []) : n.withoutEdges = n := by
    rw [Node.withoutEdges, ← h]
  have hnode := h.nodes n.id
  rw [hv.node?_of_mem hn, node?_buildGraph] at hnode
  rcases hfind : nodes'.find? (·.id = n.id) with _ | n'
  · rw [hfind] at hnode
    cases hnode
  · rw [hfind] at hnode
    have hn' := List.mem_of_find?_eq_some hfind
    have heq : n.withoutEdges = n'.withoutEdges := Option.some.inj hnode
    rw [hbare (hout n hn), hbare (hout' n' hn')] at heq
    exact heq ▸ hn'

/-- The edges out of one node have distinct names, so no edge comes twice. -/
theorem Valid.nodup (hv : Valid nodes edges) : edges.Nodup := by
  rw [List.nodup_iff_count_le_one]
  intro e
  by_cases he : e ∈ edges
  · obtain ⟨n, hn, hid⟩ := List.mem_map.1 (hv.edge e he).source_mem
    have hmem : e ∈ outEdges edges n.id := mem_outEdges_iff.2 ⟨he, hid.symm⟩
    have hunwired : ¬ n.isUnwired := fun h => by
      rw [((hv.wired n hn).unwired h).2] at hmem
      cases hmem
    have hcount := List.nodup_iff_count_le_one.1 ((hv.wired n hn).tools hunwired).of_map e
    rwa [outEdges, List.count_filter (by simp [hid])] at hcount
  · rw [List.count_eq_zero_of_not_mem he]
    exact Nat.zero_le 1

theorem SameGraph.sameTexts (hn : objects (Json.get a "nodes") = some nds)
    (he : objects (Json.get a "edges") = some eds) (hn' : objects (Json.get b "nodes") = some nds')
    (he' : objects (Json.get b "edges") = some eds') (hg : parseGraph (.obj a) = .ok g)
    (hg' : parseGraph (.obj b) = .ok g') (h : SameGraph g g') : SameTexts a b := by
  obtain ⟨ns, hns, hv, rfl⟩ := (parseGraph_obj_eq_ok_iff hn he).1 hg
  obtain ⟨ns', hns', hv', rfl⟩ := (parseGraph_obj_eq_ok_iff hn' he').1 hg'
  have hout {ds : List (Dict String Json)} {ns : List Node}
      (h : List.Forall₂ (fun d n => nodeFromRaw d = .ok n) ds ns) : ∀ n ∈ ns, n.outEdges = [] := by
    intro n hn
    induction h with
    | nil => cases hn
    | cons hread _ ih =>
      rcases List.mem_cons.1 hn with rfl | hn
      · exact outEdges_of_nodeFromRaw hread
      · exact ih hn
  have hnodes : ns.Perm ns' := by
    refine (List.perm_ext_iff_of_nodup hv.ids.of_map hv'.ids.of_map).2 fun n => ⟨?_, ?_⟩
    · exact h.mem_of_mem hv (hout hns) (hout hns')
    · exact h.symm.mem_of_mem hv' (hout hns') (hout hns)
  have hedges : (eds.map edgeFromRaw).Perm (eds'.map edgeFromRaw) := by
    refine (List.perm_ext_iff_of_nodup hv.nodup hv'.nodup).2 fun e => ?_
    have hmem := h.edges e.source e
    rwa [hv.outEdges_buildGraph, hv'.outEdges_buildGraph, mem_outEdges_iff, mem_outEdges_iff,
      and_iff_left rfl, and_iff_left rfl] at hmem
  constructor
  · rw [hn, hn', Option.getD_some, Option.getD_some, map_nodeTexts_eq hns, map_nodeTexts_eq hns']
    exact hnodes.map _
  · have := hedges.map Edge.texts
    rw [List.map_map, List.map_map] at this
    rw [he, he', Option.getD_some, Option.getD_some]
    simpa only [Function.comp_def, texts_edgeFromRaw] using this

/-- A document that is equivalent to an accepted one is accepted, as the same graph, if and only
    if its nodes and edges have the same texts. -/
theorem graphsEquivalent_sound_iff (h : graphsEquivalent (some a) (some b) = some true)
    (hg : parseGraph (.obj a) = .ok g) :
    (∃ g', parseGraph (.obj b) = .ok g' ∧ SameGraph g g') ↔ SameTexts a b := by
  simp only [graphsEquivalent, logicView, bind, Option.bind_eq_some_iff, Option.some.injEq] at h
  obtain ⟨viewA, ⟨nds, hn, eds, he, rfl⟩, viewB, ⟨nds', hn', eds', he', rfl⟩, heq⟩ := h
  constructor
  · rintro ⟨g', hg', hsame⟩
    exact hsame.sameTexts hn he hn' he' hg hg'
  · intro htexts
    refine htexts.parseGraph hn he hn' he' ?_ hg
    have hnodes : Json.eq (.arr ((sortById (nds.map (pick rfNodeLogic))).map .obj))
        (.arr ((sortById (nds'.map (pick rfNodeLogic))).map .obj)) = true :=
      Json.get_eq heq "nodes"
    rw [Json.eq, Json.eqItems_iff, List.forall₂_map_left_iff, List.forall₂_map_right_iff] at hnodes
    exact hnodes

/-- A flow whose start has the id `id`. -/
private def idDocument (id : Json) : Dict String Json :=
  [("nodes", .arr
    [.obj [("id", id), ("type", .str "start"), ("data", .obj [("name", .str "greeting")])],
    .obj [("id", .str "bye"), ("type", .str "end"), ("data", .obj [("name", .str "goodbye")])]]),
  ("edges", .arr
    [.obj [("id", .str "e"), ("source", .str "1"), ("target", .str "bye"), ("data", .obj
      [("label", .str "done"), ("condition", .str "when the caller is done")])]])]

private def idGraph : WorkflowGraph :=
  ((@parseGraph .ascii (.obj (idDocument (.int 1)))).toOption).getD ⟨[], ""⟩

omit [Runtime] in
private theorem parseGraph_idDocument :
    @parseGraph .ascii (.obj (idDocument (.int 1))) = .ok idGraph := rfl

omit [Runtime] in
private theorem graphsEquivalent_idDocument :
    @graphsEquivalent .ascii (some (idDocument (.int 1))) (some (idDocument (.bool true))) =
      some true := rfl

omit [Runtime] in
theorem graphsEquivalent_sound_iff_bool :
    (∃ g', @parseGraph .ascii (.obj (idDocument (.bool true))) = .ok g' ∧ SameGraph idGraph g') ↔
      @SameTexts .ascii (idDocument (.int 1)) (idDocument (.bool true)) :=
  @graphsEquivalent_sound_iff .ascii _ _ _ graphsEquivalent_idDocument parseGraph_idDocument

omit [Runtime] in
/-- The id `1` of a step equals `true`, but no step has the text `1` as its id then. -/
theorem not_graphsEquivalent_sound : ¬ ∀ (a b : Dict String Json) (g : WorkflowGraph),
    @graphsEquivalent .ascii (some a) (some b) = some true → @parseGraph .ascii (.obj a) = .ok g →
      ∃ g', @parseGraph .ascii (.obj b) = .ok g' ∧ SameGraph g g' := by
  intro h
  obtain ⟨g', hg', -⟩ := h _ _ _ graphsEquivalent_idDocument parseGraph_idDocument
  have herror : ¬ (@parseGraph .ascii (.obj (idDocument (.bool true)))).toOption.isSome := by
    decide
  rw [hg'] at herror
  exact herror rfl

end Yuviz.Config
