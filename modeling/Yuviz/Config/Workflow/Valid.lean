import Yuviz.Config.Workflow

/-!
# Accepted graphs

`parseGraph` accepts exactly the documents whose nodes and edges are `Valid`,
the conjunction of what it checks, and returns the graph built from them
(`parseGraph_eq_ok_iff`). Everything a graph is relied on for afterwards is read
off `Valid`.
-/

namespace Yuviz.Config

open Python

variable [Runtime] {rawNode rawEdge : Json} {rawNodes rawEdges' : List Json} {n node : Node}
  {nodes : List Node} {edge : Edge} {edges : List Edge} {errors : List WorkflowError}
  {d d' : Dict String Node} {g : WorkflowGraph}

/-- An edge between the nodes `ids` which the model can take. -/
structure EdgeOk (ids : List String) (e : Edge) : Prop where
  source_mem : e.source ∈ ids
  target_mem : e.target ∈ ids
  label_ne : e.label ≠ ""
  toolName_ne : e.toolName ≠ ""
  condition_ne : e.condition ≠ ""

/-- How a node is wired. -/
structure Wired (edges : List Edge) (n : Node) : Prop where
  unwired : n.isUnwired → inCount edges n.id = 0 ∧ outEdges edges n.id = []
  start : n.type = "start" → inCount edges n.id = 0
  destination : n.type = "transfer" → stripStr (n.transferDestination.getD "") ≠ ""
  terminal : n.isTerminal → outEdges edges n.id = []
  exits : ¬ n.isUnwired → ¬ n.isTerminal → outEdges edges n.id ≠ []
  tools : ¬ n.isUnwired → ((outEdges edges n.id).map Edge.toolName).Nodup

structure NodeOk (n : Node) : Prop where
  id_ne : n.id ≠ ""
  type_mem : n.type ∈ nodeTypes
  name_ne : n.name ≠ ""

/-- What the nodes and the edges of a document are checked for. -/
structure Valid (nodes : List Node) (edges : List Edge) : Prop where
  node : ∀ n ∈ nodes, NodeOk n
  ids : (nodes.map Node.id).Nodup
  names : (nodes.map fun n => Runtime.lower n.name).Nodup
  start : (startsOf nodes).length = 1
  ending : ∃ n ∈ nodes, n.type = "end"
  global : (nodes.filter Node.isUnwired).length ≤ 1
  edge : ∀ e ∈ edges, EdgeOk (nodes.map Node.id) e
  wired : ∀ n ∈ nodes, Wired edges n

omit [Runtime] in
theorem mem_outEdges_iff {id : String} : edge ∈ outEdges edges id ↔ edge ∈ edges ∧ edge.source = id := by
  simp [outEdges]

omit [Runtime] in
/-- Nothing leads to a node if and only if it is the target of no edge. -/
theorem inCount_eq_zero_iff {id : String} : inCount edges id = 0 ↔ ∀ e ∈ edges, e.target ≠ id := by
  simp [inCount]

/-! ### What each check finds -/

/-- A node has no error if and only if its type is one and it has a name. -/
theorem nodeErrors_eq_nil_iff : nodeErrors n = [] ↔ n.type ∈ nodeTypes ∧ n.name ≠ "" := by
  rw [nodeErrors, List.append_eq_nil_iff]
  simp

theorem edgeErrors_eq_nil_iff :
    edgeErrors edge = [] ↔ edge.label ≠ "" ∧ edge.toolName ≠ "" ∧ edge.condition ≠ "" := by
  rw [edgeErrors]
  split_ifs <;> simp_all

omit [Runtime] in
/-- There are one start, an end and at most one global node. -/
theorem shapeErrors_eq_nil_iff : shapeErrors nodes = [] ↔
    (startsOf nodes).length = 1 ∧ (∃ n ∈ nodes, n.type = "end") ∧
      (nodes.filter Node.isUnwired).length ≤ 1 := by
  simp [shapeErrors, List.append_eq_nil_iff]

/-- A name is reported when it is among those before, or comes twice. -/
theorem nameErrors_eq_nil_iff {seenNames : Dict String String} :
    nameErrors seenNames nodes = [] ↔
      (nodes.map fun n => Runtime.lower n.name).Nodup ∧
        ∀ n ∈ nodes, Runtime.lower n.name ∉ seenNames.map Prod.fst := by
  induction nodes generalizing seenNames with
  | nil => simp [nameErrors]
  | cons n nodes ih =>
    rw [nameErrors, List.append_eq_nil_iff, ih, ← Dict.nodup_step (v := n.id),
      ← Dict.isSome_get?_iff]
    simp

/-- No two of the edges have a tool of the same name, and none one that is taken. -/
theorem toolNameErrors_eq_nil_iff {byToolName : Dict String Edge}
    (h : ∀ e ∈ edges, e.toolName ≠ "") : toolNameErrors byToolName edges = [] ↔
      (edges.map Edge.toolName).Nodup ∧
        ∀ e ∈ edges, e.toolName ∉ byToolName.map Prod.fst := by
  induction edges generalizing byToolName with
  | nil => simp [toolNameErrors]
  | cons e edges ih =>
    rw [List.forall_mem_cons] at h
    rw [toolNameErrors, if_neg h.1, List.append_eq_nil_iff, ih h.2,
      ← Dict.nodup_step (v := e), ← Dict.get?_eq_none_iff]
    rcases byToolName.get? e.toolName with _ | clash <;> simp

theorem wiringErrors_eq_nil_iff (h : ∀ e ∈ edges, e.toolName ≠ "") :
    wiringErrors edges n = [] ↔ Wired edges n := by
  have htools : toolNameErrors [] (outEdges edges n.id) = [] ↔
      ((outEdges edges n.id).map Edge.toolName).Nodup := by
    rw [toolNameErrors_eq_nil_iff fun e he => h e (mem_outEdges_iff.1 he).1]
    simp
  rw [wiringErrors]
  by_cases hunwired : n.isUnwired
  · have htype : n.type = "global" := by simpa [Node.isUnwired, unwiredNodeTypes] using hunwired
    rw [if_pos hunwired]
    constructor
    · intro herr
      have hnone : inCount edges n.id = 0 ∧ outEdges edges n.id = [] := by simpa using herr
      exact ⟨fun _ => hnone, fun _ => hnone.1, by simp [htype], fun _ => hnone.2,
        fun h => absurd hunwired h, fun h => absurd hunwired h⟩
    · intro hwired
      simp [hwired.unwired hunwired]
  · rw [if_neg hunwired]
    simp only [List.append_eq_nil_iff, htools]
    constructor
    · rintro ⟨⟨⟨⟨hstart, hdestination⟩, hterminal⟩, hexits⟩, htools⟩
      exact ⟨fun h => absurd h hunwired, by simpa using hstart, by simpa using hdestination,
        by simpa using hterminal, fun _ => by simpa using hexits, fun _ => htools⟩
    · intro hwired
      refine ⟨⟨⟨⟨?_, ?_⟩, ?_⟩, ?_⟩, hwired.tools hunwired⟩
      · simpa using hwired.start
      · simpa using hwired.destination
      · simpa using hwired.terminal
      · simpa using hwired.exits hunwired

/-! ### Reading the nodes and the edges -/

/-- What a raw node is read as. -/
def ReadsNode (rawNode : Json) (n : Node) : Prop :=
  ∃ raw, rawNode = .obj raw ∧ nodeFromRaw raw = .ok n

/-- What a raw edge is read as. -/
def ReadsEdge (rawEdge : Json) (e : Edge) : Prop := ∃ raw, rawEdge = .obj raw ∧ e = edgeFromRaw raw

theorem readNode_eq_ok_iff : readNode (errors, d) rawNode = .ok ([], d') ↔
    errors = [] ∧ ∃ n, ReadsNode rawNode n ∧ NodeOk n ∧ n.id ∉ d.map Prod.fst ∧
      d' = d ++ [(n.id, n)] := by
  cases rawNode with
  | obj raw =>
    rcases hn : nodeFromRaw raw with error | n
    · simp [readNode, ReadsNode, hn, Except.map]
    · simp only [readNode, ReadsNode, hn, Except.map, Except.ok.injEq, Json.obj.injEq,
        exists_eq_left']
      split_ifs with hid hmem
      · simp only [Prod.mk.injEq, List.append_eq_nil_iff, List.cons_ne_nil, and_false, false_and,
          false_iff, not_and]
        exact fun _ hok => absurd hid hok.id_ne
      · simp only [Prod.mk.injEq, List.append_eq_nil_iff, List.cons_ne_nil, and_false, false_and,
          false_iff, not_and]
        exact fun _ _ hnew => absurd hmem hnew
      · simp only [Prod.mk.injEq, List.append_eq_nil_iff, nodeErrors_eq_nil_iff,
          Dict.set_of_notMem hmem]
        constructor
        · rintro ⟨⟨rfl, htype, hname⟩, rfl⟩
          exact ⟨rfl, ⟨hid, htype, hname⟩, hmem, rfl⟩
        · rintro ⟨rfl, hok, -, rfl⟩
          exact ⟨⟨rfl, hok.type_mem, hok.name_ne⟩, rfl⟩
  | _ => simp [readNode, ReadsNode]

/-- The nodes are read one after the other, and none has an id that is taken. -/
theorem foldlM_readNode_eq_ok_iff : rawNodes.foldlM readNode (errors, d) = .ok ([], d') ↔
    errors = [] ∧ ∃ ns, List.Forall₂ ReadsNode rawNodes ns ∧ (∀ n ∈ ns, NodeOk n) ∧
      (ns.map Node.id).Nodup ∧ (∀ n ∈ ns, n.id ∉ d.map Prod.fst) ∧
      d' = d ++ ns.map fun n => (n.id, n) := by
  induction rawNodes generalizing errors d with
  | nil =>
    simp only [List.foldlM_nil, pure, Except.pure, Except.ok.injEq, Prod.mk.injEq,
      List.forall₂_nil_left_iff, exists_eq_left]
    simp [eq_comm]
  | cons rawNode rawNodes ih =>
    rw [List.foldlM_cons]
    constructor
    · intro h
      rcases hread : readNode (errors, d) rawNode with error | ⟨errors', d₁⟩
      · rw [hread] at h
        cases h
      · rw [hread] at h
        obtain ⟨rfl, ns, hreads, hok, hnodup, hnew, rfl⟩ := ih.1 h
        obtain ⟨rfl, n, hn, hnok, hnnew, rfl⟩ := readNode_eq_ok_iff.1 hread
        rw [← Dict.set_of_notMem hnnew] at hnew
        obtain ⟨hnodup, hnew⟩ := Dict.nodup_step.1 ⟨hnnew, hnodup, hnew⟩
        exact ⟨rfl, n :: ns, .cons hn hreads, List.forall_mem_cons.2 ⟨hnok, hok⟩, hnodup, hnew,
          by simp⟩
    · rintro ⟨rfl, ns, hreads, hok, hnodup, hnew, rfl⟩
      obtain ⟨n, ns, hn, hreads', rfl⟩ := List.forall₂_cons_left_iff.1 hreads
      rw [List.forall_mem_cons] at hok
      obtain ⟨hnnew, hnodup, hnew⟩ := Dict.nodup_step (v := n).2 ⟨hnodup, hnew⟩
      rw [Dict.set_of_notMem hnnew] at hnew
      have hread : readNode ([], d) rawNode = .ok ([], d ++ [(n.id, n)]) :=
        readNode_eq_ok_iff.2 ⟨rfl, n, hn, hok.1, hnnew, rfl⟩
      rw [hread]
      exact ih.2 ⟨rfl, ns, hreads', hok.2, hnodup, hnew, by simp⟩

theorem readEdge_eq_iff {ids : List String} {edges' : List Edge} :
    readEdge ids (errors, edges) rawEdge = ([], edges') ↔
    errors = [] ∧ ∃ e, ReadsEdge rawEdge e ∧ EdgeOk ids e ∧ edges' = edges ++ [e] := by
  cases rawEdge with
  | obj raw =>
    simp only [readEdge, ReadsEdge, Json.obj.injEq, exists_eq_left', exists_eq_left]
    by_cases hsource : (edgeFromRaw raw).source ∈ ids
    · by_cases htarget : (edgeFromRaw raw).target ∈ ids
      · rw [if_neg (not_not.2 hsource), if_neg (not_not.2 htarget), Prod.mk.injEq,
          List.append_eq_nil_iff, edgeErrors_eq_nil_iff]
        constructor
        · rintro ⟨⟨rfl, hlabel, hname, hcondition⟩, rfl⟩
          exact ⟨rfl, ⟨hsource, htarget, hlabel, hname, hcondition⟩, rfl⟩
        · rintro ⟨rfl, hok, rfl⟩
          exact ⟨⟨rfl, hok.label_ne, hok.toolName_ne, hok.condition_ne⟩, rfl⟩
      · rw [if_neg (not_not.2 hsource), if_pos htarget]
        simp only [Prod.mk.injEq, List.append_eq_nil_iff, List.cons_ne_nil, and_false, false_and,
          false_iff, not_and]
        exact fun _ hok => absurd hok.target_mem htarget
    · rw [if_pos hsource]
      simp only [Prod.mk.injEq, List.append_eq_nil_iff, List.cons_ne_nil, and_false, false_and,
        false_iff, not_and]
      exact fun _ hok => absurd hok.source_mem hsource
  | _ => simp [readEdge, ReadsEdge]

/-- So are the edges, and each is between two nodes. -/
theorem foldl_readEdge_eq_iff {ids : List String} {edges' : List Edge} :
    rawEdges'.foldl (readEdge ids) (errors, edges) = ([], edges') ↔
    errors = [] ∧ ∃ es, List.Forall₂ ReadsEdge rawEdges' es ∧ (∀ e ∈ es, EdgeOk ids e) ∧
      edges' = edges ++ es := by
  induction rawEdges' generalizing errors edges with
  | nil =>
    rw [List.foldl_nil]
    simp [eq_comm]
  | cons rawEdge rawEdges' ih =>
    rw [List.foldl_cons]
    constructor
    · intro h
      rcases hread : readEdge ids (errors, edges) rawEdge with ⟨errors', edges₁⟩
      rw [hread] at h
      obtain ⟨rfl, es, hreads, hok, rfl⟩ := ih.1 h
      obtain ⟨rfl, e, he, heok, rfl⟩ := readEdge_eq_iff.1 hread
      exact ⟨rfl, e :: es, .cons he hreads, List.forall_mem_cons.2 ⟨heok, hok⟩, by simp⟩
    · rintro ⟨rfl, es, hreads, hok, rfl⟩
      obtain ⟨e, es, he, hreads', rfl⟩ := List.forall₂_cons_left_iff.1 hreads
      rw [List.forall_mem_cons] at hok
      have hread : readEdge ids ([], edges) rawEdge = ([], edges ++ [e]) :=
        readEdge_eq_iff.2 ⟨rfl, e, he, hok.1, rfl⟩
      rw [hread]
      exact ih.2 ⟨rfl, es, hreads', hok.2, by simp⟩

theorem Valid.ne_nil (h : Valid nodes edges) : nodes ≠ [] := by
  rintro rfl
  cases h.start

/-- The checks after the nodes are read. -/
theorem valid_iff (hnode : ∀ n ∈ nodes, NodeOk n) (hids : (nodes.map Node.id).Nodup) :
    rawEdges'.foldl (readEdge (nodes.map Node.id)) (nameErrors [] nodes ++ shapeErrors nodes, []) =
        ([], edges) ∧ nodes.flatMap (wiringErrors edges) = [] ↔
      List.Forall₂ ReadsEdge rawEdges' edges ∧ Valid nodes edges := by
  rw [foldl_readEdge_eq_iff, List.append_eq_nil_iff, nameErrors_eq_nil_iff, shapeErrors_eq_nil_iff,
    List.flatMap_eq_nil_iff]
  constructor
  · rintro ⟨⟨⟨⟨hnames, -⟩, hstart, hending, hglobal⟩, es, hreads, hedge, hes⟩, hwired⟩
    obtain rfl : edges = es := by simpa using hes
    refine ⟨hreads, hnode, hids, hnames, hstart, hending, hglobal, hedge, fun n hn => ?_⟩
    exact (wiringErrors_eq_nil_iff fun e he => (hedge e he).toolName_ne).1 (hwired n hn)
  · rintro ⟨hreads, h⟩
    refine ⟨⟨⟨⟨h.names, by simp⟩, h.start, h.ending, h.global⟩, edges, hreads, h.edge, by simp⟩,
      fun n hn => ?_⟩
    exact (wiringErrors_eq_nil_iff fun e he => (h.edge e he).toolName_ne).2 (h.wired n hn)

/-- The documents `parseGraph` accepts, and the graphs it returns. -/
theorem parseGraph_eq_ok_iff {raw : Json} : parseGraph raw = .ok g ↔
    ∃ fields rawNodes rawEdges' ns es, raw = .obj fields ∧
      Json.get fields "nodes" = .arr rawNodes ∧ rawEdges fields = some rawEdges' ∧
      List.Forall₂ ReadsNode rawNodes ns ∧ List.Forall₂ ReadsEdge rawEdges' es ∧
      Valid ns es ∧ g = buildGraph ns es := by
  have hvalues (ns : List Node) : (ns.map fun n => (n.id, n)).map Prod.snd = ns := by
    simp [Function.comp_def]
  constructor
  · intro h
    rw [parseGraph.eq_def] at h
    split at h
    next fields =>
      split at h
      next rawNode rawNodes hnodes =>
        split at h
        · cases h
        next rawEdges' hedges =>
          rcases hread : (rawNode :: rawNodes).foldlM readNode ([], []) with error | ⟨errors, d⟩
          · rw [hread] at h
            cases h
          · simp only [hread, bind, Except.bind] at h
            by_cases herrors : errors = []
            · subst herrors
              obtain ⟨-, ns, hreads, hok, hids, -, rfl⟩ := foldlM_readNode_eq_ok_iff.1 hread
              rw [if_neg (by simp), List.nil_append, hvalues] at h
              rcases hfold : rawEdges'.foldl (readEdge (ns.map Node.id))
                (nameErrors [] ns ++ shapeErrors ns, []) with ⟨errors', es⟩
              simp only [hfold] at h
              split_ifs at h with herrors'
              rw [not_not, List.append_eq_nil_iff] at herrors'
              obtain ⟨rfl, hwiring⟩ := herrors'
              obtain ⟨hreadEdges, hvalid⟩ := (valid_iff hok hids).1 ⟨hfold, hwiring⟩
              exact ⟨fields, _, rawEdges', ns, es, rfl, hnodes, hedges, hreads, hreadEdges, hvalid,
                (Except.ok.inj h).symm⟩
            · rw [if_pos herrors] at h
              cases h
      · cases h
    · cases h
  · rintro ⟨fields, rawNodes, rawEdges', ns, es, rfl, hnodes, hedges, hreads, hreadEdges, hvalid,
      rfl⟩
    obtain ⟨rawNode, rawNodes, rfl⟩ : ∃ x xs, rawNodes = x :: xs := by
      refine List.exists_cons_of_ne_nil ?_
      rintro rfl
      rw [List.forall₂_nil_left_iff] at hreads
      exact hvalid.ne_nil hreads
    have hread : (rawNode :: rawNodes).foldlM readNode ([], []) =
        .ok ([], ns.map fun n => (n.id, n)) :=
      foldlM_readNode_eq_ok_iff.2 ⟨rfl, ns, hreads, hvalid.node, hvalid.ids, by simp, by simp⟩
    obtain ⟨hfold, hwiring⟩ := (valid_iff hvalid.node hvalid.ids).2 ⟨hreadEdges, hvalid⟩
    simp only [parseGraph, hnodes, hedges, hread, bind, Except.bind, hvalues, hfold, hwiring]
    simp

/-! ### The graph that is built -/

omit [Runtime] in
theorem nodes_buildGraph : (buildGraph nodes edges).nodes.map Prod.fst = nodes.map Node.id := by
  simp [buildGraph, Function.comp_def]

omit [Runtime] in
theorem node?_buildGraph {id : String} : (buildGraph nodes edges).node? id =
    (nodes.find? (·.id = id)).map (·.withOutEdges edges) := by
  rw [WorkflowGraph.node?, Dict.get?, buildGraph, List.find?_map, Option.map_map]
  rfl

/-- A node is found by its id, with its edges. -/
theorem Valid.node?_of_mem (h : Valid nodes edges) (hn : n ∈ nodes) :
    (buildGraph nodes edges).node? n.id = some (n.withOutEdges edges) := by
  refine Dict.get?_eq_some_of_mem ?_ (List.mem_map_of_mem (f := fun n => (n.id, n.withOutEdges edges)) hn)
  rw [nodes_buildGraph]
  exact h.ids

theorem Valid.outEdges_buildGraph (h : Valid nodes edges) (id : String) :
    (buildGraph nodes edges).outEdges id = outEdges edges id := by
  rw [WorkflowGraph.outEdges, node?_buildGraph]
  rcases hfind : nodes.find? (·.id = id) with _ | n <;> rw [hfind]
  · -- No edge leaves what is no node.
    refine (List.filter_eq_nil_iff.2 fun e he hid => ?_).symm
    obtain ⟨n, hn, hsource⟩ := List.mem_map.1 (h.edge e he).source_mem
    have hnid : n.id = id := hsource.trans (by simpa using hid)
    exact absurd hnid (by simpa using List.find?_eq_none.1 hfind n hn)
  · have hid : n.id = id := by simpa using List.find?_some hfind
    rw [← hid]
    rfl

/-- The edges of the graph are those that were read. -/
theorem Valid.hasEdge_iff (h : Valid nodes edges) {m n : String} :
    (buildGraph nodes edges).HasEdge m n ↔ ∃ e ∈ edges, e.source = m ∧ e.target = n := by
  simp [WorkflowGraph.HasEdge, h.outEdges_buildGraph, mem_outEdges_iff, and_assoc]

theorem Valid.startsOf_eq (h : Valid nodes edges) : ∃ n ∈ nodes, n.type = "start" ∧
    startsOf nodes = [n] ∧ (buildGraph nodes edges).startNodeId = n.id := by
  obtain ⟨n, hn⟩ := List.length_eq_one_iff.1 h.start
  have hmem : n ∈ startsOf nodes := hn ▸ List.mem_singleton_self n
  rw [startsOf, List.mem_filter] at hmem
  exact ⟨n, hmem.1, by simpa using hmem.2, hn, by simp [buildGraph, hn]⟩

end Yuviz.Config
