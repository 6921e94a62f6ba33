import Yuviz.Config.Workflow.Valid
import Yuviz.Fixpoint

/-!
# The variables captured on every path

Extraction runs when a call leaves a step, so a step can count on the variables
declared by what every path to it goes through: a branch that bypasses the
capturing step must not count. `variablesAvailableAt` computes them by an
in-place iteration over the steps that are reached, which stops on every graph,
loops included (`availableIn_isSome`), and finds exactly what is `Inevitable` on
the walks from the start (`variablesAvailableAt_iff`).
-/

namespace Yuviz.Config

open Python

def Node.declares (n : Node) : Finset String :=
  match n.extraction with
  | some extraction =>
    if extraction.enabled then (extraction.vars.map ExtractionVariable.name).toFinset else ∅
  | none => ∅

namespace WorkflowGraph

section

variable (g : WorkflowGraph)

/-- One step of the search for each edge, and one for the start. -/
def reachableBound : ℕ := 1 + ∑ n ∈ (g.nodes.map Prod.fst).toFinset, (g.outEdges n).length

def reachable : Finset String :=
  (dfs (fun n => (g.outEdges n).map Edge.target) g.reachableBound [g.startNodeId] ∅).getD ∅

/-- `_declared_by`. -/
def declaredBy (n : String) : Finset String := ((g.node? n).map Node.declares).getD ∅

/-- `_incoming`. -/
def incoming (n : String) : List String :=
  g.nodes.flatMap fun e => (e.2.outEdges.filter (·.target = n)).map Edge.source

/-- The names any extraction may produce. -/
def declaredVariables : Finset String :=
  (g.nodes.map Prod.fst).toFinset.biUnion g.declaredBy

/-- What is guaranteed on entering `n`, as far as it is known on entering the
    steps before it. -/
def newIn (available : String → Finset String) (n : String) : Finset String :=
  match (g.incoming n).filter (· ∈ g.reachable) with
  | [] => ∅
  | pred :: preds =>
    preds.foldl (fun new p => new ∩ (available p ∪ g.declaredBy p))
      (available pred ∪ g.declaredBy pred)

/-- What a step is revised to. The start is not revised. -/
def revise (available : String → Finset String) (n : String) : Finset String :=
  if n = g.startNodeId then available n else g.newIn available n

/-- Nothing is guaranteed at the start; everything is elsewhere, until it is revised. -/
def initialIn (n : String) : Finset String := if n = g.startNodeId then ∅ else g.declaredVariables

/-- The loop, given a number of passes. -/
def availableIn [Runtime] (passes : ℕ) : Option (String → Finset String) :=
  InPlace.solve g.revise (Runtime.order g.reachable) passes g.initialIn

/-- Every pass but the last takes a variable away from a step. -/
def passBound : ℕ := g.reachable.card * g.declaredVariables.card + 1

/-- `_variables_available_at`. -/
def variablesAvailableAt [Runtime] (n : String) (leaving : Bool := false) : Finset String :=
  if n ∉ g.reachable then ∅
  else
    ((g.availableIn g.passBound).getD fun _ => ∅) n ∪ if leaving then g.declaredBy n else ∅

end

variable {g : WorkflowGraph} {available available' : String → Finset String} {m n v : String}

/-! ### Reachable steps -/

theorem outEdges_of_notMem (h : n ∉ g.nodes.map Prod.fst) : g.outEdges n = [] := by
  rw [outEdges, node?, Dict.get?_eq_none_iff.2 h]
  rfl

theorem reachable_isSome : (dfs (fun n => (g.outEdges n).map Edge.target) g.reachableBound
    [g.startNodeId] ∅).isSome := by
  let keys := (g.nodes.map Prod.fst).toFinset
  let found := keys ∪ insert g.startNodeId
    (keys.biUnion fun n => ((g.outEdges n).map Edge.target).toFinset)
  refine dfs_isSome (U := found) (fun n _ m hm => ?_) (fun n hn => ?_) ?_
  · by_cases hn : n ∈ g.nodes.map Prod.fst
    · refine Finset.mem_union_right _ (Finset.mem_insert_of_mem (Finset.mem_biUnion.2 ⟨n, ?_, ?_⟩))
      · exact List.mem_toFinset.2 hn
      · exact List.mem_toFinset.2 hm
    · rw [outEdges_of_notMem hn] at hm
      cases hm
  · rw [List.mem_singleton.1 hn]
    exact Finset.mem_union_right _ (Finset.mem_insert_self _ _)
  · -- Only a step of the graph has edges out of it.
    have hsum : ∑ n ∈ found, ((g.outEdges n).map Edge.target).length =
        ∑ n ∈ keys, (g.outEdges n).length := by
      simp only [List.length_map]
      refine (Finset.sum_subset Finset.subset_union_left fun n _ hn => ?_).symm
      rw [outEdges_of_notMem fun h => hn (List.mem_toFinset.2 h)]
      rfl
    rw [Finset.sdiff_empty, hsum]
    exact le_rfl

theorem mem_reachable_iff :
    n ∈ g.reachable ↔ Relation.ReflTransGen g.HasEdge g.startNodeId n := by
  obtain ⟨found, hfound⟩ := Option.isSome_iff_exists.1 (reachable_isSome (g := g))
  rw [reachable, hfound]
  exact mem_dfs_iff hfound n

/-! ### The loop stops -/

theorem mem_foldl_inter_iff {f : String → Finset String} {s : Finset String} {ps : List String} :
    v ∈ ps.foldl (fun new p => new ∩ f p) s ↔ v ∈ s ∧ ∀ p ∈ ps, v ∈ f p := by
  induction ps generalizing s with
  | nil => simp
  | cons p ps ih => rw [List.foldl_cons, ih, Finset.mem_inter, List.forall_mem_cons, and_assoc]

theorem mem_newIn_iff : v ∈ g.newIn available n ↔
    (∃ p ∈ g.incoming n, p ∈ g.reachable) ∧
      ∀ p ∈ g.incoming n, p ∈ g.reachable → v ∈ available p ∪ g.declaredBy p := by
  have hpreds (p : String) : p ∈ (g.incoming n).filter (· ∈ g.reachable) ↔
      p ∈ g.incoming n ∧ p ∈ g.reachable := by simp
  simp only [← and_imp, ← hpreds, newIn]
  rcases (g.incoming n).filter (· ∈ g.reachable) with _ | ⟨pred, preds⟩
  · simp
  · rw [mem_foldl_inter_iff]
    simp

theorem revise_mono : Monotone g.revise := by
  intro a b hab n
  rw [revise, revise]
  split_ifs
  · exact hab n
  · intro v hv
    rw [mem_newIn_iff] at hv ⊢
    exact ⟨hv.1, fun p hp hr => Finset.union_subset_union_left (hab p) (hv.2 p hp hr)⟩

theorem declaredBy_subset : g.declaredBy n ⊆ g.declaredVariables := by
  intro v hv
  rw [declaredVariables, Finset.mem_biUnion]
  by_cases hn : n ∈ g.nodes.map Prod.fst
  · exact ⟨n, List.mem_toFinset.2 hn, hv⟩
  · rw [declaredBy, node?, Dict.get?_eq_none_iff.2 hn] at hv
    cases hv

theorem initialIn_subset : g.initialIn n ⊆ g.declaredVariables := by
  rw [initialIn]
  split_ifs
  · exact Finset.empty_subset _
  · exact subset_rfl

theorem revise_initialIn_le : g.revise g.initialIn ≤ g.initialIn := by
  intro n
  rw [revise]
  split_ifs with hn
  · exact le_rfl
  · intro v hv
    obtain ⟨⟨p, hp, hr⟩, h⟩ := mem_newIn_iff.1 hv
    rw [initialIn, if_neg hn]
    exact Finset.union_subset initialIn_subset declaredBy_subset (h p hp hr)

/-- The loop stops at the greatest of what does not change when it is revised. -/
theorem availableIn_spec [Runtime] : ∃ a, g.availableIn g.passBound = some a ∧
    InPlace.Descends g.revise g.initialIn a ∧ ∀ n ∈ g.reachable, g.revise a n = a n := by
  have horder : (Runtime.order g.reachable).toFinset = g.reachable := by
    ext n
    rw [List.mem_toFinset, Runtime.mem_order]
  have hbound : ∑ n ∈ (Runtime.order g.reachable).toFinset, (g.initialIn n).card < g.passBound := by
    rw [horder, passBound, Nat.lt_succ_iff]
    exact Finset.sum_le_card_nsmul _ _ _ fun n _ => Finset.card_le_card initialIn_subset
  obtain ⟨a, ha, hdescends, hfix⟩ :=
    InPlace.solve_spec Finset.card_strictMono revise_mono revise_initialIn_le hbound
  exact ⟨a, ha, hdescends, fun n hn => hfix n ((Runtime.mem_order _ _).2 hn)⟩

/-! ### What the loop finds -/

/-- Every walk to `n` leaves a step that declares `v`. -/
def Captured (g : WorkflowGraph) (v n : String) : Prop :=
  Inevitable g.HasEdge g.startNodeId (fun m => v ∈ g.declaredBy m) n

end WorkflowGraph

variable [Runtime] {nodes : List Node} {edges : List Edge}

theorem Valid.mem_incoming_iff (h : Valid nodes edges) {p n : String} :
    p ∈ (buildGraph nodes edges).incoming n ↔ (buildGraph nodes edges).HasEdge p n := by
  rw [h.hasEdge_iff, WorkflowGraph.incoming, buildGraph]
  simp only [List.mem_flatMap, List.mem_map, List.mem_filter, exists_exists_and_eq_and]
  constructor
  · rintro ⟨n', hn', e, ⟨he, htarget⟩, hsource⟩
    exact ⟨e, (mem_outEdges_iff.1 he).1, hsource, by simpa using htarget⟩
  · rintro ⟨e, he, hsource, htarget⟩
    obtain ⟨n', hn', hid⟩ := List.mem_map.1 (h.edge e he).source_mem
    exact ⟨n', hn', e, ⟨mem_outEdges_iff.2 ⟨he, hid.symm⟩, by simpa using htarget⟩, hsource⟩

theorem Valid.captured_of_mem_availableIn (h : Valid nodes edges) {a : String → Finset String}
    (ha : a ≤ (buildGraph nodes edges).initialIn)
    (hfix : ∀ n ∈ (buildGraph nodes edges).reachable, (buildGraph nodes edges).revise a n = a n)
    {v n : String} (hn : n ∈ (buildGraph nodes edges).reachable) (hv : v ∈ a n) :
    (buildGraph nodes edges).Captured v n := by
  have hstart : v ∉ a (buildGraph nodes edges).startNodeId := by
    intro hv
    have := ha _ hv
    rw [WorkflowGraph.initialIn, if_pos rfl] at this
    cases this
  refine inevitable_of_forall_edge (A := fun n => n ∈ (buildGraph nodes edges).reachable ∧ v ∈ a n)
    (fun hv => hstart hv.2) (fun m n hm hE hv => ?_) ⟨hn, hv⟩
  have hne : n ≠ (buildGraph nodes edges).startNodeId := fun hn => hstart (hn ▸ hv.2)
  have hnew := hv.2
  rw [← hfix n hv.1, WorkflowGraph.revise, if_neg hne, WorkflowGraph.mem_newIn_iff] at hnew
  have hm := WorkflowGraph.mem_reachable_iff.2 hm
  rcases Finset.mem_union.1 (hnew.2 m (h.mem_incoming_iff.2 hE) hm) with hv | hv
  · exact .inr ⟨hm, hv⟩
  · exact .inl hv

/-- What is captured on every path does not change when it is revised, and so is in
    what the loop stops at. -/
theorem Valid.mem_availableIn_of_captured (h : Valid nodes edges) {a : String → Finset String}
    (ha : InPlace.Descends (buildGraph nodes edges).revise (buildGraph nodes edges).initialIn a)
    {v n : String} (hn : n ∈ (buildGraph nodes edges).reachable)
    (hv : (buildGraph nodes edges).Captured v n) : v ∈ a n := by
  classical
  set g := buildGraph nodes edges
  let captured : String → Finset String := fun n =>
    g.declaredVariables.filter fun v => n ∈ g.reachable ∧ g.Captured v n
  have hmem {v n : String} (hn : n ∈ g.reachable) (hv : g.Captured v n) : v ∈ captured n := by
    obtain ⟨l, hl⟩ := exists_walk_iff.2 (WorkflowGraph.mem_reachable_iff.1 hn)
    obtain ⟨m, -, hm⟩ := hv l hl
    exact Finset.mem_filter.2 ⟨WorkflowGraph.declaredBy_subset hm, hn, hv⟩
  refine ha.lower captured (fun n v hv => ?_) (fun n v hv => ?_) n (hmem hn hv)
  · rw [WorkflowGraph.revise]
    split_ifs with hne
    · exact hv
    · obtain ⟨-, hn, hv⟩ := Finset.mem_filter.1 hv
      rw [WorkflowGraph.mem_newIn_iff]
      constructor
      · -- A step other than the start is reached by an edge.
        rcases Relation.ReflTransGen.cases_tail (WorkflowGraph.mem_reachable_iff.1 hn) with
          hn | ⟨m, hm, hE⟩
        · exact absurd hn hne
        · exact ⟨m, h.mem_incoming_iff.2 hE, WorkflowGraph.mem_reachable_iff.2 hm⟩
      · intro p hp hr
        rcases hv.pred (h.mem_incoming_iff.1 hp) with hv | hv
        · exact Finset.mem_union_right _ hv
        · exact Finset.mem_union_left _ (hmem hr hv)
  · obtain ⟨hdeclared, -, hv⟩ := Finset.mem_filter.1 hv
    rw [WorkflowGraph.initialIn]
    split_ifs with hne
    · exact absurd (hne ▸ hv) not_inevitable_start
    · exact hdeclared

/-- The variables available at a step are those captured on every walk to it, and when
    it is left also its own. -/
theorem Valid.mem_variablesAvailableAt_iff (h : Valid nodes edges) {v n : String}
    (hn : n ∈ (buildGraph nodes edges).reachable) (leaving : Bool) :
    v ∈ (buildGraph nodes edges).variablesAvailableAt n leaving ↔
      (buildGraph nodes edges).Captured v n ∨
        leaving = true ∧ v ∈ (buildGraph nodes edges).declaredBy n := by
  obtain ⟨a, ha, hdescends, hfix⟩ := (buildGraph nodes edges).availableIn_spec
  rw [WorkflowGraph.variablesAvailableAt, if_neg (not_not.2 hn), ha, Option.getD_some,
    Finset.mem_union]
  refine or_congr ⟨fun hv => ?_, fun hv => ?_⟩ ?_
  · exact h.captured_of_mem_availableIn hdescends.le hfix hn hv
  · exact h.mem_availableIn_of_captured hdescends hn hv
  · rcases leaving <;> simp

/-- The iteration stops on every graph. On those that are accepted it finds what every
    walk from the start captures: before its last step, or up to it. -/
theorem variablesAvailableAt_iff_forall_walk :
    (∀ g : WorkflowGraph, (g.availableIn g.passBound).isSome) ∧
    ∀ raw g, parseGraph raw = .ok g → ∀ l₀ n, Walk g.HasEdge g.startNodeId l₀ n → ∀ v,
      (v ∈ g.variablesAvailableAt n ↔
        ∀ l, Walk g.HasEdge g.startNodeId l n → ∃ m ∈ l, v ∈ g.declaredBy m) ∧
      (v ∈ g.variablesAvailableAt n true ↔
        ∀ l, Walk g.HasEdge g.startNodeId l n → ∃ m ∈ l ++ [n], v ∈ g.declaredBy m) := by
  constructor
  · intro g
    obtain ⟨a, ha, -⟩ := g.availableIn_spec
    rw [ha]
    rfl
  · intro raw g hg l₀ n hl₀ v
    obtain ⟨-, -, -, nodes, edges, -, -, -, -, -, h, rfl⟩ := parseGraph_eq_ok_iff.1 hg
    have hn := WorkflowGraph.mem_reachable_iff.2 (exists_walk_iff.1 ⟨l₀, hl₀⟩)
    rw [h.mem_variablesAvailableAt_iff hn, h.mem_variablesAvailableAt_iff hn]
    constructor
    · simp only [Bool.false_eq_true, false_and, or_false]
      rfl
    · constructor
      · rintro (hv | ⟨-, hv⟩) l hl
        · obtain ⟨m, hm, hv⟩ := hv l hl
          exact ⟨m, List.mem_append_left _ hm, hv⟩
        · exact ⟨n, by simp, hv⟩
      · intro hv
        by_cases hvn : v ∈ (buildGraph nodes edges).declaredBy n
        · exact .inr ⟨rfl, hvn⟩
        · refine .inl fun l hl => ?_
          obtain ⟨m, hm, hvm⟩ := hv l hl
          rcases List.mem_append.1 hm with hm | hm
          · exact ⟨m, hm, hvm⟩
          · exact absurd (List.mem_singleton.1 hm ▸ hvm) hvn

/-- A flow that goes back to a step that captures a variable. -/
private def loopDocument : Json :=
  let step (id type captured : String) : Json := .obj
    [("id", .str id), ("type", .str type), ("data", .obj
      [("name", .str id), ("extraction", .obj
        [("enabled", .bool true), ("variables", .arr [.obj [("name", .str captured)]])])])]
  let connection (source target : String) : Json := .obj
    [("source", .str source), ("target", .str target), ("data", .obj
      [("label", .str target), ("condition", .str "when it is time")])]
  .obj
    [("nodes", .arr
      [step "start" "start" "", step "ask" "agent" "name", step "check" "agent" "email",
        step "bye" "end" ""]),
    ("edges", .arr
      [connection "start" "ask", connection "ask" "check", connection "check" "ask",
        connection "ask" "bye"])]

private def loopGraph : WorkflowGraph :=
  ((@parseGraph .ascii loopDocument).toOption).getD ⟨[], ""⟩

omit [Runtime] in
theorem variablesAvailableAt_iff_forall_walk_loop :
    @parseGraph .ascii loopDocument = .ok loopGraph ∧
    ("name" ∈ @WorkflowGraph.variablesAvailableAt loopGraph .ascii "bye" false ↔
      ∀ l, Walk loopGraph.HasEdge loopGraph.startNodeId l "bye" →
        ∃ m ∈ l, "name" ∈ loopGraph.declaredBy m) := by
  have hg : @parseGraph .ascii loopDocument = .ok loopGraph := rfl
  have hwalk : Walk loopGraph.HasEdge "start" ["start", "ask"] "bye" :=
    .snoc (.snoc .nil (show "ask" ∈ (loopGraph.outEdges "start").map Edge.target by decide))
      (show "bye" ∈ (loopGraph.outEdges "ask").map Edge.target by decide)
  exact ⟨hg, ((@variablesAvailableAt_iff_forall_walk .ascii).2 _ _ hg _ _ hwalk _).1⟩

end Yuviz.Config
