import Mathlib
import Yuviz.Config.Deps
import Yuviz.Config.Workflows

/-!
# What is stored of a graph

What comes back of a graph that was read back before, and stored with other texts in
its first step and its always-on instruction: it is read as the same nodes and edges
but for these texts, so it is accepted as well, and they are those of the columns
(`parseGraph_mirror`, `columnPrompts_mirror`).
-/

namespace Yuviz.Config.Workflows

open Python

variable {a b c d d' raw data fields graph graph' : Dict String Json} {x y v : Json} {k t : String}
  {nds nds' eds : List (Dict String Json)} {prompts : Option String × Option String}

/-! ### What is read back -/

section Load

variable [Jsonb]

/-- Reading it back makes no other value of it. -/
def Fixed (x : Json) : Prop := ∀ y, Jsonb.load x = some y → y = x

/-- What has been read back. -/
def Loaded (graph : Dict String Json) : Prop := Jsonb.load (.obj graph) = some (.obj graph)

theorem stored_eq_ok_iff : stored graph = .ok graph' ↔
    Jsonb.load (.obj graph) = some (.obj graph') := by
  rw [stored]
  split <;> simp_all

variable [LawfulJsonb]

/-- A graph that was stored is one that can be loaded. -/
theorem loaded_of_stored (h : stored graph = .ok graph') : Loaded graph' :=
  LawfulJsonb.load_load (stored_eq_ok_iff.1 h)

theorem Loaded.eq_self (h : Loaded graph) : (Json.obj graph).eq (.obj graph) = true :=
  LawfulJsonb.eq_self h

theorem fixed_str (s : String) : Fixed (.str s) := fun _ => LawfulJsonb.load_str

omit [LawfulJsonb] in
theorem fixed_of_load (h : Jsonb.load x = some x) : Fixed x :=
  fun _ hy => (Option.some.inj (h.symm.trans hy)).symm

theorem exists_get?_of_load (h : Jsonb.load (.obj d) = some (.obj a)) (hv : d.get? k = some v) :
    ∃ w, a.get? k = some w ∧ Jsonb.load v = some w := by
  obtain ⟨a', ha, hrel⟩ := LawfulJsonb.load_obj h
  obtain rfl := Json.obj.inj ha
  have hk := hrel k
  rw [hv] at hk
  rcases hw : Dict.get? a k with _ | w
  · rw [hw] at hk
    cases hk
  · rw [hw] at hk
    cases hk with
    | some hk => exact ⟨w, rfl, hk⟩

/-- The fields of a value that has been read back are such values. -/
theorem load_of_get?_eq_some (h : Jsonb.load (.obj d) = some (.obj d)) (hv : d.get? k = some v) :
    Jsonb.load v = some v := by
  obtain ⟨w, hw, hload⟩ := exists_get?_of_load h hv
  obtain rfl := Option.some.inj (hv.symm.trans hw)
  exact hload

/-- And so are the items. -/
theorem load_of_mem {items : List Json} (h : Jsonb.load (.arr items) = some (.arr items))
    (hx : x ∈ items) : Jsonb.load x = some x := by
  obtain ⟨items', hitems, hrel⟩ := LawfulJsonb.load_arr h
  obtain rfl := Json.arr.inj hitems
  exact List.forall₂_same.1 hrel x hx

/-- An object whose fields are kept has the same fields when it is read back. -/
theorem get?_of_load (h : Jsonb.load (.obj d) = some (.obj a))
    (hv : d.get? k = none ∨ ∃ v, d.get? k = some v ∧ Fixed v) : a.get? k = d.get? k := by
  obtain hnone | ⟨v, hv, hfixed⟩ := hv
  · obtain ⟨a', ha, hrel⟩ := LawfulJsonb.load_obj h
    obtain rfl := Json.obj.inj ha
    have hk := hrel k
    rw [hnone] at hk ⊢
    rcases hw : Dict.get? a k with _ | w
    · rfl
    · rw [hw] at hk
      cases hk
  · obtain ⟨w, hw, hload⟩ := exists_get?_of_load h hv
    rw [hw, hv, hfixed w hload]

/-- So has an object that has been read back. -/
theorem get?_of_load_of_get?_eq (h : Jsonb.load (.obj d) = some (.obj a))
    (hb : Jsonb.load (.obj b) = some (.obj b)) (hk : d.get? k = b.get? k) :
    a.get? k = b.get? k := by
  rw [get?_of_load h, hk]
  rw [hk]
  rcases hfield : b.get? k with _ | v
  · exact .inl rfl
  · exact .inr ⟨v, rfl, fixed_of_load (load_of_get?_eq_some hb hfield)⟩

end Load

/-! ### Equivalent graphs -/

theorem eq_pick {keys : List String} (h : (Json.obj d).eq (.obj d) = true) :
    (Json.obj (pick keys d)).eq (.obj (pick keys d)) = true := by
  rw [Json.eq, Bool.and_eq_true, Json.eqFields_iff, List.all_eq_true]
  refine ⟨fun f hf => ?_, fun f hf => decide_eq_true (List.mem_map_of_mem hf)⟩
  obtain ⟨k, hk, hmap⟩ := List.mem_filterMap.1 hf
  obtain ⟨v, hv, rfl⟩ := Option.map_eq_some_iff.1 hmap
  refine ⟨v, by rw [get?_pick, if_pos hk, hv], ?_⟩
  have hself := Json.optionEq_get? h k
  rw [hv] at hself
  cases hself with
  | some hself => exact hself

theorem eq_of_mem_objects (h : x.eq x = true) (hobjects : objects x = some nds) (hd : d ∈ nds) :
    (Json.obj d).eq (.obj d) = true := by
  by_cases hx : x.truthy
  · obtain rfl := objects_of_truthy hobjects hx
    rw [Json.eq, Json.eqItems_iff, List.forall₂_same] at h
    exact h _ (List.mem_map_of_mem hd)
  · rw [objects_of_not_truthy hobjects hx] at hd
    cases hd

variable [Runtime]

/-- Graphs equivalent to the same one are equivalent, -/
theorem graphsEquivalent_trans (hab : graphsEquivalent (some a) (some b) = some true)
    (hbc : graphsEquivalent (some b) (some c) = some true) :
    graphsEquivalent (some a) (some c) = some true := by
  simp only [graphsEquivalent, bind, Option.bind_eq_some_iff, Option.some.injEq] at *
  obtain ⟨viewA, ha, viewB, hb, hab⟩ := hab
  obtain ⟨viewB', hb', viewC, hc, hbc⟩ := hbc
  obtain rfl := Option.some.inj (hb.symm.trans hb')
  exact ⟨viewA, ha, viewC, hc, Json.eq_trans hab hbc⟩

theorem eq_sortById (keys : List String) (h : x.eq x = true) (hobjects : objects x = some nds) :
    (Json.arr ((sortById (nds.map (pick keys))).map .obj)).eq
      (.arr ((sortById (nds.map (pick keys))).map .obj)) = true := by
  rw [Json.eq, Json.eqItems_iff, List.forall₂_same]
  intro y hy
  obtain ⟨d, hd, rfl⟩ := List.mem_map.1 hy
  have hperm : (sortById (nds.map (pick keys))).Perm (nds.map (pick keys)) :=
    List.perm_insertionSort _ _
  obtain ⟨d', hd', rfl⟩ := List.mem_map.1 (hperm.mem_iff.1 hd)
  exact eq_pick (eq_of_mem_objects h hobjects hd')

/-- and a graph is so to itself, if all of it is equal to itself. -/
theorem graphsEquivalent_self (h : (Json.obj a).eq (.obj a) = true)
    (hn : objects (Json.get a "nodes") = some nds) (he : objects (Json.get a "edges") = some eds) :
    graphsEquivalent (some a) (some a) = some true := by
  have hversion := Json.get_eq h "version"
  have hnodes := eq_sortById rfNodeLogic (Json.get_eq h "nodes") hn
  have hedges := eq_sortById rfEdgeLogic (Json.get_eq h "edges") he
  simp only [graphsEquivalent, logicView, hn, he, bind, Option.bind_some, Option.some.injEq]
  simp [Json.eq.eq_4, Json.eqFields, Dict.get?, hversion, hnodes, hedges]

/-! ### The texts of a mirrored graph -/

omit [Runtime] in
theorem isType_iff : isType d t ↔ Json.get d "type" = .str t := Json.eq_str_iff

omit [Runtime] in
theorem get_set {k' : String} :
    Json.get (d.set k v) k' = if k' = k then v else Json.get d k' := by
  rw [Json.get, Dict.get?_set]
  split_ifs <;> rfl

omit [Runtime] in
theorem dataObject_of_get (h : Json.get raw "data" = .obj data) : dataObject raw = data := by
  rw [dataObject, h]

omit [Runtime] in
theorem dataObject_set : dataObject (raw.set "data" (.obj data)) = data :=
  dataObject_of_get (by rw [get_set, if_pos rfl])

/-- A node is neither. -/
theorem get?_mirrorData : (mirrorData fields raw data).get? k =
    if k = "prompt" ∧ isType raw "global" ∧ contains fields "system_prompt" then
      some (.str (coercePrompt (Json.get fields "system_prompt")))
    else if k = "greeting" ∧ isType raw "start" ∧ contains fields "greeting" then
      some (.str (coercePrompt (Json.get fields "greeting")))
    else data.get? k := by
  have hne : isType raw "global" → ¬ isType raw "start" := by
    rw [isType_iff, isType_iff]
    intro h h'
    exact absurd (Json.str.inj (h.symm.trans h')) (by decide)
  rw [mirrorData]
  by_cases hg : isType raw "global" ∧ contains fields "system_prompt"
  · rw [if_pos hg, if_neg fun h => hne hg.1 h.1, Dict.get?_set]
    by_cases hk : k = "prompt"
    · rw [if_pos hk, if_pos ⟨hk, hg⟩]
    · rw [if_neg hk, if_neg fun h => hk h.1, if_neg fun h => hne hg.1 h.2.1]
  · rw [if_neg hg, if_neg (fun h : k = "prompt" ∧ _ => hg h.2)]
    by_cases hs : isType raw "start" ∧ contains fields "greeting"
    · rw [if_pos hs, Dict.get?_set]
      by_cases hk : k = "greeting"
      · rw [if_pos hk, if_pos ⟨hk, hs⟩]
      · rw [if_neg hk, if_neg fun h => hk h.1]
    · rw [if_neg hs, if_neg (fun h : k = "greeting" ∧ _ => hs h.2)]

/-- What becomes of a node whose data is an object. -/
def Mirrors (fields raw raw' : Dict String Json) : Prop :=
  ∃ data, Json.get raw "data" = .obj data ∧
    raw' = raw.set "data" (.obj (mirrorData fields raw data))

theorem mirrors_of_mirrorNode (hdata : Json.get raw "data" = .obj data)
    (h : mirrorNode fields raw = .ok d) : Mirrors fields raw d := by
  have hdict : dictOf (Json.get raw "data") = .ok data := by
    rw [dictOf.eq_def, hdata]
    rcases data with _ | ⟨f, data⟩ <;> rfl
  rw [mirrorNode, hdict] at h
  exact ⟨data, hdata, (Except.ok.inj h).symm⟩

theorem Mirrors.isType_iff (h : Mirrors fields d d') : isType d' t ↔ isType d t := by
  obtain ⟨data, -, rfl⟩ := h
  rw [isType, isType, get_set, if_neg (by decide)]

/-- What becomes of a text. -/
def overwrite (fields : Dict String Json) (key : String) (old : String) : String :=
  if contains fields key then coercePrompt (Json.get fields key) else old

/-- What becomes of the texts that have been found. -/
def overwritten (fields : Dict String Json) (prompts : Option String × Option String) :
    Option String × Option String :=
  (prompts.1.map (overwrite fields "greeting"), prompts.2.map (overwrite fields "system_prompt"))

/-- A node that mirrors the fields has their texts, if it is one that has texts. -/
theorem Mirrors.readPrompts_eq (h : Mirrors fields d d') (prompts : Option String × Option String) :
    readPrompts (overwritten fields prompts) d' = overwritten fields (readPrompts prompts d) := by
  have htype {t : String} : isType d' t ↔ isType d t := h.isType_iff
  obtain ⟨data, hdata, rfl⟩ := h
  have hdata' := dataObject_of_get hdata
  by_cases hs : isType d "start"
  · rw [readPrompts, readPrompts, if_pos (htype.2 hs), if_pos hs, dataObject_set,
      hdata', Json.get, get?_mirrorData, if_neg (by simp), overwritten, overwritten]
    by_cases hc : contains fields "greeting"
    · rw [if_pos ⟨rfl, hs, hc⟩]
      simp [overwrite, hc, coercePrompt, Json.toStr]
    · rw [if_neg fun h => hc h.2.2]
      simp [overwrite, hc, Json.get]
  · rw [readPrompts, readPrompts, if_neg fun h => hs (htype.1 h), if_neg hs]
    by_cases hg : isType d "global"
    · rw [if_pos (htype.2 hg), if_pos hg, dataObject_set, hdata', Json.get, get?_mirrorData,
        overwritten, overwritten]
      by_cases hc : contains fields "system_prompt"
      · rw [if_pos ⟨rfl, hg, hc⟩]
        simp [overwrite, hc, coercePrompt, Json.toStr]
      · rw [if_neg fun h => hc h.2.2, if_neg (by simp)]
        simp [overwrite, hc, Json.get]
    · rw [if_neg fun h => hg (htype.1 h), if_neg hg]

/-- So have the nodes of a graph. -/
theorem foldl_readPrompts (h : List.Forall₂ (Mirrors fields) nds nds')
    (prompts : Option String × Option String) :
    nds'.foldl readPrompts (overwritten fields prompts) =
      overwritten fields (nds.foldl readPrompts prompts) := by
  induction h generalizing prompts with
  | nil => rfl
  | cons h _ ih => rw [List.foldl_cons, List.foldl_cons, h.readPrompts_eq, ih]

theorem isSome_foldl_readPrompts (nds : List (Dict String Json))
    (prompts : Option String × Option String) :
    ((nds.foldl readPrompts prompts).1.isSome ↔ prompts.1.isSome ∨ nds.any (isType · "start")) ∧
    ((nds.foldl readPrompts prompts).2.isSome ↔
      prompts.2.isSome ∨ nds.any (isType · "global")) := by
  induction nds generalizing prompts with
  | nil => simp
  | cons d nds ih =>
    have hne : isType d "start" → ¬ isType d "global" := by
      rw [isType_iff, isType_iff]
      intro h h'
      exact absurd (Json.str.inj (h.symm.trans h')) (by decide)
    rw [List.foldl_cons, List.any_cons, List.any_cons, (ih _).1, (ih _).2, readPrompts]
    by_cases hs : isType d "start"
    · simp [hs, hne hs]
    · by_cases hg : isType d "global" <;> simp [hs, hg]

omit [Runtime] in
theorem objects_arr : objects (.arr (nds.map .obj)) = some nds := by
  rcases nds with _ | ⟨d, nds⟩
  · rfl
  · rw [objects.eq_def, if_pos (by rfl)]
    dsimp only
    induction d :: nds with
    | nil => rfl
    | cons d nds ih => rw [List.map_cons, List.mapM_cons, ih]; rfl

/-- The data of the nodes are objects. -/
def ObjectData (graph : Dict String Json) : Prop :=
  ∀ nds, objects (Json.get graph "nodes") = some nds → ∀ d ∈ nds, ∃ data,
    Json.get d "data" = .obj data

theorem forall₂_mirrors (hdata : ∀ d ∈ nds, ∃ data, Json.get d "data" = .obj data)
    (h : nds.mapM (mirrorNode fields) = .ok nds') : List.Forall₂ (Mirrors fields) nds nds' := by
  induction nds generalizing nds' with
  | nil =>
    obtain rfl := Except.ok.inj h
    exact .nil
  | cons d nds ih =>
    rw [List.forall_mem_cons] at hdata
    rw [List.mapM_cons] at h
    obtain ⟨d', hd, h⟩ := bind_eq_ok h
    obtain ⟨nds', hnds, h⟩ := bind_eq_ok h
    obtain rfl := Except.ok.inj h
    obtain ⟨data, hobj⟩ := hdata.1
    exact .cons (mirrors_of_mirrorNode hobj hd) (ih hdata.2 hnds)

/-- What is mirrored into a graph whose nodes have objects for their data. -/
theorem mirrorPromptsIntoGraph_eq_ok (hdata : ObjectData graph)
    (h : mirrorPromptsIntoGraph graph fields = .ok graph')
    (hc : contains fields "greeting" ∨ contains fields "system_prompt") :
    ∃ nds nds', objects (Json.get graph "nodes") = some nds ∧
      List.Forall₂ (Mirrors fields) nds nds' ∧
      graph' = graph.set "nodes" (.arr (nds'.map .obj)) ∧
      (contains fields "greeting" → nds.any (isType · "start")) ∧
      (contains fields "system_prompt" → nds.any (isType · "global")) := by
  rw [mirrorPromptsIntoGraph.eq_def, if_neg (by tauto)] at h
  rcases hn : objects (Json.get graph "nodes") with _ | nds
  · rw [hn] at h
    cases h
  · rw [hn] at h
    obtain ⟨_, hrequired, h⟩ := bind_eq_ok h
    obtain ⟨nds', hnds, h⟩ := bind_eq_ok h
    rw [requirePromptNodes] at hrequired
    split_ifs at hrequired with hhash hstart hglobal
    refine ⟨nds, nds', rfl, forall₂_mirrors (hdata nds hn) hnds, (Except.ok.inj h).symm, ?_, ?_⟩
    · tauto
    · tauto

theorem columnPrompts_mirror (hdata : ObjectData graph)
    (h : mirrorPromptsIntoGraph graph fields = .ok graph')
    (hc : contains fields "greeting" ∨ contains fields "system_prompt") :
    columnPrompts graph' = (overwrite fields "greeting" (columnPrompts graph).1,
      overwrite fields "system_prompt" (columnPrompts graph).2) := by
  obtain ⟨nds, nds', hn, hmirrors, rfl, hstart, hglobal⟩ := mirrorPromptsIntoGraph_eq_ok hdata h hc
  obtain ⟨hsome, hsome'⟩ := isSome_foldl_readPrompts nds (none, none)
  have hprompts : promptsFromGraph (graph.set "nodes" (.arr (nds'.map .obj))) =
      overwritten fields (promptsFromGraph graph) := by
    rw [promptsFromGraph, promptsFromGraph, get_set, if_pos rfl, objects_arr, hn]
    exact foldl_readPrompts hmirrors (none, none)
  rw [columnPrompts, columnPrompts, hprompts, overwritten, promptsFromGraph, hn, Option.getD_some]
  refine Prod.ext ?_ ?_
  · rcases hfirst : (nds.foldl readPrompts (none, none)).1 with _ | text
    · have hno : ¬ contains fields "greeting" := fun hc => by
        have := hsome.2 (.inr (hstart hc))
        rw [hfirst] at this
        cases this
      simp [overwrite, hno]
    · rfl
  · rcases hsecond : (nds.foldl readPrompts (none, none)).2 with _ | text
    · have hno : ¬ contains fields "system_prompt" := fun hc => by
        have := hsome'.2 (.inr (hglobal hc))
        rw [hsecond] at this
        cases this
      simp [overwrite, hno]
    · rfl

/-! ### What is read of a graph, and of what is stored of it -/

/-- Two nodes of which the same is read. -/
structure SameReads (d d' : Dict String Json) : Prop where
  field : ∀ k, k ≠ "data" → Dict.get? d' k = Dict.get? d k
  data : ∀ k, Dict.get? (dataObject d') k = Dict.get? (dataObject d) k

omit [Runtime] in
theorem SameReads.get (h : SameReads d d') (hk : k ≠ "data") : Json.get d' k = Json.get d k := by
  rw [Json.get, Json.get, h.field k hk]

omit [Runtime] in
theorem SameReads.get_data (h : SameReads d d') (k : String) :
    Json.get (dataObject d') k = Json.get (dataObject d) k := by
  rw [Json.get, Json.get, h.data]

/-- Nodes that are read alike have the same texts, -/
theorem SameReads.readPrompts_eq (h : SameReads d d') :
    readPrompts prompts d' = readPrompts prompts d := by
  rw [readPrompts, readPrompts, isType, isType, isType, isType,
    h.get (by decide), h.get_data, h.get_data]

/-- and are the same. -/
theorem SameReads.nodeFromRaw_eq (h : SameReads d d') : nodeFromRaw d' = nodeFromRaw d := by
  simp only [nodeFromRaw, h.get_data, h.get (show "id" ≠ "data" by decide),
    h.get (show "type" ≠ "data" by decide)]

omit [Runtime] in
theorem get?_of_get_eq_obj (h : Json.get d k = .obj data) : d.get? k = some (.obj data) := by
  rw [Json.get] at h
  rcases hfield : d.get? k with _ | v
  · rw [hfield] at h
    cases h
  · rw [hfield, Option.getD_some] at h
    rw [h]

section

variable [Jsonb] [LawfulJsonb]

/-- A node that has been read back, and is stored with other texts. -/
theorem Mirrors.sameReads (h : Mirrors fields d a) (hd : Jsonb.load (.obj d) = some (.obj d))
    (ha : Jsonb.load (.obj a) = some (.obj b)) : SameReads a b := by
  obtain ⟨data, hdata, rfl⟩ := h
  have hloaded := load_of_get?_eq_some hd (get?_of_get_eq_obj hdata)
  constructor
  · intro k hk
    have hget : (d.set "data" (.obj (mirrorData fields d data))).get? k = d.get? k := by
      rw [Dict.get?_set, if_neg hk]
    rw [hget]
    exact get?_of_load_of_get?_eq ha hd hget
  · have hset : (d.set "data" (.obj (mirrorData fields d data))).get? "data" =
        some (.obj (mirrorData fields d data)) := by rw [Dict.get?_set, if_pos rfl]
    obtain ⟨v, hv, hload⟩ := exists_get?_of_load ha hset
    obtain ⟨data', rfl, -⟩ := LawfulJsonb.load_obj hload
    have hdata' : dataObject b = data' := dataObject_of_get (by rw [Json.get, hv]; rfl)
    intro k
    rw [dataObject_set, hdata']
    refine get?_of_load hload ?_
    rw [get?_mirrorData]
    split_ifs
    · exact .inr ⟨_, rfl, fixed_str _⟩
    · exact .inr ⟨_, rfl, fixed_str _⟩
    · rcases hk : Dict.get? data k with _ | w
      · exact .inl rfl
      · exact .inr ⟨w, rfl, fixed_of_load (load_of_get?_eq_some hloaded hk)⟩

omit [Runtime] in
theorem load_of_mem_objects (h : Loaded graph)
    (hn : objects (Json.get graph "nodes") = some nds) (hd : d ∈ nds) :
    Jsonb.load (.obj d) = some (.obj d) := by
  by_cases htruthy : (Json.get graph "nodes").truthy
  · have harr := objects_of_truthy hn htruthy
    rw [Json.get] at harr
    rcases hfield : graph.get? "nodes" with _ | v
    · rw [hfield] at harr
      cases harr
    · rw [hfield, Option.getD_some] at harr
      subst harr
      exact load_of_mem (load_of_get?_eq_some h hfield) (List.mem_map_of_mem hd)
  · rw [objects_of_not_truthy hn htruthy] at hd
    cases hd

omit [Runtime] in
/-- The nodes of a graph that is loaded are the nodes, each loaded. -/
theorem objects_of_load {items : List Json}
    (h : List.Forall₂ (fun y y' => Jsonb.load y = some y') (nds.map .obj) items) :
    ∃ nds', items = nds'.map .obj ∧
      List.Forall₂ (fun d d' => Jsonb.load (.obj d) = some (.obj d')) nds nds' := by
  induction nds generalizing items with
  | nil =>
    obtain rfl := List.forall₂_nil_left_iff.1 h
    exact ⟨[], rfl, .nil⟩
  | cons d nds ih =>
    obtain ⟨x, items, hx, hitems, rfl⟩ := List.forall₂_cons_left_iff.1 h
    obtain ⟨nds', rfl, hnds⟩ := ih hitems
    obtain ⟨d', rfl, -⟩ := LawfulJsonb.load_obj hx
    exact ⟨d' :: nds', rfl, .cons hx hnds⟩

theorem forall₂_sameReads (h : List.Forall₂ (Mirrors fields) nds nds')
    (hloaded : ∀ d ∈ nds, Jsonb.load (.obj d) = some (.obj d))
    (hload : List.Forall₂ (fun d d' => Jsonb.load (.obj d) = some (.obj d')) nds' eds) :
    List.Forall₂ SameReads nds' eds := by
  induction h generalizing eds with
  | nil =>
    obtain rfl := List.forall₂_nil_left_iff.1 hload
    exact .nil
  | cons h _ ih =>
    obtain ⟨d', eds, hd, heds, rfl⟩ := List.forall₂_cons_left_iff.1 hload
    rw [List.forall_mem_cons] at hloaded
    exact .cons (h.sameReads hloaded.1 hd) (ih hloaded.2 heds)

/-- A graph that has been read back, and is stored with other texts. -/
theorem stored_mirror (hloaded : Loaded graph)
    (hn : objects (Json.get graph "nodes") = some nds)
    (hmirrors : List.Forall₂ (Mirrors fields) nds nds')
    (hst : stored (graph.set "nodes" (.arr (nds'.map .obj))) = .ok graph') :
    Json.get graph' "edges" = Json.get graph "edges" ∧
      ∃ nds'', objects (Json.get graph' "nodes") = some nds'' ∧
        List.Forall₂ SameReads nds' nds'' := by
  have hload := stored_eq_ok_iff.1 hst
  constructor
  · rw [Json.get, Json.get, get?_of_load_of_get?_eq hload hloaded]
    rw [Dict.get?_set, if_neg (by decide)]
  · have hset : (graph.set "nodes" (.arr (nds'.map .obj))).get? "nodes" =
        some (.arr (nds'.map .obj)) := by rw [Dict.get?_set, if_pos rfl]
    obtain ⟨v, hv, hitems⟩ := exists_get?_of_load hload hset
    obtain ⟨items, rfl, hforall⟩ := LawfulJsonb.load_arr hitems
    obtain ⟨nds'', rfl, hnds⟩ := objects_of_load hforall
    refine ⟨nds'', ?_, forall₂_sameReads hmirrors
      (fun d hd => load_of_mem_objects hloaded hn hd) hnds⟩
    rw [Json.get, hv]
    exact objects_arr

end

/-! ### What is stored is accepted -/

theorem foldl_readPrompts_of_sameReads (h : List.Forall₂ SameReads nds nds')
    (prompts : Option String × Option String) :
    nds'.foldl readPrompts prompts = nds.foldl readPrompts prompts := by
  induction h generalizing prompts with
  | nil => rfl
  | cons h _ ih => rw [List.foldl_cons, List.foldl_cons, h.readPrompts_eq, ih]

/-- A node apart from the texts that are mirrored. -/
def bare (n : Node) : Node := { n with prompt := "", greeting := none }

/-- A mirror changes the texts of a node only. -/
theorem Mirrors.map_bare (h : Mirrors fields d d') :
    (nodeFromRaw d').map bare = (nodeFromRaw d).map bare := by
  obtain ⟨data, hdata, rfl⟩ := h
  have hget (k : String) (hk : k ≠ "prompt" ∧ k ≠ "greeting") :
      Json.get (mirrorData fields d data) k = Json.get data k := by
    rw [Json.get, get?_mirrorData, if_neg fun h => hk.1 h.1, if_neg fun h => hk.2 h.1]
    rfl
  have hid : Json.get (d.set "data" (.obj (mirrorData fields d data))) "id" = Json.get d "id" := by
    rw [get_set, if_neg (by decide)]
  have htype : Json.get (d.set "data" (.obj (mirrorData fields d data))) "type" =
      Json.get d "type" := by
    rw [get_set, if_neg (by decide)]
  rw [nodeFromRaw, nodeFromRaw, dataObject_set, dataObject_of_get hdata, hid, htype]
  simp (disch := decide) only [hget]
  rcases delayedStartMs (Json.get data "delayed_start_ms") with error | delay
  · rfl
  · rfl

variable {ns ns' : List Node} {es : List Edge}

omit [Runtime] in
theorem map_eq_of_map_bare {β : Type*} {f : Node → β} (hf : ∀ n, f (bare n) = f n)
    (h : ns'.map bare = ns.map bare) : ns'.map f = ns.map f := by
  have hmap := congrArg (List.map f) h
  rwa [List.map_map, List.map_map, show f ∘ bare = f from funext hf] at hmap

omit [Runtime] in
theorem exists_bare_eq (h : ns'.map bare = ns.map bare) {n : Node} (hn : n ∈ ns') :
    ∃ m ∈ ns, bare m = bare n := by
  have hmem : bare n ∈ ns.map bare := h ▸ List.mem_map_of_mem hn
  exact List.mem_map.1 hmem

omit [Runtime] in
/-- What does not look at the texts counts the same nodes. -/
theorem length_filter_eq {p : Node → Bool} (hp : ∀ n, p (bare n) = p n)
    (h : ns'.map bare = ns.map bare) : (ns'.filter p).length = (ns.filter p).length := by
  have hcount := congrArg (List.countP p) h
  rwa [List.countP_map, List.countP_map, show p ∘ bare = p from funext hp,
    List.countP_eq_length_filter, List.countP_eq_length_filter] at hcount

omit [Runtime] in
theorem nodeOk_bare {n : Node} : NodeOk (bare n) ↔ NodeOk n :=
  ⟨fun h => ⟨h.id_ne, h.type_mem, h.name_ne⟩, fun h => ⟨h.id_ne, h.type_mem, h.name_ne⟩⟩

theorem wired_bare {n : Node} : Wired es (bare n) ↔ Wired es n :=
  ⟨fun h => ⟨h.unwired, h.start, h.destination, h.terminal, h.exits, h.tools⟩,
    fun h => ⟨h.unwired, h.start, h.destination, h.terminal, h.exits, h.tools⟩⟩

/-- The texts that are mirrored are not checked. -/
theorem valid_of_bare (hvalid : Valid ns es) (h : ns'.map bare = ns.map bare) :
    Valid ns' es where
  node n hn := by
    obtain ⟨m, hm, heq⟩ := exists_bare_eq h hn
    exact nodeOk_bare.1 (heq ▸ nodeOk_bare.2 (hvalid.node m hm))
  ids := by
    rw [map_eq_of_map_bare (fun _ => rfl) h]
    exact hvalid.ids
  names := by
    rw [map_eq_of_map_bare (f := fun n => Runtime.lower n.name) (fun _ => rfl) h]
    exact hvalid.names
  start := by
    rw [startsOf, length_filter_eq (fun _ => rfl) h]
    exact hvalid.start
  ending := by
    obtain ⟨n, hn, htype⟩ := hvalid.ending
    obtain ⟨m, hm, heq⟩ := exists_bare_eq h.symm hn
    exact ⟨m, hm, (congrArg Node.type heq).trans htype⟩
  global := by
    rw [length_filter_eq (fun _ => rfl) h]
    exact hvalid.global
  edge e he := by
    rw [map_eq_of_map_bare (fun _ => rfl) h]
    exact hvalid.edge e he
  wired n hn := by
    obtain ⟨m, hm, heq⟩ := exists_bare_eq h hn
    exact wired_bare.1 (heq ▸ wired_bare.2 (hvalid.wired m hm))

/-- What is stored of the nodes is read as nodes that differ in their texts only. -/
theorem exists_nodes {nds'' : List (Dict String Json)}
    (hmirrors : List.Forall₂ (Mirrors fields) nds nds')
    (hreads : List.Forall₂ SameReads nds' nds'')
    (hns : List.Forall₂ (fun d n => nodeFromRaw d = .ok n) nds ns) :
    ∃ ns', List.Forall₂ (fun d n => nodeFromRaw d = .ok n) nds'' ns' ∧
      ns'.map bare = ns.map bare := by
  induction hmirrors generalizing nds'' ns with
  | nil =>
    obtain rfl := List.forall₂_nil_left_iff.1 hreads
    obtain rfl := List.forall₂_nil_left_iff.1 hns
    exact ⟨[], .nil, rfl⟩
  | cons hmirror _ ih =>
    obtain ⟨d'', nds'', hread, hrest, rfl⟩ := List.forall₂_cons_left_iff.1 hreads
    obtain ⟨n, ns, hn, hrest', rfl⟩ := List.forall₂_cons_left_iff.1 hns
    obtain ⟨ns', hns', hbare⟩ := ih hrest hrest'
    have hmap := hmirror.map_bare
    rw [← hread.nodeFromRaw_eq, hn] at hmap
    rcases hn' : nodeFromRaw d'' with error | n'
    · rw [hn'] at hmap
      cases hmap
    · rw [hn'] at hmap
      exact ⟨n' :: ns', .cons hn' hns', by
        rw [List.map_cons, List.map_cons, hbare, Except.ok.inj hmap]⟩

variable {g : WorkflowGraph}

omit [Runtime] in
theorem objects_of_reads {items : List Json} {α : Type*} {R : Dict String Json → α → Prop}
    {l : List α} (h : List.Forall₂ (fun item y => ∃ raw, item = .obj raw ∧ R raw y) items l) :
    ∃ nds : List (Dict String Json), items = nds.map .obj := by
  induction h with
  | nil => exact ⟨[], rfl⟩
  | cons h _ ih =>
    obtain ⟨raw, rfl, -⟩ := h
    obtain ⟨nds, rfl⟩ := ih
    exact ⟨raw :: nds, rfl⟩

/-- The nodes and the edges of an accepted graph are objects. -/
theorem objects_of_parseGraph (h : parseGraph (.obj graph) = .ok g) :
    ∃ nds eds, objects (Json.get graph "nodes") = some nds ∧
      objects (Json.get graph "edges") = some eds := by
  obtain ⟨fields, rawNodes, rawEdges', ns, es, hfields, hnodes, hedges, hns, hes, -⟩ :=
    parseGraph_eq_ok_iff.1 h
  obtain rfl := Json.obj.inj hfields
  obtain ⟨nds, rfl⟩ := objects_of_reads hns
  obtain ⟨eds, rfl⟩ := objects_of_reads hes
  refine ⟨nds, eds, hnodes ▸ objects_arr, ?_⟩
  rw [rawEdges] at hedges
  by_cases htruthy : (Json.get graph "edges").truthy
  · rw [if_pos htruthy] at hedges
    split at hedges
    · rename_i items hitems
      rw [hitems, Option.some.inj hedges]
      exact objects_arr
    · cases hedges
  · rw [if_neg htruthy] at hedges
    rw [objects.eq_def, if_neg htruthy]
    obtain rfl : eds = [] := by simpa using hedges
    rfl

/-- An accepted node has data. -/
theorem objectData_of_parseGraph (h : parseGraph (.obj graph) = .ok g) : ObjectData graph := by
  obtain ⟨nds', eds, hn', he⟩ := objects_of_parseGraph h
  intro nds hn d hd
  obtain rfl := Option.some.inj (hn.symm.trans hn')
  obtain ⟨ns, hns, hvalid, -⟩ := (parseGraph_obj_eq_ok_iff hn he).1 h
  have hread : (nodeFromRaw d) ∈ ns.map .ok := forall₂_ok_iff.1 hns ▸ List.mem_map_of_mem hd
  obtain ⟨n, hn, hnode⟩ := List.mem_map.1 hread
  have hname := (hvalid.node n hn).name_ne
  obtain ⟨delay, -, rfl⟩ := nodeFromRaw_eq_ok_iff.1 hnode.symm
  cases hdata : Json.get d "data" with
  | obj data => exact ⟨data, rfl⟩
  | _ =>
    refine absurd ?_ hname
    rw [nodeTexts, dataObject, hdata]
    rfl

/-- A field of the data is a text afterwards, or as it was. -/
theorem get_mirrorData (fields raw data : Dict String Json) (k : String) :
    (∃ text, Json.get (mirrorData fields raw data) k = .str text) ∨
      Json.get (mirrorData fields raw data) k = Json.get data k := by
  rw [Json.get, get?_mirrorData]
  split_ifs
  · exact .inl ⟨_, rfl⟩
  · exact .inl ⟨_, rfl⟩
  · exact .inr rfl

/-- Texts that are equal to those of the node are its texts. -/
theorem Mirrors.readPrompts_of_eq (h : Mirrors fields d d')
    (heq : (Json.obj d').eq (.obj d) = true) (prompts : Option String × Option String) :
    readPrompts prompts d' = readPrompts prompts d := by
  have hfields := eq_dataObject heq
  have htype {t : String} : isType d' t ↔ isType d t := h.isType_iff
  obtain ⟨data, hdata, rfl⟩ := h
  have htext (k : String) :
      Json.get (dataObject (d.set "data" (.obj (mirrorData fields d data)))) k =
        Json.get (dataObject d) k := by
    have hget := Json.get_eq hfields k
    rw [dataObject_set] at hget ⊢
    obtain ⟨text, hstr⟩ | hsame := get_mirrorData fields d data k
    · rw [hstr] at hget ⊢
      exact (Json.str_eq_iff.1 hget).symm
    · rw [hsame, dataObject_of_get hdata]
  rw [readPrompts, readPrompts, htext, htext]
  simp only [htype]

theorem foldl_readPrompts_of_eq (h : List.Forall₂ (Mirrors fields) nds nds')
    (heq : List.Forall₂ (fun y y' => Json.eq y y' = true) (nds'.map .obj) (nds.map .obj))
    (prompts : Option String × Option String) :
    nds'.foldl readPrompts prompts = nds.foldl readPrompts prompts := by
  induction h generalizing prompts with
  | nil => rfl
  | cons h _ ih =>
    rw [List.map_cons, List.map_cons, List.forall₂_cons] at heq
    rw [List.foldl_cons, List.foldl_cons, h.readPrompts_of_eq heq.1, ih heq.2]

theorem columnPrompts_of_eq (hg : parseGraph (.obj graph) = .ok g)
    (hmirror : mirrorPromptsIntoGraph graph fields = .ok a)
    (hc : contains fields "greeting" ∨ contains fields "system_prompt")
    (heq : (Json.obj a).eq (.obj graph) = true) : columnPrompts graph = columnPrompts a := by
  obtain ⟨nds, nds', hn, hmirrors, rfl, -, -⟩ :=
    mirrorPromptsIntoGraph_eq_ok (objectData_of_parseGraph hg) hmirror hc
  have hnodes := Json.get_eq heq "nodes"
  rw [get_set, if_pos rfl] at hnodes
  rw [columnPrompts, columnPrompts, promptsFromGraph, promptsFromGraph, hn, get_set, if_pos rfl,
    objects_arr, Option.getD_some, Option.getD_some]
  by_cases htruthy : (Json.get graph "nodes").truthy
  · rw [objects_of_truthy hn htruthy, Json.eq, Json.eqItems_iff] at hnodes
    rw [foldl_readPrompts_of_eq hmirrors hnodes]
  · obtain rfl := objects_of_not_truthy hn htruthy
    obtain rfl := List.forall₂_nil_left_iff.1 hmirrors
    rfl

variable [Jsonb] [LawfulJsonb]

theorem parseGraph_mirror (hg : parseGraph (.obj graph) = .ok g) (hloaded : Loaded graph)
    (hmirror : mirrorPromptsIntoGraph graph fields = .ok a)
    (hc : contains fields "greeting" ∨ contains fields "system_prompt")
    (hst : stored a = .ok graph') :
    (∃ g', parseGraph (.obj graph') = .ok g') ∧ columnPrompts graph' = columnPrompts a := by
  obtain ⟨nds, eds, hn, he⟩ := objects_of_parseGraph hg
  obtain ⟨ns, hns, hvalid, -⟩ := (parseGraph_obj_eq_ok_iff hn he).1 hg
  obtain ⟨nds₁, nds', hn₁, hmirrors, rfl, -, -⟩ :=
    mirrorPromptsIntoGraph_eq_ok (objectData_of_parseGraph hg) hmirror hc
  obtain rfl := Option.some.inj (hn.symm.trans hn₁)
  obtain ⟨hedges, nds'', hn'', hreads⟩ := stored_mirror hloaded hn hmirrors hst
  obtain ⟨ns', hns', hbare⟩ := exists_nodes hmirrors hreads hns
  constructor
  · exact ⟨_, (parseGraph_obj_eq_ok_iff hn'' (hedges ▸ he)).2
      ⟨ns', hns', valid_of_bare hvalid hbare, rfl⟩⟩
  · rw [columnPrompts, columnPrompts, promptsFromGraph, promptsFromGraph, hn'', get_set,
      if_pos rfl, objects_arr, Option.getD_some, Option.getD_some,
      foldl_readPrompts_of_sameReads hreads]

end Yuviz.Config.Workflows
