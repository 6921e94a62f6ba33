import Yuviz.Conversation.Workflow.Extractor
import Yuviz.Conversation.Workflow.Runner
import Yuviz.LastWrite

/-!
# What the extractions contribute

Everything that is queued is extracted at the same time, each by a task of its own, and
what a task finds is merged into the variables of the runner as its answer comes in. The
answers overtake each other: an older visit may overwrite what a later one has found. And
a task that has just contributed is still among the pending ones until its callback runs;
an interruption puts it back into the queue, and it contributes again (`not_exact`).

Where neither happens, each visit contributes once, and the latest one counts
(`exact_of_reachableIf`).
-/

namespace Yuviz.Conversation.Workflow

open Config Python

/-! ### The values of an answer -/

/-- `_MAX_EXTRACTED_STR_LEN`. -/
def maxExtractedStrLen : ℕ := 256

/-- `_CONTROL_CHARS_RE`. -/
def isControlChar (c : Char) : Bool := c.toNat ≤ 0x1f || c.toNat = 0x7f

/-- `_BOOL_TRUE`. -/
def boolTrue : List String := ["true", "yes", "1"]

/-- `_BOOL_FALSE`. -/
def boolFalse : List String := ["false", "no", "0"]

def isNone : Json → Bool
  | .null => true
  | _ => false

theorem nodup_keys_ofPairs {ν : Type*} (pairs : List (String × ν)) :
    ((Dict.ofPairs pairs).map Prod.fst).Nodup := by
  have hfold (d : Dict String ν) (hd : (d.map Prod.fst).Nodup) :
      ((pairs.foldl (fun d e => d.set e.1 e.2) d).map Prod.fst).Nodup := by
    induction pairs generalizing d with
    | nil => exact hd
    | cons e pairs ih => exact ih _ (Dict.nodup_keys_set hd)
  exact hfold [] List.nodup_nil

section

variable [Runtime]

/-- `_coerce`, where `float` is `float(value)`, or nothing for an exception. -/
def coerce (float : Json → Option ((ℚ ⊕ Bool) × String)) (value : Json) (declaredType : String) :
    Option Json :=
  if isNone value ∨ value matches .str "" then none
  else if declaredType = "number" then (float value).map fun (x, text) => .float x text
  else if declaredType = "boolean" then
    match value with
    | .bool b => some (.bool b)
    | _ =>
      let token := Runtime.lower (stripStr value.toStr)
      if token ∈ boolTrue then some (.bool true)
      else if token ∈ boolFalse then some (.bool false)
      else none
  else
    let text := value.toStr
    if text.toList.any isControlChar then none
    else some (.str (String.ofList (text.toList.take maxExtractedStrLen)))

/-- What `_extract` makes of the answer. -/
def extractedValues (float : Json → Option ((ℚ ⊕ Bool) × String)) (node : Config.Node)
    (parsed : Dict String Json) : Dict String Json :=
  let vars := (node.extraction.map Extraction.vars).getD []
  let said := vars.filter fun v => !isNone (Json.get parsed v.name)
  let values := Dict.ofPairs (said.map fun v =>
    (v.name, coerce float (Json.get parsed v.name) v.type))
  values.filterMap fun e => e.2.map (e.1, ·)

variable {float : Json → Option ((ℚ ⊕ Bool) × String)} {node : Config.Node}
  {parsed : Dict String Json} {value : Json} {type : String}

theorem isNone_coerce {x : Json} (h : coerce float value type = some x) : isNone x = false := by
  rw [coerce.eq_def] at h
  split_ifs at h
  · obtain ⟨⟨y, text⟩, -, rfl⟩ := Option.map_eq_some_iff.1 h
    rfl
  · split at h
    · exact Option.some.inj h ▸ rfl
    · dsimp only at h
      split_ifs at h <;> exact Option.some.inj h ▸ rfl
  · dsimp only at h
    split_ifs at h
    exact Option.some.inj h ▸ rfl

theorem isNone_of_mem_extractedValues {e : String × Json}
    (h : e ∈ extractedValues float node parsed) : isNone e.2 = false := by
  obtain ⟨⟨k, x⟩, hmem, h⟩ := List.mem_filterMap.1 h
  obtain ⟨x, rfl, rfl⟩ := Option.map_eq_some_iff.1 h
  obtain ⟨v, -, hv⟩ := List.mem_map.1 (Dict.mem_of_mem_ofPairs hmem)
  exact isNone_coerce (Prod.mk.inj hv).2

theorem nodup_extractedValues : ((extractedValues float node parsed).map Prod.fst).Nodup := by
  have hkeys (values : Dict String (Option Json)) :
      ((values.filterMap fun e => e.2.map (e.1, ·)).map Prod.fst).Sublist
        (values.map Prod.fst) := by
    induction values with
    | nil => exact .slnil
    | cons e values ih =>
      obtain ⟨k, _ | x⟩ := e
      · exact ih.cons k
      · exact ih.cons_cons k
  rw [extractedValues]
  exact (hkeys _).nodup (nodup_keys_ofPairs _)

end

/-- The values of an extraction are laid over those there are. -/
theorem get?_updateVariables {values : Dict String Json} (hnodup : (values.map Prod.fst).Nodup)
    (hvalue : ∀ e ∈ values, isNone e.2 = false) (r : Runner) (v : String) :
    (r.updateVariables values).vars.get? v = (values.get? v).or (r.vars.get? v) := by
  induction values generalizing r with
  | nil => rfl
  | cons e values ih =>
    obtain ⟨k, x⟩ := e
    rw [List.map_cons, List.nodup_cons] at hnodup
    rw [List.forall_mem_cons] at hvalue
    have hset : r.updateVariables ((k, x) :: values) =
        Runner.updateVariables { r with vars := r.vars.set k x } values := by
      cases x with
      | null => exact absurd hvalue.1 Bool.noConfusion
      | _ => rfl
    rw [hset, ih hnodup.2 hvalue.2, Dict.get?_set]
    rcases eq_or_ne v k with rfl | hne
    · have hnone : Dict.get? values v = none := Dict.get?_eq_none_iff.2 hnodup.1
      rw [hnone, if_pos rfl]
      simp [Dict.get?]
    · rw [if_neg hne]
      simp [Dict.get?, hne.symm]

/-! ### The tasks -/

/-- A visit of a node, as it was queued: its number, and a copy of the history. -/
structure Visit (H : Type*) where
  number : ℕ
  history : H
  deriving DecidableEq

inductive Progress
  | running
  /-- The answer is in, and the task is about to go on. -/
  | answered (parsed : Dict String Json)
  | done

def Progress.isRunning : Progress → Bool
  | .running => true
  | _ => false

/-- The answer a task is to deal with. -/
def Progress.answer? : Progress → Option (Dict String Json)
  | .answered parsed => some parsed
  | _ => none

/-- A task, which is known by its place in the list of tasks. -/
structure Task (H : Type*) where
  item : Config.Node × Visit H
  progress : Progress := .running
  /-- It is in `_pending`, and in `_inflight`. One that is not has been cancelled, or is done. -/
  pending : Bool := true

/-- What a visit has contributed. -/
structure Contribution where
  number : ℕ
  values : Dict String Json

/-- The extractor, with its tasks, and the runner. -/
structure Background (H : Type*) where
  deferred : List (Config.Node × Visit H) := []
  tasks : List (Task H) := []
  runner : Runner
  /-- The visits queued so far, -/
  visits : ℕ := 0
  /-- and what they have contributed. -/
  contributions : List Contribution := []

inductive BackgroundEvent (H : Type*)
  | extract (node : Config.Node) (history : H)
  | startDeferred
  /-- The tasks are a set, which is gone through in any order. -/
  | interruptForLiveTurn (order : List (Config.Node × Visit H))
  /-- The model answers. -/
  | answer (task : ℕ) (parsed : Dict String Json)
  /-- The task goes on to its end, -/
  | finish (task : ℕ)
  /-- and its callback is called. -/
  | onTaskDone (task : ℕ)

/-- The visit a pending task is still to contribute. -/
def Task.outstanding {H : Type*} (t : Task H) : List ℕ :=
  match t.pending, t.progress with
  | false, _ | _, .done => []
  | true, _ => [t.item.2.number]

section

variable [Runtime] {H : Type*} [DecidableEq H] (float : Json → Option ((ℚ ⊕ Bool) × String))

/-- A task that has its answer merges it, if there is anything in it. One that was cancelled
    with the answer in its hands goes on all the same: `wait_for` returns what is done. -/
def Background.finish (s : Background H) (i : ℕ) : Option (Background H) :=
  s.tasks[i]?.bind fun t =>
    match t.progress with
    | .answered parsed =>
      let values := extractedValues float t.item.1 parsed
      some { s with
        tasks := s.tasks.set i { t with progress := .done }
        runner := if values = [] then s.runner else s.runner.updateVariables values
        contributions := s.contributions ++ [⟨t.item.2.number, values⟩] }
    | _ => none

def Background.step (s : Background H) : BackgroundEvent H → Option (Background H)
  | .extract node history =>
    if VariableExtractor.wantsExtraction node then
      some { s with
        deferred := s.deferred ++ [(node, ⟨s.visits, history⟩)]
        visits := s.visits + 1 }
    else some s
  | .startDeferred =>
    some { s with
      deferred := []
      tasks := s.tasks ++ s.deferred.map fun item => { item := item } }
  | .interruptForLiveTurn order =>
    if order.Perm ((s.tasks.filter Task.pending).map Task.item) then
      some { s with
        deferred := s.deferred ++ order
        tasks := s.tasks.map fun t => { t with pending := false } }
    else none
  | .answer i parsed =>
    s.tasks[i]?.bind fun t =>
      match t.pending, t.progress with
      | true, .running =>
        some { s with tasks := s.tasks.set i { t with progress := .answered parsed } }
      | _, _ => none
  | .finish i => s.finish float i
  | .onTaskDone i =>
    s.tasks[i]?.bind fun t =>
      match t.progress with
      | .done => some { s with tasks := s.tasks.set i { t with pending := false } }
      | _ => none

/-- A task is only interrupted while the model is still to answer it, and nothing of what it
    finds has been found by a later visit already. -/
def Background.InOrder (s : Background H) : BackgroundEvent H → Prop
  | .interruptForLiveTurn _ => ∀ t ∈ s.tasks, t.pending = true → t.progress.isRunning = true
  | .finish i => ∀ t ∈ s.tasks[i]?, ∀ parsed ∈ t.progress.answer?,
      ∀ c ∈ s.contributions, ∀ v ∈ (extractedValues float t.item.1 parsed).map Prod.fst,
        v ∈ c.values.map Prod.fst → c.number ≤ t.item.2.number
  | _ => True

instance (s : Background H) : (e : BackgroundEvent H) → Decidable (s.InOrder float e)
  | .interruptForLiveTurn _ => inferInstanceAs (Decidable (∀ t ∈ s.tasks, _))
  | .finish i => inferInstanceAs (Decidable (∀ t ∈ s.tasks[i]?, _))
  | .extract _ _ | .startDeferred | .answer _ _ | .onTaskDone _ =>
    inferInstanceAs (Decidable True)

/-- The extractions of a call. -/
def extractions (H : Type*) [DecidableEq H] (start : Config.Node) (vars : Dict String Json) :
    System (Background H) (BackgroundEvent H) where
  init := { runner := .init start vars }
  step := Background.step float

end

section

variable {H : Type*}

/-- The visits that are still to be contributed. -/
def Background.outstanding (s : Background H) : List ℕ :=
  s.deferred.map (·.2.number) ++ s.tasks.flatMap Task.outstanding

/-- Nothing is queued, and no task is pending. -/
def Background.Idle (s : Background H) : Prop :=
  s.deferred = [] ∧ ∀ t ∈ s.tasks, t.pending = false

/-- Each visit is still to be contributed, or has been, once, and each variable has the value
    of the latest visit that found one. -/
structure Background.Exact (vars : Dict String Json) (s : Background H) : Prop where
  once : (s.outstanding ++ s.contributions.map Contribution.number).Perm (List.range s.visits)
  latest : LastWrite.Newest Contribution.number (fun c v => c.values.get? v) vars.get?
    s.runner.vars.get? s.contributions

end

/-! ### Each visit counts once -/

section

variable {H : Type*} {s s' : Background H} {t t' : Task H} {tasks : List (Task H)} {i : ℕ}
  {vars : Dict String Json}

theorem Task.outstanding_of_not_pending (h : t.pending = false) : t.outstanding = [] := by
  rw [outstanding.eq_def, h]

theorem Background.Idle.outstanding (h : s.Idle) : s.outstanding = [] := by
  rw [Background.outstanding, h.1, List.map_nil, List.nil_append, List.flatMap_eq_nil_iff]
  exact fun t ht => Task.outstanding_of_not_pending (h.2 t ht)

/-- Once nothing is left to do, all visits have contributed. -/
theorem Background.Exact.of_idle (h : s.Exact vars) (hidle : s.Idle) :
    (s.contributions.map Contribution.number).Perm (List.range s.visits) := by
  have honce := h.once
  rwa [hidle.outstanding, List.nil_append] at honce

/-- The tasks before and behind one. -/
theorem exists_append_of_getElem? (h : tasks[i]? = some t) :
    ∃ l l', tasks = l ++ t :: l' ∧ ∀ t', tasks.set i t' = l ++ t' :: l' := by
  obtain ⟨hi, rfl⟩ := List.getElem?_eq_some_iff.1 h
  refine ⟨tasks.take i, tasks.drop (i + 1), ?_, fun t' => ?_⟩
  · rw [← List.drop_eq_getElem_cons hi, List.take_append_drop]
  · rw [List.set_eq_take_append_cons_drop, if_pos hi]

theorem flatMap_outstanding_set (h : tasks[i]? = some t) (ht : t'.outstanding = t.outstanding) :
    (tasks.set i t').flatMap Task.outstanding = tasks.flatMap Task.outstanding := by
  obtain ⟨l, l', hl, hset⟩ := exists_append_of_getElem? h
  rw [hset, hl, List.flatMap_append, List.flatMap_append, List.flatMap_cons, List.flatMap_cons, ht]

/-- What a task was still to contribute, it has. -/
theorem flatMap_outstanding_done {n : ℕ} (h : tasks[i]? = some t) (ht : t.outstanding = [n])
    (ht' : t'.outstanding = []) :
    (tasks.flatMap Task.outstanding).Perm (n :: (tasks.set i t').flatMap Task.outstanding) := by
  obtain ⟨l, l', hl, hset⟩ := exists_append_of_getElem? h
  rw [hset, hl, List.flatMap_append, List.flatMap_append, List.flatMap_cons, List.flatMap_cons, ht,
    ht', List.nil_append, List.singleton_append]
  exact List.perm_middle

theorem map_filter_pending_set (h : tasks[i]? = some t) (hitem : t'.item = t.item)
    (hpending : t'.pending = t.pending) :
    ((tasks.set i t').filter Task.pending).map Task.item =
      (tasks.filter Task.pending).map Task.item := by
  obtain ⟨l, l', hl, hset⟩ := exists_append_of_getElem? h
  rw [hset, hl, List.filter_append, List.filter_append, List.filter_cons, List.filter_cons,
    hpending]
  split_ifs <;> simp [hitem]

theorem map_filter_pending_done [DecidableEq H] (h : tasks[i]? = some t)
    (hpending : t.pending = true) (hdone : t'.pending = false) :
    (((tasks.set i t').filter Task.pending).map Task.item).Perm
      (((tasks.filter Task.pending).map Task.item).erase t.item) := by
  obtain ⟨l, l', hl, hset⟩ := exists_append_of_getElem? h
  rw [hset, hl, List.filter_append, List.filter_append, List.filter_cons_of_pos hpending,
    List.filter_cons_of_neg (by simp [hdone]), List.map_append, List.map_append, List.map_cons]
  refine .symm ((List.perm_middle.erase t.item).trans ?_)
  rw [List.erase_cons_head]

/-- A task that is not pending any more has no answer to deal with. -/
def Background.Settled (s : Background H) : Prop :=
  ∀ t ∈ s.tasks, t.pending = false → ∀ parsed, t.progress ≠ .answered parsed

theorem settled_set (h : s.Settled)
    (ht : t'.pending = false → ∀ parsed, t'.progress ≠ .answered parsed)
    (htasks : s'.tasks = s.tasks.set i t') : s'.Settled := by
  intro t'' hmem
  rw [htasks] at hmem
  rcases List.mem_or_eq_of_mem_set hmem with hmem | rfl
  · exact h t'' hmem
  · exact ht

theorem outstanding_startDeferred (hdeferred : s'.deferred = [])
    (htasks : s'.tasks = s.tasks ++ s.deferred.map fun item => { item := item }) :
    s'.outstanding.Perm s.outstanding := by
  have hnew : (s.deferred.map fun item => ({ item := item } : Task H)).flatMap Task.outstanding =
      s.deferred.map (·.2.number) := by
    rw [List.flatMap_map, List.map_eq_flatMap]
    rfl
  rw [Background.outstanding, Background.outstanding, hdeferred, htasks, List.flatMap_append, hnew,
    List.map_nil, List.nil_append]
  exact List.perm_append_comm

/-- Tasks that are still running are put back into the queue. -/
theorem outstanding_interruptForLiveTurn {order : List (Config.Node × Visit H)}
    (horder : order.Perm ((s.tasks.filter Task.pending).map Task.item))
    (hrunning : ∀ t ∈ s.tasks, t.pending = true → t.progress.isRunning = true)
    (hdeferred : s'.deferred = s.deferred ++ order)
    (htasks : s'.tasks = s.tasks.map fun t => { t with pending := false }) :
    s'.outstanding.Perm s.outstanding := by
  have hnone : s'.tasks.flatMap Task.outstanding = [] := by
    rw [htasks, List.flatMap_map, List.flatMap_eq_nil_iff]
    exact fun t _ => Task.outstanding_of_not_pending rfl
  have hpending : s.tasks.flatMap Task.outstanding =
      ((s.tasks.filter Task.pending).map Task.item).map (·.2.number) := by
    clear htasks hnone horder
    generalize s.tasks = tasks at hrunning
    induction tasks with
    | nil => rfl
    | cons t tasks ih =>
      rw [List.forall_mem_cons] at hrunning
      rw [List.flatMap_cons, ih hrunning.2]
      rcases hp : t.pending with _ | _
      · rw [List.filter_cons_of_neg (by simp [hp]), Task.outstanding_of_not_pending hp,
          List.nil_append]
      · have hone : t.outstanding = [t.item.2.number] := by
          have hprogress := hrunning.1 hp
          rw [Task.outstanding.eq_def, hp]
          revert hprogress
          cases t.progress <;> first | exact fun _ => rfl | exact Bool.noConfusion
        rw [List.filter_cons_of_pos hp, hone]
        rfl
  rw [Background.outstanding, Background.outstanding, hdeferred, hnone, hpending, List.append_nil,
    List.map_append]
  exact (horder.map _).append_left _

section

variable [Runtime] [DecidableEq H] {float : Json → Option ((ℚ ⊕ Bool) × String)}
  {e : BackgroundEvent H}

theorem step_answer {parsed : Dict String Json} (h : s.step float (.answer i parsed) = some s') :
    ∃ t, s.tasks[i]? = some t ∧ t.pending = true ∧ t.progress = .running ∧
      s' = { s with tasks := s.tasks.set i { t with progress := .answered parsed } } := by
  obtain ⟨t, hi, h⟩ := Option.bind_eq_some_iff.1 h
  split at h
  · rename_i hpending hprogress
    exact ⟨t, hi, hpending, hprogress, (Option.some.inj h).symm⟩
  · exact absurd h.symm (Option.some_ne_none s')

theorem step_finish (h : s.step float (.finish i) = some s') :
    ∃ t parsed, s.tasks[i]? = some t ∧ t.progress = .answered parsed ∧
      s' = { s with
        tasks := s.tasks.set i { t with progress := .done }
        runner := if extractedValues float t.item.1 parsed = [] then s.runner
          else s.runner.updateVariables (extractedValues float t.item.1 parsed)
        contributions := s.contributions ++
          [⟨t.item.2.number, extractedValues float t.item.1 parsed⟩] } := by
  obtain ⟨t, hi, h⟩ := Option.bind_eq_some_iff.1 h
  split at h
  · rename_i parsed hprogress
    exact ⟨t, parsed, hi, hprogress, (Option.some.inj h).symm⟩
  · exact absurd h.symm (Option.some_ne_none s')

theorem step_onTaskDone (h : s.step float (.onTaskDone i) = some s') :
    ∃ t, s.tasks[i]? = some t ∧ t.progress = .done ∧
      s' = { s with tasks := s.tasks.set i { t with pending := false } } := by
  obtain ⟨t, hi, h⟩ := Option.bind_eq_some_iff.1 h
  split at h
  · rename_i hprogress
    exact ⟨t, hi, hprogress, (Option.some.inj h).symm⟩
  · exact absurd h.symm (Option.some_ne_none s')

theorem Background.Settled.step (h : s.Settled) (hg : s.InOrder float e)
    (hst : s.step float e = some s') : s'.Settled := by
  cases e with
  | extract node history =>
    rw [Background.step] at hst
    split_ifs at hst <;> obtain rfl := Option.some.inj hst <;> exact h
  | startDeferred =>
    obtain rfl := Option.some.inj hst
    intro t ht
    rcases List.mem_append.1 ht with ht | ht
    · exact h t ht
    · obtain ⟨item, -, rfl⟩ := List.mem_map.1 ht
      exact fun hpending => Bool.noConfusion hpending
  | interruptForLiveTurn order =>
    rw [Background.step] at hst
    split_ifs at hst
    obtain rfl := Option.some.inj hst
    intro t' ht' hpending parsed
    obtain ⟨t, ht, rfl⟩ := List.mem_map.1 ht'
    rcases hp : t.pending with _ | _
    · exact h t ht hp parsed
    · intro hanswered
      have hrunning := hg t ht hp
      rw [show t.progress = .answered parsed from hanswered] at hrunning
      exact Bool.noConfusion hrunning
  | answer i parsed =>
    obtain ⟨t, hi, hpending, -, rfl⟩ := step_answer hst
    refine settled_set h (fun hp => ?_) rfl
    exact absurd (hpending.symm.trans hp) (by decide)
  | finish i =>
    obtain ⟨t, parsed, hi, -, rfl⟩ := step_finish hst
    exact settled_set h (fun _ _ => Progress.noConfusion) rfl
  | onTaskDone i =>
    obtain ⟨t, hi, hdone, rfl⟩ := step_onTaskDone hst
    exact settled_set h (fun _ parsed => by simp [hdone]) rfl

omit [DecidableEq H] in
/-- What a task finds is laid over what there is, and nothing of it has come too late. -/
theorem newest_finish {n : ℕ} {node : Config.Node} {parsed : Dict String Json}
    (h : LastWrite.Newest Contribution.number (fun c v => c.values.get? v) vars.get?
      s.runner.vars.get? s.contributions)
    (hg : ∀ c ∈ s.contributions, ∀ v ∈ (extractedValues float node parsed).map Prod.fst,
      v ∈ c.values.map Prod.fst → c.number ≤ n) :
    LastWrite.Newest Contribution.number (fun c v => c.values.get? v) vars.get?
      (if extractedValues float node parsed = [] then s.runner
        else s.runner.updateVariables (extractedValues float node parsed)).vars.get?
      (s.contributions ++ [⟨n, extractedValues float node parsed⟩]) := by
  have hkey (values : Dict String Json) (v : String) :
      values.get? v ≠ none ↔ v ∈ values.map Prod.fst := by
    rw [Ne, Dict.get?_eq_none_iff, not_not]
  have hvars : (if extractedValues float node parsed = [] then s.runner
      else s.runner.updateVariables (extractedValues float node parsed)).vars.get? =
      fun v => ((extractedValues float node parsed).get? v).or (s.runner.vars.get? v) := by
    funext v
    rw [← get?_updateVariables nodup_extractedValues
      (fun _ => isNone_of_mem_extractedValues) s.runner v]
    split_ifs with hnil
    · rw [hnil]
      rfl
    · rfl
  rw [hvars]
  refine h.write (w := ⟨n, extractedValues float node parsed⟩) fun c hc v hv hv' => ?_
  exact hg c hc v ((hkey _ v).1 hv) ((hkey _ v).1 hv')

/-- The extractor as the rest of the call sees it. -/
def Background.extractor (s : Background H) : VariableExtractor (Visit H) where
  deferred := s.deferred
  inflight := (s.tasks.filter Task.pending).map Task.item

/-- What the tasks do in between is not seen, and a task that is done is taken out once. -/
theorem extractor_step (hst : s.step float e = some s') :
    match e with
    | .extract node history => s'.extractor = s.extractor.extract node ⟨s.visits, history⟩
    | .startDeferred => s'.extractor = s.extractor.startDeferred
    | .interruptForLiveTurn order =>
      order.Perm s.extractor.inflight ∧ s'.extractor = s.extractor.interruptForLiveTurn order
    | .answer _ _ | .finish _ => s'.extractor = s.extractor
    | .onTaskDone i => s'.extractor = s.extractor ∨ ∃ t ∈ s.tasks[i]?,
      s'.extractor.deferred = s.extractor.deferred ∧
        s'.extractor.inflight.Perm (s.extractor.onTaskDone t.item).inflight := by
  cases e with
  | extract node history =>
    rw [Background.step] at hst
    split_ifs at hst with hwants <;> obtain rfl := Option.some.inj hst
    · exact (if_pos hwants).symm
    · exact (if_neg hwants).symm
  | startDeferred =>
    obtain rfl := Option.some.inj hst
    have hall (items : List (Config.Node × Visit H)) :
        ((items.map fun item => ({ item := item } : Task H)).filter Task.pending).map Task.item =
          items := by
      rw [List.filter_eq_self.2, List.map_map]
      · exact List.map_id items
      · intro t ht
        obtain ⟨item, -, rfl⟩ := List.mem_map.1 ht
        rfl
    simp only [Background.extractor, VariableExtractor.startDeferred, List.filter_append,
      List.map_append, hall]
  | interruptForLiveTurn order =>
    rw [Background.step] at hst
    split_ifs at hst with horder
    obtain rfl := Option.some.inj hst
    refine ⟨horder, ?_⟩
    simp [Background.extractor, VariableExtractor.interruptForLiveTurn, List.filter_map,
      Function.comp_def]
  | answer i parsed =>
    obtain ⟨t, hi, -, -, rfl⟩ := step_answer hst
    exact congrArg (VariableExtractor.mk s.deferred) (map_filter_pending_set hi rfl rfl)
  | finish i =>
    obtain ⟨t, parsed, hi, -, rfl⟩ := step_finish hst
    exact congrArg (VariableExtractor.mk s.deferred) (map_filter_pending_set hi rfl rfl)
  | onTaskDone i =>
    obtain ⟨t, hi, -, rfl⟩ := step_onTaskDone hst
    rcases hp : t.pending with _ | _
    · have hsame : ((s.tasks.set i { t with pending := false }).filter Task.pending).map Task.item =
          (s.tasks.filter Task.pending).map Task.item := map_filter_pending_set hi rfl hp.symm
      exact .inl (congrArg (VariableExtractor.mk s.deferred) hsame)
    · exact .inr ⟨t, hi, rfl, map_filter_pending_done hi hp rfl⟩

structure Background.Inv (vars : Dict String Json) (s : Background H) : Prop extends
    s.Exact vars where
  settled : s.Settled

theorem Background.Inv.step (h : s.Inv vars) (hg : s.InOrder float e)
    (hst : s.step float e = some s') : s'.Inv vars := by
  refine ⟨?_, h.settled.step hg hst⟩
  cases e with
  | extract node history =>
    rw [Background.step] at hst
    split_ifs at hst <;> obtain rfl := Option.some.inj hst
    · refine ⟨?_, h.latest⟩
      have hadd : ((s.deferred ++ [(node, (⟨s.visits, history⟩ : Visit H))]).map (·.2.number) ++
          s.tasks.flatMap Task.outstanding ++ s.contributions.map Contribution.number).Perm
          (s.outstanding ++ s.contributions.map Contribution.number ++ [s.visits]) := by
        rw [Background.outstanding, List.map_append, List.append_assoc, List.append_assoc,
          List.append_assoc, List.append_assoc]
        refine .append_left _ ?_
        rw [← List.append_assoc _ _ [s.visits]]
        exact List.perm_append_comm
      rw [List.range_succ]
      exact hadd.trans (h.once.append_right _)
    · exact h.toExact
  | startDeferred =>
    obtain rfl := Option.some.inj hst
    exact ⟨((outstanding_startDeferred rfl rfl).append_right _).trans h.once, h.latest⟩
  | interruptForLiveTurn order =>
    rw [Background.step] at hst
    split_ifs at hst with horder
    obtain rfl := Option.some.inj hst
    refine ⟨.trans (.append_right _ ?_) h.once, h.latest⟩
    exact outstanding_interruptForLiveTurn horder hg rfl rfl
  | answer i parsed =>
    obtain ⟨t, hi, hpending, hrunning, rfl⟩ := step_answer hst
    have hsame : (s.tasks.set i { t with progress := .answered parsed }).flatMap Task.outstanding =
        s.tasks.flatMap Task.outstanding := by
      refine flatMap_outstanding_set hi ?_
      rw [Task.outstanding.eq_def, Task.outstanding.eq_def, hpending, hrunning]
    refine ⟨?_, h.latest⟩
    rw [Background.outstanding, hsame]
    exact h.once
  | finish i =>
    obtain ⟨t, parsed, hi, hanswered, rfl⟩ := step_finish hst
    have hpending : t.pending = true := by
      by_contra hp
      exact h.settled t (List.mem_of_getElem? hi) (by simpa using hp) parsed hanswered
    have hdone : (s.tasks.flatMap Task.outstanding).Perm (t.item.2.number ::
        (s.tasks.set i { t with progress := .done }).flatMap Task.outstanding) := by
      refine flatMap_outstanding_done hi ?_ ?_
      · rw [Task.outstanding.eq_def, hpending, hanswered]
      · rw [Task.outstanding.eq_def]
        cases t.pending <;> rfl
    refine ⟨?_, newest_finish h.latest (hg t hi parsed (by rw [hanswered]; rfl))⟩
    have hmove : (s.outstanding ++ s.contributions.map Contribution.number).Perm
        (s.deferred.map (·.2.number) ++ (t.item.2.number ::
          (s.tasks.set i { t with progress := .done }).flatMap Task.outstanding) ++
            s.contributions.map Contribution.number) :=
      (hdone.append_left _).append_right _
    refine .trans ?_ (hmove.symm.trans h.once)
    rw [Background.outstanding, List.map_append, List.map_singleton, ← List.append_assoc]
    refine List.perm_append_comm.trans ?_
    rw [List.singleton_append, List.append_assoc, List.append_assoc, List.cons_append]
    exact List.perm_middle.symm
  | onTaskDone i =>
    obtain ⟨t, hi, hdone, rfl⟩ := step_onTaskDone hst
    have hsame : (s.tasks.set i { t with pending := false }).flatMap Task.outstanding =
        s.tasks.flatMap Task.outstanding := by
      refine flatMap_outstanding_set hi ?_
      rw [Task.outstanding_of_not_pending rfl, Task.outstanding.eq_def, hdone]
      cases t.pending <;> rfl
    refine ⟨?_, h.latest⟩
    rw [Background.outstanding, hsame]
    exact h.once

/-- In every run that is in order, each visit contributes once, and once nothing is queued
    or pending, it has; and each variable has the value of the latest visit that found one. -/
theorem exact_of_reachableIf {start : Config.Node}
    (hs : (extractions float H start vars).ReachableIf (Background.InOrder float) s) :
    s.Exact vars ∧
      (s.Idle → (s.contributions.map Contribution.number).Perm (List.range s.visits)) := by
  have hinv : s.Inv vars := by
    refine hs.invariant (I := Background.Inv vars) ⟨⟨?_, LastWrite.newest_nil⟩, ?_⟩ ?_
    · exact .nil
    · exact fun t ht => absurd ht List.not_mem_nil
    · exact fun _ _ _ h hg hst => h.step hg hst
  exact ⟨hinv.toExact, hinv.toExact.of_idle⟩

/-- Whatever the order was, the same contributions leave the same values. -/
theorem confluent {start : Config.Node}
    (hs : (extractions float H start vars).ReachableIf (Background.InOrder float) s)
    (hs' : (extractions float H start vars).ReachableIf (Background.InOrder float) s')
    (hmem : ∀ c, c ∈ s.contributions ↔ c ∈ s'.contributions) :
    s.runner.vars.get? = s'.runner.vars.get? := by
  have hexact := (exact_of_reachableIf hs).1
  have hexact' := (exact_of_reachableIf hs').1
  have hnodup : (s.contributions.map Contribution.number).Nodup :=
    ((hexact.once.nodup_iff).2 List.nodup_range).of_append_right
  exact hexact.latest.unique hexact'.latest hmem fun c hc c' hc' =>
    List.inj_on_of_nodup_map hnodup hc hc'

end

end

/-! ### Two visits of a node -/

def intakeNode : Config.Node where
  id := "1"
  type := "agent"
  name := "Intake"
  extraction := some { enabled := true, vars := [{ name := "city" }] }

def cityAnswer (city : String) : Dict String Json := [("city", .str city)]

/-- A call with a node that asks for the city. -/
def intakeCall : System (Background Unit) (BackgroundEvent Unit) :=
  @extractions .ascii (fun _ => none) Unit _ intakeNode []

instance (s : Background Unit) : Decidable s.Idle := inferInstanceAs (Decidable (_ ∧ _))

private def interrupted : Option (Background Unit) :=
  intakeCall.execIf (@Background.InOrder .ascii Unit fun _ => none) intakeCall.init
    [.extract intakeNode (), .startDeferred, .interruptForLiveTurn [(intakeNode, ⟨0, ()⟩)],
      .extract intakeNode (), .startDeferred, .answer 2 (cityAnswer "Oslo"),
      .answer 1 (cityAnswer "Rome"), .finish 1, .onTaskDone 1, .finish 2, .onTaskDone 2]

private theorem interrupted_isSome : interrupted.isSome := by decide

/-- The first visit is interrupted, and the second answer comes first, but the tasks end in
    the order of the visits. -/
theorem exact_of_reachableIf_intakeCall :
    ∃ s, intakeCall.ReachableIf (@Background.InOrder .ascii Unit fun _ => none) s ∧
      s.contributions = [⟨0, cityAnswer "Rome"⟩, ⟨1, cityAnswer "Oslo"⟩] ∧
      s.Exact [] ∧ (s.contributions.map Contribution.number).Perm (List.range s.visits) := by
  have hs := System.ReachableIf.execIf .init (Option.some_get interrupted_isSome).symm
  have hexact := @exact_of_reachableIf Unit _ [] .ascii _ _ _ hs
  exact ⟨interrupted.get interrupted_isSome, hs, rfl, hexact.1, hexact.2 (by decide)⟩

private def overtaken : Option (Background Unit) :=
  intakeCall.exec intakeCall.init
    [.extract intakeNode (), .extract intakeNode (), .startDeferred,
      .answer 0 (cityAnswer "Rome"), .answer 1 (cityAnswer "Oslo"), .finish 1, .finish 0,
      .onTaskDone 0, .onTaskDone 1]

private def repeated : Option (Background Unit) :=
  intakeCall.exec intakeCall.init
    [.extract intakeNode (), .startDeferred, .answer 0 (cityAnswer "Rome"), .finish 0,
      .interruptForLiveTurn [(intakeNode, ⟨0, ()⟩)], .onTaskDone 0, .startDeferred,
      .answer 1 (cityAnswer "Rome"), .finish 1, .onTaskDone 1]

private theorem overtaken_isSome : overtaken.isSome := by decide

private theorem repeated_isSome : repeated.isSome := by decide

/-- The answers of two visits come in the wrong order; or the caller speaks just as a task has
    been done, which then is done again. -/
theorem not_exact :
    (∃ s, intakeCall.Reachable s ∧ s.Idle ∧
      s.contributions = [⟨1, cityAnswer "Oslo"⟩, ⟨0, cityAnswer "Rome"⟩] ∧
      s.runner.vars.get? "city" = some (.str "Rome") ∧ ¬ s.Exact []) ∧
    ∃ s, intakeCall.Reachable s ∧ s.Idle ∧
      s.contributions = [⟨0, cityAnswer "Rome"⟩, ⟨0, cityAnswer "Rome"⟩] ∧ ¬ s.Exact [] := by
  constructor
  · refine ⟨overtaken.get overtaken_isSome, ?_, by decide, rfl, rfl, fun h => ?_⟩
    · exact System.Reachable.exec .init (Option.some_get overtaken_isSome).symm
    · rcases h.latest "city" with ⟨hnone, -⟩ | ⟨c, hc, hne, hvalue, hle⟩
      · exact absurd (hnone _ List.mem_cons_self) (Option.some_ne_none _)
      · have hc : c ∈ [(⟨1, cityAnswer "Oslo"⟩ : Contribution), ⟨0, cityAnswer "Rome"⟩] := hc
        have hone : 1 ≤ c.number := hle ⟨1, cityAnswer "Oslo"⟩ List.mem_cons_self nofun
        rcases List.mem_pair.1 hc with rfl | rfl
        · exact absurd (Json.str.inj (Option.some.inj hvalue)) (by decide)
        · exact absurd hone (by decide)
  · refine ⟨repeated.get repeated_isSome, ?_, by decide, rfl, fun h => ?_⟩
    · exact System.Reachable.exec .init (Option.some_get repeated_isSome).symm
    · exact absurd h.once (by decide)

end Yuviz.Conversation.Workflow
