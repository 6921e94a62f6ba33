import Yuviz.Conversation.Tools.DateSanity
import Yuviz.Conversation.Tools.Execution

/-!
# A turn of the model with its tools

The model is asked for a reply, and a tool call in it ends the generation: the
call and its result are appended to the history, and the model is asked again.
There are two budgets, of remote calls and of local ones, and a spent budget
takes its tools from what the model is offered. A date that was not confirmed is
rejected free of charge, but only twice; one that is unusable, always.

Each round of the loop is one step. What the model replies, and what the tools
return, is in the labels; so is what a new resolution of the tools finds.

As long as every call is usable (`Usable`), each takes something from one of the
budgets (`potential_lt`), and the turn ends (`generations_le`). A model that
keeps sending the same unusable date is asked for ever (`endless`).
-/

namespace Yuviz.Conversation.Tools

open Python
open Messages (ChatMessage ToolCall ToolResult ToolStatus foldToolResult)

structure ToolCallEvent where
  toolCallId : String
  toolName : String
  arguments : Dict String Json := []
  providerMetadata : Option Json := none

def ToolCallEvent.toolCall (e : ToolCallEvent) : ToolCall where
  id := e.toolCallId
  name := e.toolName
  arguments := .obj e.arguments
  providerMetadata := e.providerMetadata

/-- What a turn yields. -/
inductive TurnEvent
  | token (text : String)
  | localToolCompleted (toolName : String)
  | toolCallStarted (toolName : String)
  | deterministicSpoken (text : String)

structure Schema where
  name : String
  description : String
  parameters : Dict String Json

def ToolDefinition.toGenericSchema (d : ToolDefinition) : Schema where
  name := d.name
  description := d.description
  parameters := d.parametersSchema

/-- The result of a call with a date that is rejected. -/
def rejection (dateField reason : String) : ToolResult where
  status := .invalidArgument
  payload := [("missing_fields", .arr [.str dateField]), ("reason", .str reason)]

/-- `_REJECTION_REASONS`. -/
def rejectionReasons : List String := ["date_not_confirmed", "time_not_confirmed"]

structure ToolCallOrchestrator (P X : Type*) where
  executorRegistry : ExecutorRegistry P X
  maxToolIterations : ℕ := 2
  maxLocalToolCalls : ℕ := 8
  /-- `json.loads`, where `none` is an exception. -/
  loads : String → Option Json
  /-- It reads the results that `isRejection` looks for. -/
  loads_dumps : ∀ toolName dateField, dateFieldForTool toolName = some dateField →
    ∀ reason ∈ rejectionReasons, loads (rejection dateField reason).json.dumps =
      some (rejection dateField reason).json
  /-- `datetime.fromisoformat`, where `none` is an exception. -/
  fromisoformat : String → Option Datetime
  isoformat : Datetime → String
  /-- The characters of `\w`. -/
  isWord : Char → Bool

namespace ToolCallOrchestrator

variable {P X : Type*} (o : ToolCallOrchestrator P X)

/-! ### The date of a call -/

/-- `_MAX_DATE_CONFIRMATION_REJECTIONS`. -/
def maxDateConfirmationRejections : ℕ := 2

/-- The message is a rejection; a reason that is a list or an object is a `TypeError`. -/
def isRejection (m : ChatMessage) : Option Bool :=
  if m.role = .tool then
    match o.loads m.content with
    | some (.obj payload) =>
      match Json.get payload "reason" with
      | .str reason => some (reason ∈ rejectionReasons)
      | .arr _ | .obj _ => none
      | _ => some false
    | _ => some false
  else some false

def rejections (history : List ChatMessage) : ℕ := history.countP (o.isRejection · = some true)

/-- `_recent_rejection_count`. -/
def recentRejectionCount (history : List ChatMessage) : Option ℕ :=
  if ∀ m ∈ history, o.isRejection m ≠ none then some (o.rejections history) else none

/-- `_recent_user_text`. -/
def recentUserText (history : List ChatMessage) : String :=
  let userTexts := (history.filter (·.role = .user)).map (·.content)
  " ".intercalate (userTexts.drop (userTexts.length - 3))

/-- `_time_confirmable_texts`. -/
def timeConfirmableTexts : List ChatMessage → List String
  | [] => []
  | m :: ms =>
    if m.role = .user ∨ m.role = .assistant ∧ ms.head?.any (·.role = .user) then
      m.content :: timeConfirmableTexts ms
    else
      timeConfirmableTexts ms

def parseRequestedDate : Json → Option Datetime
  | .str value => if value = "" then none else o.fromisoformat value
  | _ => none

/-- The checks of a date that is neither past nor too far out. -/
def checkConfirmed (dateField : String) (dt : Datetime) (history : List ChatMessage) :
    Option (Option ToolResult) :=
  (o.recentRejectionCount history).map fun count =>
    if maxDateConfirmationRejections ≤ count then none
    else if recentUserText history ≠ "" ∧
        statedDayMismatch o.isWord dt.date.day (recentUserText history) then
      some (rejection dateField "date_not_confirmed")
    else if noTimeStated o.isWord (timeConfirmableTexts history) then
      some (rejection dateField "time_not_confirmed")
    else none

/-- `_check_requested_date`: the event, perhaps with a corrected year, and the rejection.
    The whole is `none` when there is an exception. -/
def checkRequestedDate (today : Date) (event : ToolCallEvent) (history : List ChatMessage) :
    Option (ToolCallEvent × Option ToolResult) :=
  match dateFieldForTool event.toolName with
  | none => some (event, none)
  | some dateField =>
    let rawValue := Json.get event.arguments dateField
    match o.parseRequestedDate rawValue with
    | none =>
      if rawValue.truthy then some (event, some (rejection dateField "invalid_date_format"))
      else some (event, none)
    | some dt =>
      if isInThePast dt today then
        match correctYearIfWrong dt today with
        | none => some (event, some (rejection dateField "date_in_past"))
        | some corrected =>
          let arguments := event.arguments.set dateField (.str (o.isoformat corrected))
          (o.checkConfirmed dateField corrected history).map fun result =>
            ({ event with arguments := arguments }, result)
      else if isTooFarOut dt today then
        some (event, some (rejection dateField "date_too_far_out"))
      else
        (o.checkConfirmed dateField dt history).map fun result => (event, result)

/-! ### The turn -/

/-- What `resolve` finds: the local tools, and the remote ones that are enabled. -/
structure Resolution where
  localTools : List ToolDefinition := []
  policies : List ResolvedToolPolicy := []

/-- A turn that is about to ask the model, or is over. -/
structure Turn where
  history : List ChatMessage
  iteration : ℕ := 0
  localCalls : ℕ := 0
  seenLocalNames : List String := []
  localByName : Dict String ToolDefinition := []
  policiesByName : Dict String ResolvedToolPolicy := []
  schemas : List Schema := []
  /-- The tool the model is made to call. -/
  toolChoice : Option String := none
  events : List TurnEvent := []
  /-- The calls of `generate` so far. -/
  generations : ℕ := 0
  isOver : Bool := false

/-- `resolve`. -/
def resolve (t : Turn) (x : Resolution) : Turn :=
  let found := Dict.ofPairs (x.localTools.map fun d => (d.name, d))
  let localByName := if o.maxLocalToolCalls ≤ t.localCalls then [] else found
  let policies := if o.maxToolIterations ≤ t.iteration then [] else x.policies
  { t with
    seenLocalNames := t.seenLocalNames ++ found.map Prod.fst
    localByName := localByName
    policiesByName := Dict.ofPairs (policies.map fun p => (p.definition.name, p))
    schemas :=
      ((policies.map ResolvedToolPolicy.definition).filter ToolDefinition.llmVisible).map
        ToolDefinition.toGenericSchema ++ localByName.map (·.2.toGenericSchema) }

/-- A tool call of the model, and what comes of it. -/
structure Call (P : Type*) where
  event : ToolCallEvent
  today : Date
  /-- What the provider manager has, as for `executeToolCall`. -/
  provider : ResolvedToolPolicy → Option P
  /-- What the handler returns, or the chain; nothing is an exception. -/
  result : Option ToolResult
  /-- What is found after a local call (nothing is an exception, again), -/
  afterLocal : Option Resolution := none
  /-- and at the end of a round. -/
  afterRound : Option Resolution := none

inductive Reply (P : Type*)
  | text
  | call (c : Call P)
  /-- The model raises an exception, or nobody listens to the turn any more. -/
  | raised

/-- One call of `generate`: the tokens, and how it ends. -/
structure Round (P : Type*) where
  tokens : List String := []
  reply : Reply P

/-- The end of a round with a tool call. -/
def finish (t : Turn) (event : ToolCallEvent) (result : ToolResult)
    (afterRound : Option Resolution) : Turn :=
  let t := { t with history := t.history ++ foldToolResult Json.dumps event.toolCall result }
  match result.deterministicResponse with
  | some text => { t with events := t.events ++ [.deterministicSpoken text], isOver := true }
  | none =>
    if result.IsCancelled then { t with isOver := true }
    else if o.maxToolIterations ≤ t.iteration then
      match afterRound with
      | none => { t with isOver := true }
      | some x => o.resolve t x
    else t

/-- The body of the loop, for a tool call. -/
def onToolCall (t : Turn) (c : Call P) : Turn :=
  let name := c.event.toolName
  if name ∈ t.localByName.map Prod.fst then
    let t := { t with localCalls := t.localCalls + 1 }
    let result := c.result.getD { status := .failed, error := some "local_tool_failed" }
    if result.IsCancelled then o.finish t c.event result c.afterRound
    else
      let t := { t with events := t.events ++ [.localToolCompleted name] }
      match c.afterLocal with
      | none => { t with isOver := true }
      | some x => o.finish (o.resolve t x) c.event result c.afterRound
  else if o.maxLocalToolCalls ≤ t.localCalls ∧ name ∈ t.seenLocalNames then
    o.finish t c.event { status := .failed, error := some "local_tool_call_cap_exceeded" }
      c.afterRound
  else
    match o.checkRequestedDate c.today c.event t.history with
    | none => { t with isOver := true }
    | some (event, some rejected) => o.finish t event rejected c.afterRound
    | some (event, none) =>
      let t := { t with
        iteration := t.iteration + 1
        events := t.events ++ [.toolCallStarted name] }
      let result :=
        match executeToolCall o.executorRegistry c.provider t.policiesByName name with
        | .error result => some result
        | .ok _ => c.result
      match result with
      | none => { t with isOver := true }
      | some result => o.finish t event result c.afterRound

/-- One round of the loop. The model calls nothing but what it is offered. -/
def step (t : Turn) (x : Round P) : Option Turn :=
  if t.isOver then none
  else
    let t := { t with
      toolChoice := none
      events := t.events ++ x.tokens.map .token
      generations := t.generations + 1 }
    match x.reply with
    | .text | .raised => some { t with isOver := true }
    | .call c =>
      if c.event.toolName ∈ t.schemas.map Schema.name then some (o.onToolCall t c) else none

/-- `run_turn`. -/
def runTurn (history : List ChatMessage) (forceToolName : Option String) (x : Resolution) :
    System Turn (Round P) where
  init := { o.resolve { history := history } x with toolChoice := forceToolName }
  step := o.step

/-! ### Usable calls -/

/-- The date of the call is missing, or neither past (but for a wrong year) nor too far out. -/
def DateUsable (today : Date) (event : ToolCallEvent) : Prop :=
  ∀ dateField, dateFieldForTool event.toolName = some dateField →
    let rawValue := Json.get event.arguments dateField
    match o.parseRequestedDate rawValue with
    | none => rawValue.truthy = false
    | some dt =>
      if isInThePast dt today then (correctYearIfWrong dt today).isSome = true
      else isTooFarOut dt today = false

/-- A tool call is of a local tool, or else has a usable date, and its tool has not
    the name of a local one when those have been used up. -/
def Usable (t : Turn) (x : Round P) : Prop :=
  match x.reply with
  | .call c =>
    c.event.toolName ∈ t.localByName.map Prod.fst ∨
      ¬ (o.maxLocalToolCalls ≤ t.localCalls ∧ c.event.toolName ∈ t.seenLocalNames) ∧
        o.DateUsable c.today c.event
  | _ => True

/-! ### What a round uses up -/

variable {o} {t t' : Turn} {c : Call P} {x : Round P} {event : ToolCallEvent} {result : ToolResult}
  {after : Option Resolution}

variable (o) in
/-- What is left of the budgets, and of the rejections that are free. -/
def potential (t : Turn) : ℕ :=
  (o.maxLocalToolCalls - t.localCalls) + (o.maxToolIterations - t.iteration) +
    (maxDateConfirmationRejections - o.rejections t.history)

variable (o) in
/-- A tool is only offered while there is something left of its budget. -/
structure Offers (t : Turn) : Prop where
  localCalls : t.localByName ≠ [] → t.localCalls < o.maxLocalToolCalls
  name : ∀ e ∈ t.localByName, e.1 = e.2.name
  iteration : ∀ n ∈ t.schemas.map Schema.name, n ∉ t.localByName.map Prod.fst →
    t.iteration < o.maxToolIterations

theorem offers_resolve (t : Turn) (x : Resolution) : o.Offers (o.resolve t x) := by
  have hname : ∀ e ∈ (o.resolve t x).localByName, e.1 = e.2.name := by
    intro e he
    rw [resolve] at he
    dsimp only at he
    split_ifs at he
    · exact absurd he List.not_mem_nil
    · obtain ⟨d, -, rfl⟩ := List.mem_map.1 (Dict.mem_of_mem_ofPairs he)
      rfl
  refine ⟨fun h => ?_, hname, fun n hn hlocal => ?_⟩
  · rw [resolve] at h
    dsimp only at h
    exact lt_of_not_ge fun hle => h (if_pos hle)
  · refine lt_of_not_ge fun hle => hlocal ?_
    -- The remote tools are gone, so it is a local one.
    have hschemas : (o.resolve t x).schemas =
        (o.resolve t x).localByName.map (·.2.toGenericSchema) := by
      rw [resolve]
      dsimp only
      rw [if_pos (show o.maxToolIterations ≤ t.iteration from hle)]
      rfl
    rw [hschemas, List.map_map] at hn
    obtain ⟨e, he, rfl⟩ := List.mem_map.1 hn
    exact List.mem_map.2 ⟨e, he, hname e he⟩

theorem offers_finish (hlocal : t.localByName ≠ [] → t.localCalls < o.maxLocalToolCalls)
    (hname : ∀ e ∈ t.localByName, e.1 = e.2.name)
    (hover : (o.finish t event result after).isOver = false) :
    o.Offers (o.finish t event result after) := by
  revert hover
  unfold finish
  dsimp only
  rcases result.deterministicResponse with _ | text
  · dsimp only
    split_ifs with hcancel hle
    · exact nofun
    · rcases after with _ | x
      · exact nofun
      · exact fun _ => offers_resolve _ _
    · exact fun _ => ⟨hlocal, hname, fun _ _ _ => lt_of_not_ge hle⟩
  · exact nofun

/-- The budgets and the history at the end of a round. -/
theorem finish_frame (t : Turn) (event : ToolCallEvent) (result : ToolResult)
    (after : Option Resolution) :
    (o.finish t event result after).generations = t.generations ∧
      o.potential (o.finish t event result after) =
        o.potential { t with
          history := t.history ++ foldToolResult Json.dumps event.toolCall result } := by
  unfold finish
  dsimp only
  rcases result.deterministicResponse with _ | text
  · dsimp only
    split_ifs
    · exact ⟨rfl, rfl⟩
    · rcases after with _ | x <;> exact ⟨rfl, rfl⟩
    · exact ⟨rfl, rfl⟩
  · exact ⟨rfl, rfl⟩

theorem finish_generations : (o.finish t event result after).generations = t.generations :=
  (finish_frame t event result after).1

theorem finish_potential : o.potential (o.finish t event result after) =
    o.potential { t with history := t.history ++ foldToolResult Json.dumps event.toolCall result } :=
  (finish_frame t event result after).2

theorem rejections_foldToolResult (history : List ChatMessage) (call : ToolCall)
    (result : ToolResult) :
    o.rejections history ≤ o.rejections (history ++ foldToolResult Json.dumps call result) := by
  rw [rejections, rejections, List.countP_append]
  exact Nat.le_add_right _ _

/-- A result that is free is counted. -/
theorem rejections_rejection {toolName dateField reason : String}
    (hfield : dateFieldForTool toolName = some dateField) (hreason : reason ∈ rejectionReasons)
    (history : List ChatMessage) (call : ToolCall) :
    o.rejections history + 1 ≤
      o.rejections (history ++ foldToolResult Json.dumps call (rejection dateField reason)) := by
  have htool (m : ChatMessage) (hrole : m.role = .tool)
      (hcontent : m.content = (rejection dateField reason).json.dumps) :
      o.isRejection m = some true := by
    rw [isRejection, if_pos hrole, hcontent, o.loads_dumps toolName dateField hfield reason hreason]
    exact congrArg some (decide_eq_true hreason)
  rw [rejections, rejections, List.countP_append]
  refine Nat.add_le_add_left ?_ _
  rw [foldToolResult, List.countP_cons, List.countP_singleton, htool _ rfl rfl]
  exact Nat.le_add_left _ _

/-- A usable date is rejected only where that is counted. -/
theorem checkConfirmed_eq_some {dateField : String} {dt : Datetime} {history : List ChatMessage}
    (h : o.checkConfirmed dateField dt history = some (some result)) :
    o.rejections history < maxDateConfirmationRejections ∧
      ∃ reason ∈ rejectionReasons, result = rejection dateField reason := by
  obtain ⟨count, hcount, h⟩ := Option.map_eq_some_iff.1 h
  obtain rfl : o.rejections history = count :=
    Option.some.inj (Option.ite_none_right_eq_some.1 hcount).2
  split_ifs at h with hle hday htime
  · exact ⟨lt_of_not_ge hle, "date_not_confirmed", by decide, (Option.some.inj h).symm⟩
  · exact ⟨lt_of_not_ge hle, "time_not_confirmed", by decide, (Option.some.inj h).symm⟩

theorem checkRequestedDate_of_dateUsable {today : Date} {event' : ToolCallEvent}
    {history : List ChatMessage} (hu : o.DateUsable today event)
    (h : o.checkRequestedDate today event history = some (event', some result)) :
    o.rejections history < maxDateConfirmationRejections ∧
      ∃ dateField, dateFieldForTool event.toolName = some dateField ∧
        ∃ reason ∈ rejectionReasons, result = rejection dateField reason := by
  rw [checkRequestedDate] at h
  rcases hfield : dateFieldForTool event.toolName with _ | dateField <;> rw [hfield] at h
  · exact absurd h (by simp)
  · have hu := hu dateField hfield
    dsimp only at h hu
    rcases hdt : o.parseRequestedDate (Json.get event.arguments dateField) with _ | dt <;>
      rw [hdt] at h hu <;> dsimp only at h hu
    · rw [hu] at h
      exact absurd h (by simp)
    · split_ifs at h hu with hpast hfar
      · obtain ⟨corrected, hcorrected⟩ := Option.isSome_iff_exists.1 hu
        rw [hcorrected] at h
        obtain ⟨r, hr, h⟩ := Option.map_eq_some_iff.1 h
        obtain ⟨-, rfl⟩ := Prod.mk.inj h
        exact ⟨(checkConfirmed_eq_some hr).1, dateField, rfl, (checkConfirmed_eq_some hr).2⟩
      · exact absurd hu (by simp [hfar])
      · obtain ⟨r, hr, h⟩ := Option.map_eq_some_iff.1 h
        obtain ⟨-, rfl⟩ := Prod.mk.inj h
        exact ⟨(checkConfirmed_eq_some hr).1, dateField, rfl, (checkConfirmed_eq_some hr).2⟩

theorem finish_isOver_of_isCancelled (t : Turn) (event : ToolCallEvent)
    (after : Option Resolution) (h : result.IsCancelled) :
    (o.finish t event result after).isOver = true := by
  unfold finish
  dsimp only
  rcases result.deterministicResponse with _ | text
  · dsimp only
    rw [if_pos h]
  · rfl

theorem finish_potential_le : o.potential (o.finish t event result after) ≤ o.potential t := by
  rw [finish_potential]
  have := rejections_foldToolResult (o := o) t.history event.toolCall result
  simp only [potential]
  omega

@[simp] theorem resolve_potential (t : Turn) (x : Resolution) :
    o.potential (o.resolve t x) = o.potential t := rfl

/-- What a usable call does: it takes something from a budget, unless the turn is over. -/
structure Spends (o : ToolCallOrchestrator P X) (t t' : Turn) : Prop where
  generations : t'.generations = t.generations
  le : o.potential t' ≤ o.potential t
  lt : t'.isOver = false → o.potential t' < o.potential t
  offers : t'.isOver = false → o.Offers t'

theorem spends_over (t : Turn) : o.Spends t { t with isOver := true } :=
  ⟨rfl, le_rfl, nofun, nofun⟩

/-- A local call. -/
theorem spends_local (ht : o.Offers t) (hlocal : c.event.toolName ∈ t.localByName.map Prod.fst) :
    o.Spends t (o.onToolCall t c) := by
  have hne : t.localByName ≠ [] := by
    rintro h
    simp [h] at hlocal
  have hlt := ht.localCalls hne
  have hspent : o.potential { t with localCalls := t.localCalls + 1 } < o.potential t := by
    simp only [potential]
    omega
  unfold onToolCall
  dsimp only
  rw [if_pos hlocal]
  split_ifs with hcancel
  · have hover := finish_isOver_of_isCancelled (o := o)
      { t with localCalls := t.localCalls + 1 } c.event c.afterRound hcancel
    refine ⟨finish_generations, finish_potential_le.trans hspent.le, fun h => ?_, fun h => ?_⟩
    all_goals rw [hover] at h; contradiction
  · rcases c.afterLocal with _ | x
    · exact ⟨rfl, hspent.le, nofun, nofun⟩
    · have hoff := offers_resolve (o := o)
        { t with
          localCalls := t.localCalls + 1
          events := t.events ++ [.localToolCompleted c.event.toolName] } x
      exact ⟨finish_generations, finish_potential_le.trans hspent.le,
        fun _ => finish_potential_le.trans_lt hspent,
        offers_finish hoff.localCalls hoff.name⟩

/-- A call of a remote tool. -/
theorem spends_remote (ht : o.Offers t) (hname : c.event.toolName ∈ t.schemas.map Schema.name)
    (hlocal : c.event.toolName ∉ t.localByName.map Prod.fst)
    (hcap : ¬ (o.maxLocalToolCalls ≤ t.localCalls ∧ c.event.toolName ∈ t.seenLocalNames))
    (hdate : o.DateUsable c.today c.event) : o.Spends t (o.onToolCall t c) := by
  have hlt := ht.iteration _ hname hlocal
  unfold onToolCall
  dsimp only
  rw [if_neg hlocal, if_neg hcap]
  rcases hcheck : o.checkRequestedDate c.today c.event t.history with _ | ⟨event, _ | rejected⟩
  · exact spends_over t
  · dsimp only
    have hspent : o.potential { t with iteration := t.iteration + 1 } < o.potential t := by
      simp only [potential]
      omega
    split
    · exact ⟨rfl, hspent.le, nofun, nofun⟩
    · exact ⟨finish_generations, finish_potential_le.trans hspent.le,
        fun _ => finish_potential_le.trans_lt hspent, offers_finish ht.localCalls ht.name⟩
  · -- The rejection is counted in the history, where there are fewer than two.
    obtain ⟨hfew, dateField, hfield, reason, hreason, rfl⟩ :=
      checkRequestedDate_of_dateUsable hdate hcheck
    have hspent : o.potential (o.finish t event (rejection dateField reason) c.afterRound) <
        o.potential t := by
      have := rejections_rejection (o := o) hfield hreason t.history event.toolCall
      rw [finish_potential]
      simp only [potential]
      omega
    exact ⟨finish_generations, hspent.le, fun _ => hspent, offers_finish ht.localCalls ht.name⟩

/-! ### The length of a turn -/

variable {history : List ChatMessage} {forceToolName : Option String} {r : Resolution}

/-- What holds between two rounds. -/
structure Bounded (o : ToolCallOrchestrator P X) (t : Turn) : Prop where
  le : t.generations + o.potential t + (if t.isOver then 0 else 1) ≤
    o.maxToolIterations + o.maxLocalToolCalls + 3
  offers : t.isOver = false → o.Offers t

theorem bounded_init :
    Bounded o { o.resolve { history := history } r with toolChoice := forceToolName } := by
  refine ⟨?_, fun _ => ?_⟩
  · change 0 + o.potential (o.resolve { history := history } r) + 1 ≤ _
    rw [resolve_potential]
    simp only [potential, maxDateConfirmationRejections]
    omega
  · have hoff := offers_resolve (o := o) { history := history } r
    exact ⟨hoff.localCalls, hoff.name, hoff.iteration⟩

theorem Bounded.step (ht : Bounded o t) (hu : o.Usable t x) (hst : o.step t x = some t') :
    Bounded o t' := by
  obtain ⟨tokens, reply⟩ := x
  unfold ToolCallOrchestrator.step at hst
  dsimp only at hst
  split_ifs at hst with hover
  have hle := ht.le
  rw [if_neg hover] at hle
  have hover' : t.isOver = false := by simpa using hover
  set t₁ : Turn := { t with
    toolChoice := none
    events := t.events ++ tokens.map .token
    generations := t.generations + 1 } with ht₁
  have hoff := ht.offers hover'
  have hoff₁ : o.Offers t₁ := ⟨hoff.localCalls, hoff.name, hoff.iteration⟩
  have hpotential : o.potential t₁ = o.potential t := rfl
  -- A round without a tool call is the last one.
  have hlast : Bounded o { t₁ with isOver := true } := by
    refine ⟨?_, nofun⟩
    change t.generations + 1 + o.potential t + 0 ≤ _
    omega
  unfold Usable at hu
  rcases reply with _ | c | _
  · exact Option.some.inj hst ▸ hlast
  · dsimp only at hst hu
    split_ifs at hst with hname
    obtain rfl := Option.some.inj hst
    have hspends : o.Spends t₁ (o.onToolCall t₁ c) := by
      by_cases hlocal : c.event.toolName ∈ t.localByName.map Prod.fst
      · exact spends_local hoff₁ hlocal
      · obtain ⟨hcap, hdate⟩ := hu.resolve_left hlocal
        exact spends_remote hoff₁ hname hlocal hcap hdate
    have hgenerations : (o.onToolCall t₁ c).generations = t.generations + 1 :=
      hspends.generations
    have hbound : (o.onToolCall t₁ c).generations + o.potential (o.onToolCall t₁ c) +
        (if (o.onToolCall t₁ c).isOver then 0 else 1) ≤
          o.maxToolIterations + o.maxLocalToolCalls + 3 := by
      split_ifs with h
      · have := hspends.le
        omega
      · have := hspends.lt (by simpa using h)
        omega
    exact ⟨hbound, hspends.offers⟩
  · exact Option.some.inj hst ▸ hlast

/-- A turn in which every call is usable asks the model at most once for each unit
    of the two budgets, twice more for a date to be confirmed, and once to end. -/
theorem generations_le {P X : Type*} {o : ToolCallOrchestrator P X} {history : List ChatMessage}
    {forceToolName : Option String} {r : Resolution} {t : Turn}
    (ht : (o.runTurn history forceToolName r).ReachableIf o.Usable t) :
    t.generations ≤ o.maxToolIterations + o.maxLocalToolCalls + 3 := by
  have hb : Bounded o t := ht.invariant bounded_init fun _ _ _ hb hu hst => hb.step hu hst
  have := hb.le
  omega

/-! ### Calls that are free -/

/-- A date that is not usable is rejected, whatever was said before. -/
theorem checkRequestedDate_of_not_dateUsable {today : Date} (history : List ChatMessage)
    (hu : ¬ o.DateUsable today event) :
    ∃ dateField reason,
      o.checkRequestedDate today event history = some (event, some (rejection dateField reason)) := by
  simp only [DateUsable, not_forall] at hu
  obtain ⟨dateField, hfield, hu⟩ := hu
  rw [checkRequestedDate, hfield]
  refine ⟨dateField, ?_⟩
  dsimp only
  rcases hdt : o.parseRequestedDate (Json.get event.arguments dateField) with _ | dt <;>
    rw [hdt] at hu <;> dsimp only at hu
  · exact ⟨"invalid_date_format", if_pos (by simpa using hu)⟩
  · dsimp only
    split_ifs at hu with hpast
    · rw [Bool.not_eq_true, Option.isSome_eq_false_iff, Option.isNone_iff_eq_none] at hu
      rw [if_pos hpast, hu]
      exact ⟨"date_in_past", rfl⟩
    · rw [if_neg hpast, if_pos (by simpa using hu)]
      exact ⟨"date_too_far_out", rfl⟩

/-- A call that is not usable is answered, and nothing but the history has changed. -/
theorem onToolCall_of_not_usable (hiteration : t.iteration < o.maxToolIterations)
    (tokens : List String) (hu : ¬ o.Usable t ⟨tokens, .call c⟩) :
    ∃ result, o.onToolCall t c =
      { t with history := t.history ++ foldToolResult Json.dumps c.event.toolCall result } := by
  have hfinish (result : ToolResult) (hnone : result.deterministicResponse = none)
      (hcancel : ¬ result.IsCancelled) : o.finish t c.event result c.afterRound =
        { t with history := t.history ++ foldToolResult Json.dumps c.event.toolCall result } := by
    unfold finish
    dsimp only
    rw [hnone]
    dsimp only
    rw [if_neg hcancel, if_neg (not_le.2 hiteration)]
  rw [Usable, not_or] at hu
  obtain ⟨hlocal, hfree⟩ := hu
  unfold onToolCall
  dsimp only
  rw [if_neg hlocal]
  split_ifs with hcap
  · exact ⟨_, hfinish _ rfl (by decide)⟩
  · have hdate : ¬ o.DateUsable c.today c.event := fun hdate => hfree ⟨hcap, hdate⟩
    obtain ⟨dateField, reason, hcheck⟩ := checkRequestedDate_of_not_dateUsable t.history hdate
    rw [hcheck]
    exact ⟨_, hfinish _ rfl fun h => absurd h.1 (by simp [rejection])⟩

/-- A model that repeats a call that is not usable is asked again and again. -/
theorem endless (ht : (o.runTurn history forceToolName r).ReachableIf o.Usable t)
    (hover : t.isOver = false) (hname : c.event.toolName ∈ t.schemas.map Schema.name)
    (hu : ¬ o.Usable t ⟨[], .call c⟩) (n : ℕ) :
    ∃ t', (o.runTurn history forceToolName r).Reachable t' ∧
      t'.generations = t.generations + n := by
  have hb : Bounded o t := ht.invariant bounded_init fun _ _ _ hb hu hst => hb.step hu hst
  have hlocal : c.event.toolName ∉ t.localByName.map Prod.fst := fun h => hu (.inl h)
  have hiteration := (hb.offers hover).iteration _ hname hlocal
  -- What the call depends on stays as it is.
  suffices ∃ t', (o.runTurn history forceToolName r).Reachable t' ∧
      t'.generations = t.generations + n ∧ t'.isOver = false ∧ t'.schemas = t.schemas ∧
      t'.iteration = t.iteration ∧ t'.localCalls = t.localCalls ∧
      t'.localByName = t.localByName ∧ t'.seenLocalNames = t.seenLocalNames by
    obtain ⟨t', ht', hgenerations, -⟩ := this
    exact ⟨t', ht', hgenerations⟩
  induction n with
  | zero => exact ⟨t, ht.reachable, rfl, hover, rfl, rfl, rfl, rfl, rfl⟩
  | succ n ih =>
    obtain ⟨t', ht', hgenerations, hover', hschemas, hiteration', hcalls, hlocals, hseen⟩ := ih
    let t₁ : Turn := { t' with
      toolChoice := none
      events := t'.events ++ []
      generations := t'.generations + 1 }
    have hu' : ¬ o.Usable t₁ ⟨[], .call c⟩ := by
      change ¬ (_ ∈ t'.localByName.map Prod.fst ∨
        ¬ (o.maxLocalToolCalls ≤ t'.localCalls ∧ _ ∈ t'.seenLocalNames) ∧ _)
      rw [hlocals, hcalls, hseen]
      exact hu
    have hiteration₁ : t₁.iteration < o.maxToolIterations := hiteration'.symm ▸ hiteration
    obtain ⟨result, hresult⟩ := onToolCall_of_not_usable hiteration₁ [] hu'
    have hst : o.step t' ⟨[], .call c⟩ = some (o.onToolCall t₁ c) := by
      unfold step
      rw [if_neg (by simp [hover'])]
      exact if_pos (hschemas.symm ▸ hname)
    refine ⟨o.onToolCall t₁ c, ht'.step (l := ⟨[], .call c⟩) trivial hst, ?_⟩
    rw [hresult]
    exact ⟨congrArg (· + 1) hgenerations, hover', hschemas, hiteration', hcalls, hlocals, hseen⟩

/-! ### A model that invents a date -/

/-- A reader of the results that are looked for, and of no other document. -/
def loadsRejection (text : String) : Option Json :=
  (["requested_datetime", "new_requested_datetime"].flatMap fun dateField =>
    rejectionReasons.map fun reason => (rejection dateField reason).json).find? (·.dumps = text)

theorem loadsRejection_dumps (toolName dateField : String)
    (h : dateFieldForTool toolName = some dateField) (reason : String)
    (hreason : reason ∈ rejectionReasons) :
    loadsRejection (rejection dateField reason).json.dumps =
      some (rejection dateField reason).json := by
  rw [dateFieldForTool] at h
  split_ifs at h
  all_goals
    obtain rfl := Option.some.inj h
    rw [rejectionReasons, List.mem_pair] at hreason
    rcases hreason with rfl | rfl <;> rfl

/-- An orchestrator with the calendar's tool, and a clock that reads no text. -/
def calendarOrchestrator : ToolCallOrchestrator Unit Unit where
  executorRegistry := Calls.calendar
  loads := loadsRejection
  loads_dumps := loadsRejection_dumps
  fromisoformat _ := none
  isoformat dt := dt.time
  isWord c := c.isAlphanum || c = '_'

/-- The tools of an agent that books appointments. -/
def booking : Resolution where
  policies := [{ definition := { name := "book_appointment" } }]

/-- A call of the tool with the arguments. -/
def book (arguments : Dict String Json) : Call Unit where
  event := { toolCallId := "call_1", toolName := "book_appointment", arguments := arguments }
  today := ⟨2026, 8, 1, by decide⟩
  provider _ := some ()
  result := some { status := .invalidArgument }

theorem generations_le_booking :
    ∃ t, (calendarOrchestrator.runTurn [] none booking).ReachableIf calendarOrchestrator.Usable t ∧
      t.generations = 2 ∧
      t.generations ≤ calendarOrchestrator.maxToolIterations +
        calendarOrchestrator.maxLocalToolCalls + 3 := by
  have husable (t : Turn) (ht : t.seenLocalNames = []) :
      calendarOrchestrator.Usable t ⟨[], .call (book [])⟩ := by
    refine .inr ⟨fun h => ?_, fun dateField hfield => ?_⟩
    · rw [ht] at h
      exact absurd h.2 List.not_mem_nil
    · obtain rfl := Option.some.inj hfield
      rfl
  let sys := calendarOrchestrator.runTurn [] none booking
  have hcall : sys.ReachableIf calendarOrchestrator.Usable _ :=
    .step (l := ⟨[], .call (book [])⟩) .init (husable _ rfl) rfl
  have htext : sys.ReachableIf calendarOrchestrator.Usable _ :=
    hcall.step (l := ⟨[], .text⟩) trivial rfl
  exact ⟨_, htext, rfl, generations_le htext⟩

/-- No constant is enough, if the model repeats a date that is none. -/
theorem not_bounded :
    ¬ ∃ k, ∀ t, (calendarOrchestrator.runTurn [] none booking).Reachable t →
      t.generations ≤ calendarOrchestrator.maxToolIterations +
        calendarOrchestrator.maxLocalToolCalls + k := by
  rintro ⟨k, h⟩
  let sys := calendarOrchestrator.runTurn [] none booking
  have hunusable : ¬ calendarOrchestrator.Usable sys.init
      ⟨[], .call (book [("requested_datetime", .str "tomorrow")])⟩ := by
    rintro (hlocal | ⟨-, hdate⟩)
    · exact List.not_mem_nil hlocal
    · have htruthy : (Json.str "tomorrow").truthy = false := hdate "requested_datetime" rfl
      exact absurd htruthy (by decide)
  obtain ⟨t, ht, hgenerations⟩ :=
    endless (n := 11 + k) .init rfl (by decide) hunusable
  have hle := h t ht
  have hR : calendarOrchestrator.maxToolIterations = 2 := rfl
  have hL : calendarOrchestrator.maxLocalToolCalls = 8 := rfl
  omega

end ToolCallOrchestrator

end Yuviz.Conversation.Tools
