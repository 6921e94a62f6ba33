import Yuviz.Python.Json

/-!
# The tool calls of an OpenAI stream

`OpenAILLM.generate_with_tools` goes over the lines of the response and puts the
tool calls together from their fragments, by index. They are released at the
first chunk that ends with `tool_calls`, and at no other end of the stream. So
if the fragments are over when a chunk reports how the response has ended, the
calls are all there if and only if there are none, or that is what is reported
(`toolCalls_eq_iff`).

`json.loads` of the arguments is left open, and so is how a line is read: one
that is no event, is malformed or has no choices is `skip`.
-/

namespace Yuviz.Conversation.OpenAILLM

open Python

/-- An entry of `delta.tool_calls`. A field that is not there, or null, is empty. -/
structure ToolCallDelta where
  index : ℤ := 0
  id : String := ""
  name : String := ""
  arguments : String := ""
  deriving DecidableEq

/-- The first choice of a chunk. -/
structure Chunk where
  toolCalls : List ToolCallDelta := []
  content : String := ""
  finishReason : Option String := none
  deriving DecidableEq

inductive Line
  | skip
  | chunk (c : Chunk)
  /-- `[DONE]` -/
  | done
  deriving DecidableEq

inductive TurnEvent
  | token (text : String)
  | toolCall (toolCallId toolName : String) (arguments : Json)

def TurnEvent.isToolCall : TurnEvent → Bool
  | .token _ => false
  | .toolCall .. => true

/-- A call that is accumulated. -/
structure Entry where
  id : Option String := none
  name : Option String := none
  arguments : String := ""

def Entry.add (entry : Entry) (tc : ToolCallDelta) : Entry where
  id := if tc.id ≠ "" then some tc.id else entry.id
  name := if tc.name ≠ "" then some tc.name else entry.name
  arguments := if tc.arguments ≠ "" then entry.arguments ++ tc.arguments else entry.arguments

def accumulate (accumulating : Dict ℤ Entry) (tc : ToolCallDelta) : Dict ℤ Entry :=
  accumulating.set tc.index (((accumulating.get? tc.index).getD {}).add tc)

section

variable (loads : String → Option Json)

/-- The arguments; malformed ones are none. -/
def parseArguments (text : String) : Json :=
  if text ≠ "" then (loads text).getD (.obj []) else .obj []

def toolCallEvent (i : ℤ) (entry : Entry) : TurnEvent :=
  .toolCall (orElse entry.id ("call_" ++ toString i)) (orElse entry.name "")
    (parseArguments loads entry.arguments)

/-- The events of the lines that are left. -/
def events : Dict ℤ Entry → List Line → List TurnEvent
  | _, [] => []
  | accumulating, .skip :: lines => events accumulating lines
  | _, .done :: _ => []
  | accumulating, .chunk c :: lines =>
    let accumulating := c.toolCalls.foldl accumulate accumulating
    (if c.content ≠ "" then [.token c.content] else []) ++
      if c.finishReason = some "tool_calls" then
        accumulating.map fun e => toolCallEvent loads e.1 e.2
      else events accumulating lines

def generateWithTools (lines : List Line) : List TurnEvent := events loads [] lines

/-! ### The calls of a stream -/

/-- The fragments, up to the end of the stream. -/
def fragments : List Line → List ToolCallDelta
  | [] => []
  | .skip :: lines => fragments lines
  | .done :: _ => []
  | .chunk c :: lines => c.toolCalls ++ fragments lines

/-- The last value of a field that is not empty. -/
def lastOf (field : ToolCallDelta → String) (ds : List ToolCallDelta) : Option String :=
  ((ds.map field).filter (· ≠ "")).getLast?

/-- The indices, in the order in which they first come. -/
def indices (ds : List ToolCallDelta) : List ℤ :=
  ds.foldl (fun is d => if d.index ∈ is then is else is ++ [d.index]) []

/-- The fragments of an index, together. -/
def gathered (ds : List ToolCallDelta) (i : ℤ) : Entry :=
  let own := ds.filter (·.index = i)
  ⟨lastOf ToolCallDelta.id own, lastOf ToolCallDelta.name own,
    String.join (own.map ToolCallDelta.arguments)⟩

/-- Each call, once. -/
def calls (ds : List ToolCallDelta) : List TurnEvent :=
  (indices ds).map fun i => toolCallEvent loads i (gathered ds i)

/-- No fragment comes after a chunk that reports how the response has ended. -/
def EndsNormally : List Line → Prop
  | [] => True
  | .skip :: lines => EndsNormally lines
  | .done :: _ => True
  | .chunk c :: lines => (c.finishReason ≠ none → fragments lines = []) ∧ EndsNormally lines

/-- A chunk reports that it has ended with tool calls. -/
def ReportsToolCalls : List Line → Prop
  | [] => False
  | .skip :: lines => ReportsToolCalls lines
  | .done :: _ => False
  | .chunk c :: lines => c.finishReason = some "tool_calls" ∨ ReportsToolCalls lines

end

variable {loads : String → Option Json} {ds : List ToolCallDelta} {d : ToolCallDelta} {i : ℤ}

theorem indices_concat (ds : List ToolCallDelta) (d : ToolCallDelta) :
    indices (ds ++ [d]) = if d.index ∈ indices ds then indices ds else indices ds ++ [d.index] := by
  rw [indices, List.foldl_append]
  rfl

theorem mem_indices_iff : i ∈ indices ds ↔ ∃ d ∈ ds, d.index = i := by
  induction ds using List.reverseRecOn with
  | nil => simp [indices]
  | append_singleton ds d ih =>
    have hmem : i ∈ indices (ds ++ [d]) ↔ i ∈ indices ds ∨ d.index = i := by
      rw [indices_concat]
      split_ifs with hd
      · exact ⟨.inl, fun h => h.elim (fun h => h) fun h => h ▸ hd⟩
      · rw [List.mem_append, List.mem_singleton, @eq_comm _ i]
    rw [hmem, ih]
    simp only [List.mem_append, List.mem_singleton, or_and_right, exists_or, exists_eq_left]

theorem lastOf_concat (field : ToolCallDelta → String) (ds : List ToolCallDelta)
    (d : ToolCallDelta) :
    lastOf field (ds ++ [d]) = if field d ≠ "" then some (field d) else lastOf field ds := by
  rw [lastOf, List.map_append, List.filter_append, List.map_singleton, List.filter_singleton]
  split_ifs with hd
  · rw [decide_eq_true hd, cond_true, List.getLast?_concat]
  · rw [decide_eq_false hd, cond_false, List.append_nil, lastOf]

/-- A fragment is added to those of its index, -/
theorem gathered_concat_self (ds : List ToolCallDelta) (d : ToolCallDelta) :
    gathered (ds ++ [d]) d.index = (gathered ds d.index).add d := by
  have hown : (ds ++ [d]).filter (·.index = d.index) = ds.filter (·.index = d.index) ++ [d] := by
    rw [List.filter_append, List.filter_singleton, decide_eq_true rfl, cond_true]
  have hjoin : String.join ((ds.filter (·.index = d.index) ++ [d]).map ToolCallDelta.arguments) =
      if d.arguments ≠ "" then
        String.join ((ds.filter (·.index = d.index)).map ToolCallDelta.arguments) ++ d.arguments
      else String.join ((ds.filter (·.index = d.index)).map ToolCallDelta.arguments) := by
    rw [List.map_append, List.map_singleton, String.join, String.join, List.foldl_append]
    split_ifs with hd
    · rfl
    · rw [List.foldl_cons, not_not.1 hd, String.append_empty, List.foldl_nil]
  simp only [gathered, hown, lastOf_concat, hjoin, Entry.add]

/-- and leaves the others. -/
theorem gathered_concat_of_ne (ds : List ToolCallDelta) (h : d.index ≠ i) :
    gathered (ds ++ [d]) i = gathered ds i := by
  have hown : (ds ++ [d]).filter (·.index = i) = ds.filter (·.index = i) := by
    rw [List.filter_append, List.filter_singleton, decide_eq_false h, cond_false, List.append_nil]
  simp only [gathered, hown]

theorem gathered_of_notMem (h : i ∉ indices ds) : gathered ds i = {} := by
  have hown : ds.filter (·.index = i) = [] := by
    rw [List.filter_eq_nil_iff]
    exact fun d hd hi => h (mem_indices_iff.2 ⟨d, hd, of_decide_eq_true hi⟩)
  simp only [gathered, hown]
  rfl

theorem get?_graph {κ ν : Type*} [DecidableEq κ] (f : κ → ν) (l : List κ) (k : κ) :
    Dict.get? (l.map fun i => (i, f i)) k = if k ∈ l then some (f k) else none := by
  induction l with
  | nil => rfl
  | cons i l ih =>
    rw [Dict.get?] at ih ⊢
    rw [List.map_cons, List.find?_cons]
    by_cases hi : i = k
    · simp [hi]
    · simp only [hi, decide_false, ih, List.mem_cons, Ne.symm hi, false_or]

/-- What is accumulated of the fragments. -/
theorem foldl_accumulate (ds : List ToolCallDelta) :
    ds.foldl accumulate [] = (indices ds).map fun i => (i, gathered ds i) := by
  induction ds using List.reverseRecOn with
  | nil => rfl
  | append_singleton ds d ih =>
    have hkeys : ((indices ds).map fun i => (i, gathered ds i)).map Prod.fst = indices ds := by
      rw [List.map_map]
      exact List.map_id _
    have hentry :
        ((Dict.get? ((indices ds).map fun i => (i, gathered ds i)) d.index).getD {}).add d =
          gathered (ds ++ [d]) d.index := by
      rw [get?_graph, gathered_concat_self]
      split_ifs with hd
      · rfl
      · rw [gathered_of_notMem hd]
        rfl
    rw [List.foldl_append, ih, List.foldl_cons, List.foldl_nil, accumulate, hentry, indices_concat,
      Dict.set, hkeys]
    split_ifs with hd
    · rw [List.map_map]
      refine List.map_congr_left fun i hi => ?_
      rw [Function.comp_apply]
      split_ifs with heq
      · rw [← heq]
      · rw [gathered_concat_of_ne ds (Ne.symm heq)]
    · rw [List.map_append, List.map_singleton]
      congr 1
      refine List.map_congr_left fun i hi => ?_
      rw [gathered_concat_of_ne ds (fun heq => hd (heq ▸ hi))]

/-! ### What is released -/

theorem filter_token (c : Chunk) (evs : List TurnEvent) :
    ((if c.content ≠ "" then [TurnEvent.token c.content] else []) ++ evs).filter
      TurnEvent.isToolCall = evs.filter TurnEvent.isToolCall := by
  split_ifs <;> rfl

theorem filter_toolCallEvent (accumulating : Dict ℤ Entry) :
    (accumulating.map fun e => toolCallEvent loads e.1 e.2).filter TurnEvent.isToolCall =
      accumulating.map fun e => toolCallEvent loads e.1 e.2 := by
  rw [List.filter_eq_self]
  intro ev hev
  obtain ⟨e, -, rfl⟩ := List.mem_map.1 hev
  rfl

/-- Everything that was accumulated is released where it is reported, as nothing follows. -/
theorem toolCalls_events {lines : List Line} (hends : EndsNormally lines)
    (hreports : ReportsToolCalls lines) (accumulating : Dict ℤ Entry) :
    (events loads accumulating lines).filter TurnEvent.isToolCall =
      ((fragments lines).foldl accumulate accumulating).map fun e =>
        toolCallEvent loads e.1 e.2 := by
  induction lines generalizing accumulating with
  | nil => exact absurd hreports id
  | cons line lines ih =>
    rcases line with _ | c | _
    · exact ih hends hreports accumulating
    · rw [events, fragments, filter_token, List.foldl_append]
      split_ifs with hreason
      · have hover : fragments lines = [] := hends.1 (hreason ▸ Option.some_ne_none _)
        rw [filter_toolCallEvent, hover, List.foldl_nil]
      · exact ih hends.2 (hreports.resolve_left hreason) _
    · exact absurd hreports id

/-- And nothing is where it is not. -/
theorem toolCalls_events_eq_nil {lines : List Line} (hreports : ¬ ReportsToolCalls lines)
    (accumulating : Dict ℤ Entry) :
    (events loads accumulating lines).filter TurnEvent.isToolCall = [] := by
  induction lines generalizing accumulating with
  | nil => rfl
  | cons line lines ih =>
    rcases line with _ | c | _
    · exact ih hreports accumulating
    · obtain ⟨hreason, hreports⟩ := not_or.1 hreports
      rw [events, filter_token, if_neg hreason]
      exact ih hreports _
    · rfl

theorem calls_eq_nil_iff : calls loads ds = [] ↔ ds = [] := by
  rw [calls, List.map_eq_nil_iff]
  refine ⟨fun hnil => List.eq_nil_iff_forall_not_mem.2 fun d hd => ?_, fun hnil => hnil ▸ rfl⟩
  have hmem : d.index ∈ indices ds := mem_indices_iff.2 ⟨d, hd, rfl⟩
  rw [hnil] at hmem
  cases hmem

/-- Each call of a stream that ends normally is emitted, once and with the arguments of all
    its fragments, if and only if there is none or the stream reports that it has ended with
    tool calls. -/
theorem toolCalls_eq_iff (loads : String → Option Json) (lines : List Line)
    (hends : EndsNormally lines) :
    (generateWithTools loads lines).filter TurnEvent.isToolCall = calls loads (fragments lines) ↔
      fragments lines = [] ∨ ReportsToolCalls lines := by
  rw [generateWithTools]
  by_cases hreports : ReportsToolCalls lines
  · refine iff_of_true ?_ (.inr hreports)
    rw [toolCalls_events hends hreports, foldl_accumulate, List.map_map]
    rfl
  · rw [toolCalls_events_eq_nil hreports, or_iff_left hreports, eq_comm, calls_eq_nil_iff]

/-- A call in two fragments, and the end of a response that was not forced to it. -/
def bookingLines (reason : String) : List Line :=
  [.chunk { toolCalls := [{
      id := "call_abc", name := "book_appointment", arguments := "\x7b\"day\":" }] },
    .chunk { toolCalls := [{ arguments := "1\x7d" }] },
    .chunk { finishReason := some reason }, .done]

theorem toolCalls_eq_booking :
    EndsNormally (bookingLines "tool_calls") ∧
    ((generateWithTools (fun _ => some (.obj [("day", .int 1)]))
        (bookingLines "tool_calls")).filter TurnEvent.isToolCall =
        calls (fun _ => some (.obj [("day", .int 1)])) (fragments (bookingLines "tool_calls")) ↔
      fragments (bookingLines "tool_calls") = [] ∨
        ReportsToolCalls (bookingLines "tool_calls")) := by
  have hends : EndsNormally (bookingLines "tool_calls") := by
    simp [bookingLines, EndsNormally, fragments]
  exact ⟨hends, toolCalls_eq_iff _ _ hends⟩

/-- A call that was forced ends with `stop`. -/
theorem not_toolCalls_eq : ¬ ∀ (loads : String → Option Json) (lines : List Line),
    EndsNormally lines →
      (generateWithTools loads lines).filter TurnEvent.isToolCall =
        calls loads (fragments lines) := by
  intro h
  have hends : EndsNormally (bookingLines "stop") := by
    simp [bookingLines, EndsNormally, fragments]
  have hlength := congrArg List.length (h (fun _ => none) _ hends)
  exact absurd hlength (by decide)

end Yuviz.Conversation.OpenAILLM
