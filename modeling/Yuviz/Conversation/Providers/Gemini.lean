import Yuviz.Conversation.Providers

/-!
# The tool results of a Gemini request

Gemini has neither a tool role nor ids: a result is a `functionResponse` with the
name of its call, which `_tool_name_for_call_id` looks up by id in the whole
history. A message whose calls are not all Gemini's own, with a signature each,
is told as text, and so is the result of each id that such a message held. An id
that comes again, as `call_0` does on every turn, is taken for the first.

So the results name the calls they follow if and only if no call of Gemini's own
that has a result has the id of one that was told as text before it, or of a
first call with another name (`namesItsCall_iff`).
-/

namespace Yuviz.Conversation.GeminiLLM

open Python Messages Providers

inductive Part
  | text (text : String)
  | functionCall (name : String) (args thoughtSignature : Json)
  | functionResponse (name : String) (response : Json)

inductive ContentRole
  | user
  | model

structure Content where
  role : ContentRole
  parts : List Part

def thoughtSignature (c : ToolCall) : Json :=
  match c.providerMetadata with
  | some (.obj fields) => Json.get fields "thought_signature"
  | _ => .null

/-- Each call of the message has a signature. -/
def IsNative (m : ChatMessage) : Prop := ∀ c ∈ m.toolCalls, (thoughtSignature c).truthy

instance (m : ChatMessage) : Decidable (IsNative m) := inferInstanceAs (Decidable (∀ c ∈ _, _))

/-- `_tool_name_for_call_id` -/
def toolNameForCallId (shaped : List ChatMessage) (toolCallId : Option String) : String :=
  match (shaped.flatMap (·.toolCalls)).find? (some ·.id = toolCallId) with
  | some c => c.name
  | none => ""

section

variable (loads : String → Option Json) (dumps : Json → String)

/-- The result as an object; a text that is no JSON is put into one. -/
def responseObj (content : String) : Json :=
  if content ≠ "" then (loads content).getD (.obj [("result", .str content)]) else .obj []

def nativePart (c : ToolCall) : Part := .functionCall c.name c.arguments (thoughtSignature c)

def calledText (calls : List ToolCall) : String :=
  let summary := "; ".intercalate (calls.map fun c => c.name ++ "(" ++ dumps c.arguments ++ ")")
  "[called " ++ summary ++ "]"

/-- The contents of the messages that are left, with the ids that were told as text. -/
def contents (shaped : List ChatMessage) : List String → List ChatMessage → List Content
  | _, [] => []
  | flattened, m :: ms =>
    if m.role = .system then contents shaped flattened ms
    else if m.toolCalls ≠ [] then
      if IsNative m then ⟨.model, m.toolCalls.map nativePart⟩ :: contents shaped flattened ms
      else ⟨.model, [.text (calledText dumps m.toolCalls)]⟩ ::
        contents shaped (flattened ++ m.toolCalls.map ToolCall.id) ms
    else if m.role = .tool then
      (if m.toolCallId.any (· ∈ flattened) then
        ⟨.user, [.text ("[tool result: " ++ m.content ++ "]")]⟩
      else ⟨.user, [.functionResponse (toolNameForCallId shaped m.toolCallId)
        (responseObj loads m.content)]⟩) :: contents shaped flattened ms
    else ⟨if m.role = .assistant then .model else .user, [.text m.content]⟩ ::
      contents shaped flattened ms

/-- The system instruction, and the contents. -/
def shapeContents (system : String) (messages : List ChatMessage) : Option String × List Content :=
  let shaped := buildChatMessages system messages
  (lastSystem none shaped, contents loads dumps shaped [] shaped)

/-- A request without tools. -/
structure Payload where
  contents : List Content
  temperature : ℚ
  systemInstruction : Option String

def payload (system : String) (temperature : ℚ) (messages : List ChatMessage) : Payload :=
  let (systemInstruction, contents) := shapeContents loads dumps system messages
  { contents, temperature, systemInstruction := textField systemInstruction }

/-! ### Calls and their results -/

/-- The message is the last, but for results. -/
def IsLastCall (call : ChatMessage) (before : List ChatMessage) : Prop :=
  ∃ before' results, before = before' ++ call :: results ∧ ∀ r ∈ results, r.role = .tool

/-- The assistant calls, and each result follows the message that holds its call. -/
structure WellFormed (history : List ChatMessage) : Prop where
  assistant : ∀ m ∈ history, m.toolCalls ≠ [] → m.role = .assistant
  follows : ∀ before m after, history = before ++ m :: after → m.role = .tool →
    ∃ call, IsLastCall call before ∧ call.role = .assistant ∧
      ∃ c ∈ call.toolCalls, m.toolCallId = some c.id

/-- The message after `before` is the result of `c`, which `call` holds. -/
structure IsResult (history before : List ChatMessage) (m call : ChatMessage) (c : ToolCall) :
    Prop where
  eq : ∃ after, history = before ++ m :: after
  tool : m.role = .tool
  last : IsLastCall call before
  mem : c ∈ call.toolCalls
  id : m.toolCallId = some c.id

/-- Each result has the name of its call, or is text if and only if its call is. -/
def NamesItsCall (history : List ChatMessage) (contents : List Content) : Prop :=
  ∀ before m call c, IsResult history before m call c →
    ∃ content, contents[(before.filter (·.role ≠ .system)).length]? = some content ∧
      (IsNative call →
        content = ⟨.user, [.functionResponse c.name (responseObj loads m.content)]⟩) ∧
      ((∃ text, content = ⟨.user, [.text text]⟩) ↔ ¬ IsNative call)

/-- The id of a call with a result is not that of one that is told as text before it, and the
    first call that has it has the same name. -/
def Distinguished (history : List ChatMessage) : Prop :=
  ∀ before m call c, IsResult history before m call c → IsNative call →
    (∀ m' ∈ before, ¬ IsNative m' → c.id ∉ m'.toolCalls.map ToolCall.id) ∧
    ((history.flatMap (·.toolCalls)).find? (·.id = c.id)).map ToolCall.name = some c.name

/-! ### Shaping -/

variable {loads dumps} {shaped history before : List ChatMessage} {m call : ChatMessage}
  {c : ToolCall}

/-- The ids that the message adds to those that are told as text. -/
def flattenedBy (m : ChatMessage) : List String :=
  if m.role = .system ∨ IsNative m then [] else m.toolCalls.map ToolCall.id

theorem contents_append (flattened : List String) (l l' : List ChatMessage) :
    contents loads dumps shaped flattened (l ++ l') =
      contents loads dumps shaped flattened l ++
        contents loads dumps shaped (flattened ++ l.flatMap flattenedBy) l' := by
  induction l generalizing flattened with
  | nil => simp [contents]
  | cons m l ih =>
    rw [List.cons_append, List.flatMap_cons, ← List.append_assoc]
    simp only [contents, flattenedBy]
    by_cases hsystem : m.role = .system
    · simp only [hsystem, if_true, true_or, ih, List.append_nil]
    · by_cases hnative : IsNative m
      · simp only [hsystem, hnative, if_false, if_true, or_true, ih, List.append_nil]
        split_ifs <;> rfl
      · have hcalls : m.toolCalls ≠ [] := fun hnil => hnative (by simp [IsNative, hnil])
        simp only [hsystem, hnative, hcalls, if_false, ne_eq, not_false_eq_true, if_true, or_self,
          ih, List.cons_append]

theorem length_contents (flattened : List String) (l : List ChatMessage) :
    (contents loads dumps shaped flattened l).length = (l.filter (·.role ≠ .system)).length := by
  induction l generalizing flattened with
  | nil => rfl
  | cons m l ih =>
    rw [contents]
    split_ifs with hsystem <;> simp [hsystem, ih]

/-- The content that stands for a message. -/
theorem getElem?_contents (flattened : List String) (l l' : List ChatMessage) :
    (contents loads dumps shaped flattened (l ++ l'))[(l.filter (·.role ≠ .system)).length]? =
      (contents loads dumps shaped (flattened ++ l.flatMap flattenedBy) l').head? := by
  rw [contents_append, ← length_contents, List.getElem?_append_right le_rfl, Nat.sub_self,
    List.head?_eq_getElem?]

theorem contents_buildChatMessages (system : String) :
    contents loads dumps shaped [] (buildChatMessages system history) =
      contents loads dumps shaped [] history := by
  obtain heq | heq := buildChatMessages_eq_or system history
  · rw [heq]
  · rw [heq, contents, if_pos rfl]

theorem toolNameForCallId_buildChatMessages (system : String) (id : Option String) :
    toolNameForCallId (buildChatMessages system history) id = toolNameForCallId history id := by
  obtain heq | heq := buildChatMessages_eq_or system history
  · rw [heq]
  · rw [heq, toolNameForCallId, toolNameForCallId, List.flatMap_cons, List.nil_append]

theorem IsLastCall.mem (h : IsLastCall call before) : call ∈ before := by
  obtain ⟨before', results, rfl, -⟩ := h
  simp

/-- What a result is shaped into. -/
theorem getElem?_result (hwf : WellFormed history) (h : IsResult history before m call c)
    (system : String) :
    (shapeContents loads dumps system history).2[(before.filter (·.role ≠ .system)).length]? =
      some (if c.id ∈ before.flatMap flattenedBy then
        ⟨.user, [.text ("[tool result: " ++ m.content ++ "]")]⟩
      else ⟨.user, [.functionResponse (toolNameForCallId history (some c.id))
        (responseObj loads m.content)]⟩) := by
  obtain ⟨after, rfl⟩ := h.eq
  have hcalls : m.toolCalls = [] := by
    by_contra hne
    have hrole := hwf.assistant m (by simp) hne
    rw [h.tool] at hrole
    cases hrole
  rw [shapeContents, contents_buildChatMessages, getElem?_contents, List.nil_append, contents,
    if_neg (h.tool ▸ nofun), if_neg (not_not.2 hcalls), if_pos h.tool, List.head?_cons, h.id,
    toolNameForCallId_buildChatMessages]
  simp only [Option.any_some, decide_eq_true_eq]

theorem mem_flatMap_flattenedBy_iff (hwf : WellFormed history)
    (h : IsResult history before m call c) :
    c.id ∈ before.flatMap flattenedBy ↔
      ∃ m' ∈ before, ¬ IsNative m' ∧ c.id ∈ m'.toolCalls.map ToolCall.id := by
  obtain ⟨after, rfl⟩ := h.eq
  rw [List.mem_flatMap]
  refine exists_congr fun m' => and_congr_right fun hm' => ?_
  rw [flattenedBy]
  split_ifs with htext
  · refine iff_of_false List.not_mem_nil fun ⟨hnative, hmem⟩ => ?_
    have hrole := hwf.assistant m' (by simp [hm']) (fun hnil => by simp [hnil] at hmem)
    rw [htext.resolve_right hnative] at hrole
    cases hrole
  · exact (and_iff_right (not_or.1 htext).2).symm

/-- The result of a call that is told as text is text as well. -/
theorem IsResult.mem_flattened (hwf : WellFormed history) (h : IsResult history before m call c)
    (hnative : ¬ IsNative call) : c.id ∈ before.flatMap flattenedBy :=
  (mem_flatMap_flattenedBy_iff hwf h).2
    ⟨call, h.last.mem, hnative, List.mem_map_of_mem h.mem⟩

/-- The call is one of the history, so that a name is found. -/
theorem toolNameForCallId_eq_iff (h : IsResult history before m call c) :
    toolNameForCallId history (some c.id) = c.name ↔
      ((history.flatMap (·.toolCalls)).find? (·.id = c.id)).map ToolCall.name = some c.name := by
  have hmem : c ∈ history.flatMap (·.toolCalls) := by
    obtain ⟨after, rfl⟩ := h.eq
    exact List.mem_flatMap.2 ⟨call, List.mem_append_left _ h.last.mem, h.mem⟩
  obtain ⟨c', hc'⟩ : ∃ c', (history.flatMap (·.toolCalls)).find? (·.id = c.id) = some c' :=
    Option.isSome_iff_exists.1 (List.find?_isSome.2 ⟨c, hmem, decide_eq_true rfl⟩)
  simp only [toolNameForCallId, Option.some.injEq, hc', Option.map_some]

/-- Each result has the name of the call that it follows, or is text if and only if its call is,
    exactly when the calls of the model's own that have results can be told apart by their
    ids: none has the id of a call that is told as text before its result, and none that of a
    first call with another name. -/
theorem namesItsCall_iff (loads : String → Option Json) (dumps : Json → String) (system : String)
    (history : List ChatMessage) (hwf : WellFormed history) :
    NamesItsCall loads history (shapeContents loads dumps system history).2 ↔
      Distinguished history := by
  constructor
  · intro hnames before m call c h hnative
    obtain ⟨content, hcontent, hname, htext⟩ := hnames before m call c h
    rw [getElem?_result hwf h, hname hnative, Option.some.injEq] at hcontent
    split_ifs at hcontent with hflattened
    · simp at hcontent
    · rw [mem_flatMap_flattenedBy_iff hwf h] at hflattened
      refine ⟨fun m' hm' hnot hmem => hflattened ⟨m', hm', hnot, hmem⟩, ?_⟩
      rw [← toolNameForCallId_eq_iff h]
      simp only [Content.mk.injEq, List.cons.injEq, Part.functionResponse.injEq] at hcontent
      exact hcontent.2.1.1
  · intro hdistinguished before m call c h
    refine ⟨_, getElem?_result hwf h system, ?_⟩
    by_cases hnative : IsNative call
    · obtain ⟨hnone, hfirst⟩ := hdistinguished before m call c h hnative
      have hflattened : c.id ∉ before.flatMap flattenedBy := by
        rw [mem_flatMap_flattenedBy_iff hwf h]
        exact fun ⟨m', hm', hnot, hmem⟩ => hnone m' hm' hnot hmem
      rw [if_neg hflattened, (toolNameForCallId_eq_iff h).2 hfirst]
      exact ⟨fun _ => rfl, iff_of_false (by simp) (not_not.2 hnative)⟩
    · rw [if_pos (h.mem_flattened hwf hnative)]
      exact ⟨fun hnat => absurd hnat hnative, iff_of_true ⟨_, rfl⟩ hnative⟩

/-! ### Two calls -/

theorem WellFormed.concat {l : List ChatMessage} (h : WellFormed l)
    (hcalls : m.toolCalls ≠ [] → m.role = .assistant)
    (hfollows : m.role = .tool → ∃ call, IsLastCall call l ∧ call.role = .assistant ∧
      ∃ c ∈ call.toolCalls, m.toolCallId = some c.id) : WellFormed (l ++ [m]) where
  assistant m' hm' := by
    obtain hm' | hm' := List.mem_append.1 hm'
    · exact h.assistant m' hm'
    · exact List.mem_singleton.1 hm' ▸ hcalls
  follows before m' after heq htool := by
    obtain rfl | ⟨after, last, rfl⟩ := List.eq_nil_or_concat after
    · obtain ⟨rfl, hlast⟩ := List.append_inj' heq rfl
      obtain rfl := List.singleton_inj.1 hlast
      exact hfollows htool
    · rw [List.concat_eq_append, ← List.cons_append, ← List.append_assoc] at heq
      exact h.follows before m' after (List.append_inj' heq rfl).1 htool

/-- A call of the model's own, and its result. -/
def calling (id name : String) : List ChatMessage :=
  [{ role := .assistant, content := "", toolCalls := [⟨id, name, .obj [],
      some (.obj [("thought_signature", .str "sig")])⟩] },
    { role := .tool, content := "", toolCallId := some id }]

theorem WellFormed.append_calling {l : List ChatMessage} (h : WellFormed l) (id name : String) :
    WellFormed (l ++ calling id name) := by
  rw [calling, List.append_cons]
  refine (h.concat (fun _ => rfl) (by simp)).concat (by simp) fun _ => ?_
  exact ⟨_, ⟨l, [], rfl, nofun⟩, rfl, _, List.mem_singleton_self _, rfl⟩

theorem WellFormed.concat_user {l : List ChatMessage} (h : WellFormed l) (text : String) :
    WellFormed (l ++ [{ role := .user, content := text }]) :=
  h.concat (fun hne => absurd rfl hne) (by simp)

/-- Two turns, each with a call. -/
def turns (id id' : String) : List ChatMessage :=
  [{ role := .user, content := "Is Friday free?" }] ++ calling id "check_availability" ++
    [{ role := .user, content := "Book it." }] ++ calling id' "book_appointment"

theorem wellFormed_turns (id id' : String) : WellFormed (turns id id') := by
  have hnil : WellFormed [] := ⟨nofun, by simp⟩
  have hfirst := (hnil.concat_user "Is Friday free?").append_calling id "check_availability"
  exact (hfirst.concat_user "Book it.").append_calling id' "book_appointment"

theorem namesItsCall_turns :
    WellFormed (turns "call_0" "call_1") ∧
    (NamesItsCall (fun _ => none) (turns "call_0" "call_1")
        (shapeContents (fun _ => none) Json.dumps "" (turns "call_0" "call_1")).2 ↔
      Distinguished (turns "call_0" "call_1")) :=
  ⟨wellFormed_turns _ _, namesItsCall_iff _ _ _ _ (wellFormed_turns _ _)⟩

/-- The id comes again, and the second result gets the name of the first call. -/
theorem not_namesItsCall : ¬ ∀ (loads : String → Option Json) (dumps : Json → String)
    (system : String) (history : List ChatMessage), WellFormed history →
      NamesItsCall loads history (shapeContents loads dumps system history).2 := by
  intro h
  have hresult : IsResult (turns "call_0" "call_0") ((turns "call_0" "call_0").take 5)
      { role := .tool, content := "", toolCallId := some "call_0" }
      { role := .assistant, content := "", toolCalls := [⟨"call_0", "book_appointment", .obj [],
        some (.obj [("thought_signature", .str "sig")])⟩] }
      ⟨"call_0", "book_appointment", .obj [],
        some (.obj [("thought_signature", .str "sig")])⟩ :=
    ⟨⟨[], rfl⟩, rfl, ⟨(turns "call_0" "call_0").take 4, [], rfl, nofun⟩,
      List.mem_singleton_self _, rfl⟩
  obtain ⟨content, hcontent, hname, -⟩ :=
    h (fun _ => none) Json.dumps "" _ (wellFormed_turns _ _) _ _ _ _ hresult
  have hnative : content = ⟨.user, [.functionResponse "book_appointment" (.obj [])]⟩ :=
    hname (by simp [IsNative, thoughtSignature, Json.get, Dict.get?, Json.truthy])
  have hshaped : (shapeContents (fun _ => none) Json.dumps "" (turns "call_0" "call_0")).2[5]? =
      some ⟨.user, [.functionResponse "check_availability" (.obj [])]⟩ := rfl
  rw [hnative] at hcontent
  exact absurd (hshaped.symm.trans hcontent) (by simp)

end

end Yuviz.Conversation.GeminiLLM
