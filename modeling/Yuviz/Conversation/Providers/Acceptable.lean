import Mathlib
import Yuviz.Conversation.Providers.Instructions

/-!
# What Anthropic accepts

A request is rejected for an empty text, for a result that is not in the message
after the one with its call, and for a first message that is not the user's
(`AnthropicLLM.Acceptable`). Each is acceptable as long as no reply is recorded
that is empty, what is said first is said by the caller, and the history is not
trimmed before anything else but a message of the caller
(`reachable_acceptable`). A reply that is only a directive is empty, and all
requests after it are rejected (`not_reachable_acceptable`).
-/

namespace Yuviz.Conversation

open Python Messages Providers

namespace AnthropicLLM

/-- The block is no empty text. -/
def Block.IsWorded : Block → Prop
  | .text t => t ≠ ""
  | .toolUse .. | .toolResult .. => True

/-- Neither the content nor a block of it is empty. -/
def Content.IsWorded : Content → Prop
  | .text t => t ≠ ""
  | .blocks bs => bs ≠ [] ∧ ∀ b ∈ bs, b.IsWorded

/-- The ids of the calls in a message. -/
def WireMessage.uses (w : WireMessage) : List String :=
  match w.content with
  | .text _ => []
  | .blocks blocks => blocks.filterMap fun
    | .toolUse id .. => some id
    | _ => none

/-- The ids of the results in a message. -/
def WireMessage.results (w : WireMessage) : List String :=
  match w.content with
  | .text _ => []
  | .blocks blocks => blocks.filterMap fun
    | .toolResult id _ => some id
    | _ => none

/-- Each result is in the message directly after that of the assistant with its call. -/
def ResultsFollow (ws : List WireMessage) : Prop :=
  ∀ before w after, ws = before ++ w :: after → ∀ id ∈ w.results,
    ∃ before' call, before = before' ++ [call] ∧ call.role = .assistant ∧ id ∈ call.uses

/-- What Anthropic accepts. -/
structure Acceptable (ws : List WireMessage) : Prop where
  worded : ∀ w ∈ ws, w.content.IsWorded
  follow : ResultsFollow ws
  user : ∃ w ∈ ws.head?, w.role = .user

variable {ws : List WireMessage} {w r : WireMessage}

/-- A message without results may come before. -/
theorem ResultsFollow.cons (h : ResultsFollow ws) (hw : w.results = []) :
    ResultsFollow (w :: ws) := by
  intro before x after heq id hid
  obtain ⟨rfl, heq⟩ | ⟨before, rfl, rfl⟩ := List.cons_eq_append_iff.1 heq
  · obtain ⟨rfl, -⟩ := List.cons.inj heq
    rw [hw] at hid
    cases hid
  · obtain ⟨before', call, rfl, hcall⟩ := h before x after rfl id hid
    exact ⟨w :: before', call, rfl, hcall⟩

theorem ResultsFollow.cons_cons (h : ResultsFollow ws) (hw : w.results = [])
    (hrole : w.role = .assistant) (hr : ∀ id ∈ r.results, id ∈ w.uses) :
    ResultsFollow (w :: r :: ws) := by
  intro before x after heq id hid
  obtain ⟨rfl, hx⟩ | ⟨before, rfl, hrest⟩ := List.cons_eq_append_iff.1 heq
  · obtain ⟨rfl, -⟩ := List.cons.inj hx
    rw [hw] at hid
    cases hid
  · obtain ⟨rfl, hx⟩ | ⟨before, rfl, rfl⟩ := List.cons_eq_append_iff.1 hrest
    · obtain ⟨rfl, -⟩ := List.cons.inj hx
      exact ⟨[], w, rfl, hrole, hr id hid⟩
    · obtain ⟨before', call, rfl, hcall⟩ := h before x after rfl id hid
      exact ⟨w :: r :: before', call, rfl, hcall⟩

end AnthropicLLM

namespace Messages

open AnthropicLLM

variable {l l' : List Message} {m prompt : Message} {dropIds : List ℕ} {maxHistory : ℕ}

/-! ### Shaping -/

/-- No message in words is empty. (A prompt may be; it is a field of the request.) -/
def Worded (l : List Message) : Prop :=
  ∀ m ∈ l, m.IsPlain → m.role ≠ .system → m.content ≠ ""

/-- The first message but for instructions. -/
def first (l : List Message) : Option Message := l.find? (·.role ≠ .system)

/-- Nothing is said before the caller says something. -/
def Opens (l : List Message) : Prop := ∀ m ∈ first l, m.role = .user

/-- The caller speaks first. -/
def Begins (l : List Message) : Prop := ∃ m ∈ first l, m.role = .user

instance (l : List Message) : Decidable (Begins l) :=
  inferInstanceAs (Decidable (∃ m ∈ first l, _))

/-- The messages of a request, but for the instructions. -/
def wire (l : List Message) : List WireMessage :=
  ((texts l).filter (·.role ≠ .system)).map shapeMessage

/-- The system messages are not sent as messages. -/
theorem messages_payload (hl : startsWithSystem l) (anthropic : AnthropicLLM) :
    (anthropic.payload (texts l)).messages = wire l := by
  simp only [payload, shapeMessages, buildChatMessages_texts hl, wire]

theorem Paired.role_of_toolCalls (h : Paired l) (hm : m ∈ l) (hcalls : m.toolCalls ≠ []) :
    m.role = .assistant := by
  induction h with
  | nil => cases hm
  | plain hx _ ih =>
    obtain rfl | hm := List.mem_cons.1 hm
    · exact absurd hx.2 hcalls
    · exact ih hm
  | call hx _ _ hr _ _ ih =>
    obtain rfl | hm := List.mem_cons.1 hm
    · exact hx
    · obtain rfl | hm := List.mem_cons.1 hm
      · exact absurd hr hcalls
      · exact ih hm

theorem isWorded_shapeMessage {m : ChatMessage}
    (hm : m.IsPlain → m.role ≠ .system → m.content ≠ "") (hrole : m.role ≠ .system) :
    (shapeMessage m).content.IsWorded := by
  rw [shapeMessage]
  split_ifs with hcalls htext htool
  · refine ⟨List.cons_ne_nil _ _, fun b hb => ?_⟩
    obtain rfl | hb := List.mem_cons.1 hb
    · exact htext
    · obtain ⟨c, -, rfl⟩ := List.mem_map.1 hb
      trivial
  · refine ⟨by simpa using hcalls, fun b hb => ?_⟩
    obtain ⟨c, -, rfl⟩ := List.mem_map.1 hb
    trivial
  · exact ⟨List.cons_ne_nil _ _, fun b hb => List.mem_singleton.1 hb ▸ trivial⟩
  · exact hm ⟨htool, not_not.1 hcalls⟩ hrole

/-- A message with calls holds these, and no results. -/
theorem uses_shapeMessage {m : ChatMessage} (h : m.toolCalls ≠ []) :
    (shapeMessage m).role = .assistant ∧
      (shapeMessage m).uses = m.toolCalls.map ToolCall.id ∧ (shapeMessage m).results = [] := by
  have huses (calls : List ToolCall) : (calls.map toolUse).filterMap (fun
      | .toolUse id .. => some id
      | _ => none) = calls.map ToolCall.id := by
    rw [List.filterMap_map, ← List.filterMap_eq_map]
    rfl
  have hresults (calls : List ToolCall) : (calls.map toolUse).filterMap (fun
      | .toolResult id _ => some id
      | _ => none) = [] := by
    rw [List.filterMap_map]
    exact List.filterMap_eq_nil_iff.2 fun _ _ => rfl
  rw [shapeMessage, if_pos h]
  refine ⟨rfl, ?_, ?_⟩
  · split_ifs
    · exact huses _
    · exact huses _
  · split_ifs
    · exact hresults _
    · exact hresults _

theorem worded_wire (h : Worded l) : ∀ w ∈ wire l, w.content.IsWorded := by
  intro w hw
  obtain ⟨m', hm', rfl⟩ := List.mem_map.1 hw
  obtain ⟨hmem, hrole⟩ := List.mem_filter.1 hm'
  obtain ⟨m, hm, rfl⟩ := List.mem_map.1 hmem
  exact isWorded_shapeMessage (h m hm) (of_decide_eq_true hrole)

theorem wire_cons_of_ne (h : m.role ≠ .system) :
    wire (m :: l) = shapeMessage m.toChatMessage :: wire l := by
  rw [wire, texts, List.map_cons, List.filter_cons_of_pos (by simpa using h), List.map_cons]
  rfl

theorem wire_cons_of_system (h : m.role = .system) : wire (m :: l) = wire l := by
  rw [wire, texts, List.map_cons, List.filter_cons_of_neg (by simpa using h)]
  rfl

/-- Calls are shaped with their results right after them. -/
theorem Paired.resultsFollow (h : Paired l) : ResultsFollow (wire l) := by
  induction h with
  | nil => exact fun before w after heq => by simp [wire, texts] at heq
  | @plain m l hm _ ih =>
    by_cases hrole : m.role = .system
    · rw [wire_cons_of_system hrole]
      exact ih
    · rw [wire_cons_of_ne hrole]
      refine ih.cons ?_
      simp [shapeMessage, hm.1, hm.2, WireMessage.results]
  | @call m r c l hm hc hr hcalls hid _ ih =>
    rw [wire_cons_of_ne (by simp [hm]), wire_cons_of_ne (by simp [hr])]
    obtain ⟨hrole, huses, hresults⟩ :=
      uses_shapeMessage (m := m.toChatMessage) (hc ▸ List.cons_ne_nil c [])
    refine ih.cons_cons hresults hrole fun id hmem => ?_
    have hresult : (shapeMessage r.toChatMessage).results = [c.id] := by
      rw [shapeMessage, if_neg (not_not.2 hcalls), if_pos hr, hid, orElse]
      split_ifs with hempty
      · exact congrArg (fun id => [id]) hempty.symm
      · rfl
    rw [hresult] at hmem
    rw [huses, hc]
    exact hmem

/-- The first message sent is the first that is not a system message. -/
theorem head?_wire : (wire l).head? = (first l).map (shapeMessage ·.toChatMessage) := by
  rw [wire, texts, List.filter_map, List.map_map, List.head?_map, List.head?_filter, first]
  rfl

/-- What the model may be given. -/
structure Usable (l : List Message) : Prop where
  paired : Paired l
  starts : startsWithSystem l
  worded : Worded l
  begins : Begins l

/-- So what is usable is sent as it is accepted. -/
theorem Usable.acceptable (h : Usable l) : Acceptable (wire l) := by
  refine ⟨worded_wire h.worded, h.paired.resultsFollow, ?_⟩
  obtain ⟨m, hm, hrole⟩ := h.begins
  refine ⟨shapeMessage m.toChatMessage, ?_, ?_⟩
  · rw [head?_wire, Option.mem_def.1 hm]
    rfl
  · have hcalls : m.toolCalls = [] := by
      by_contra hne
      have hassistant := h.paired.role_of_toolCalls (List.mem_of_find?_eq_some hm) hne
      simp [hassistant] at hrole
    simp [shapeMessage, hcalls, hrole]

/-! ### The first message -/

theorem first_append : first (l ++ l') = (first l).or (first l') := List.find?_append

/-- If the caller speaks first, nothing is said before. -/
theorem Begins.opens (h : Begins l) : Opens l := by
  obtain ⟨m, hm, hrole⟩ := h
  exact fun m' hm' => Option.mem_unique hm hm' ▸ hrole

theorem Begins.append (h : Begins l) (l' : List Message) : Begins (l ++ l') := by
  obtain ⟨m, hm, hrole⟩ := h
  exact ⟨m, by rw [first_append, Option.mem_def.1 hm]; rfl, hrole⟩

/-- The caller says something. -/
theorem Opens.begins (h : Opens l) (h' : Begins l') : Begins (l ++ l') := by
  rcases hl : first l with _ | m
  · obtain ⟨m, hm, hrole⟩ := h'
    exact ⟨m, by rw [first_append, hl, Option.mem_def.1 hm]; rfl, hrole⟩
  · exact Begins.append ⟨m, hl, h m hl⟩ l'

theorem begins_user (next : ℕ) (text : String) : Begins (allocate next [userMessage text]) :=
  ⟨_, rfl, rfl⟩

theorem Opens.of_append (h : Opens (l ++ l')) : Opens l := by
  intro m hm
  refine h m ?_
  rw [first_append, Option.mem_def.1 hm]
  rfl

/-- A question that is taken back may have been the first. -/
theorem Opens.popUser (h : Opens l) : Opens (popUser l) := by
  rw [Messages.popUser]
  split_ifs
  · obtain rfl | ⟨l, m, rfl⟩ := List.eq_nil_or_concat l
    · exact h
    · rw [List.concat_eq_append] at h ⊢
      rw [List.dropLast_concat]
      exact h.of_append
  · exact h

theorem first_replacePrompt (hp : prompt.role = .system) :
    first (replacePrompt prompt l) = first l := by
  have hcons (l : List Message) {m : Message} (hm : m.role = .system) :
      first (m :: l) = first l := List.find?_cons_of_neg (by simpa using hm)
  rw [replacePrompt]
  split_ifs with hs
  · rcases l with _ | ⟨head, rest⟩
    · exact hcons _ hp
    · rw [hcons _ hp, List.tail_cons, hcons _ (by simpa [startsWithSystem] using hs)]
  · exact hcons _ hp

theorem first_swapPrompt (hp : prompt.role = .system) :
    first (swapPrompt prompt l) = first l := by
  rw [swapPrompt]
  split_ifs
  · rfl
  · exact first_replacePrompt hp

/-- The first message may be replaced by a summary. -/
theorem first_splice (dropIds : List ℕ) {summary : Message} (l : List Message)
    (h : summary.role = .user) :
    first (splice dropIds summary l) = first l ∨
      first (splice dropIds summary l) = some summary := by
  rcases l with _ | ⟨head, rest⟩
  · exact .inl rfl
  · rw [splice]
    split_ifs with hcond
    · refine .inr ?_
      rw [first, List.find?_cons_of_neg (by simpa using hcond.1),
        List.find?_cons_of_pos (by simp [h])]
    · exact .inl rfl

/-- When `n` messages are appended, the history is not trimmed before anything else but a
    message of the caller. -/
def CutsAtCaller (maxHistory : ℕ) (l : List Message) (n : ℕ) : Prop :=
  2 * maxHistory + 1 < l.length + n → Begins (l.drop (l.length + n - 2 * maxHistory))

instance (maxHistory : ℕ) (l : List Message) (n : ℕ) : Decidable (CutsAtCaller maxHistory l n) :=
  inferInstanceAs (Decidable (_ → _))

theorem CutsAtCaller.cutsClean {n : ℕ} (h : CutsAtCaller maxHistory l n) :
    CutsClean maxHistory l n := by
  intro hlong hresult
  obtain ⟨m, hm, hrole⟩ := h hlong
  rcases hdrop : l.drop (l.length + n - 2 * maxHistory) with _ | ⟨head, rest⟩
  · simp [startsWithResult, hdrop] at hresult
  · have htool : head.role = .tool := by simpa [startsWithResult, hdrop] using hresult
    rw [hdrop, first, List.find?_cons_of_pos (by simp [htool])] at hm
    obtain rfl := Option.some.inj hm
    simp [htool] at hrole

theorem Begins.trim (h : Begins l) (hstarts : startsWithSystem l)
    (hcut : CutsAtCaller maxHistory l l'.length) : Begins (trim maxHistory (l ++ l')) := by
  rw [Messages.trim, if_pos (startsWithSystem_append hstarts), List.length_append]
  split_ifs with hlong
  · have hbegins := (hcut hlong).append (l'.drop (l.length + l'.length - 2 * maxHistory - l.length))
    rw [← List.drop_append] at hbegins
    rcases l with _ | ⟨head, rest⟩
    · simp [startsWithSystem] at hstarts
    · obtain ⟨m, hm, hrole⟩ := hbegins
      have hhead : head.role = .system := by simpa [startsWithSystem] using hstarts
      exact ⟨m, (List.find?_cons_of_neg (by simpa using hhead)).trans hm, hrole⟩
  · exact h.append l'

/-! ### Words -/

theorem Worded.subset (h : Worded l) (hsub : l' ⊆ l) : Worded l' :=
  fun m hm => h m (hsub hm)

theorem Worded.append (h : Worded l) (h' : Worded l') : Worded (l ++ l') :=
  fun m hm => (List.mem_append.1 hm).elim (h m) (h' m)

/-- A message that is inserted has a text. -/
theorem Worded.inserts (h : Worded l) (hnew : m.role ≠ .system → m.content ≠ "")
    (hl' : Inserts m l l') : Worded l' := by
  obtain rfl | ⟨before, after, rfl, hsub⟩ := hl'
  · exact h
  · intro x hx
    rw [List.mem_append, List.mem_cons, or_left_comm, ← List.mem_append] at hx
    obtain rfl | hx := hx
    · exact fun _ hrole => hnew hrole
    · exact h x (hsub.subset hx)

theorem worded_allocate {next : ℕ} {ms : List ChatMessage}
    (h : ∀ m ∈ ms, m.IsPlain → m.role ≠ .system → m.content ≠ "") : Worded (allocate next ms) :=
  fun m hm => h m.toChatMessage (mem_of_mem_allocate hm)

/-- Calls and results are not in words. -/
theorem worded_foldToolResult {next : ℕ} (dumps : Json → String) (call : ToolCall)
    (result : ToolResult) : Worded (allocate next (foldToolResult dumps call result)) := by
  refine worded_allocate fun m hm hplain => ?_
  obtain rfl | hm := List.mem_cons.1 hm
  · exact absurd hplain.2 (List.cons_ne_nil _ _)
  · obtain rfl := List.mem_singleton.1 hm
    exact absurd rfl hplain.1

theorem worded_user {next : ℕ} {text : String} (h : text ≠ "") :
    Worded (allocate next [userMessage text]) :=
  worded_allocate fun _ hm _ _ => List.mem_singleton.1 hm ▸ h

/-! ### Runs -/

section

variable {cfg : Settings} {t : Turn}

/-- A reply that is kept is not empty, -/
theorem worded_reply {next : ℕ} {fabricated : Bool} (h : assistantText cfg t.collected ≠ "") :
    Worded (allocate next (State.reply cfg t fabricated)) := by
  refine worded_allocate fun m hm _ hrole => ?_
  obtain rfl | hm := List.mem_cons.1 hm
  · exact h
  · rcases fabricated
    · cases hm
    · exact absurd (List.mem_singleton.1 hm ▸ rfl) hrole

/-- and an apology is not. -/
theorem worded_apology {next : ℕ} : Worded (allocate next (State.apology cfg t)) := by
  refine worded_allocate fun m hm _ _ => ?_
  rw [State.apology] at hm
  split_ifs at hm with _ htext
  · cases hm
  · exact List.mem_singleton.1 hm ▸ htext
  · cases hm
  · rw [List.mem_singleton.1 hm]
    decide

end

variable [Runtime] {cfg : Settings} {s s' : State} {t : Turn} {e : Event}

/-- The caller speaks first and in words, as do the notices; each reply that is recorded has
    words; and what is trimmed off is followed by a message of the caller. -/
def Orderly (cfg : Settings) (s : State) : Event → Prop
  | .greeting => Begins s.history.messages
  | .question text augmented => text ≠ "" ∧ augmented ≠ some ""
  | .transferFailed notice => notice ≠ ""
  | .finish fabricated => ∀ t ∈ s.turn, t.collected ≠ [] → t.cancelled = false →
      assistantText cfg t.collected ≠ "" ∧
      CutsAtCaller cfg.maxHistory s.history.messages (State.reply cfg t fabricated).length
  | .recovered => ∀ t ∈ s.turn, State.apology cfg t ≠ [] → Begins s.history.messages ∧
      CutsAtCaller cfg.maxHistory s.history.messages (State.apology cfg t).length
  | _ => True

/-- What holds in every state of the runs that are orderly. -/
structure Sound (s : State) : Prop where
  tidy : Tidy s.history s.summarizer.task
  worded : Worded s.history.messages
  opens : Opens s.history.messages
  started : ∀ t ∈ s.turn, startsWithSystem s.history.messages
  begins : ∀ t ∈ s.turn, t.isRecovery = false → Begins s.history.messages
  copy : ∀ t ∈ s.turn, ∀ l ∈ t.copy, Usable l
  /-- A turn after a failed transfer has messages of its own. -/
  recovery : ∀ t ∈ s.turn, t.isRecovery = true → t.copy.isSome
  /-- No summary is made in a turn of the caller. -/
  quiet : ∀ t ∈ s.turn, t.isRecovery = false → s.summarizer.task = none
  generations : ∀ g ∈ s.generations, Usable g.messages

namespace Sound

section

omit [Runtime]

theorem usable (hi : Sound s) (ht : s.turn = some t) : Usable (s.messages t) := by
  rcases hcopy : t.copy with _ | l
  · have hrecovery : t.isRecovery = false := by
      by_contra htrue
      simpa [hcopy] using hi.recovery t ht (by simpa using htrue)
    rw [State.messages, hcopy]
    exact ⟨hi.tidy.paired, hi.started t ht, hi.worded, hi.begins t ht hrecovery⟩
  · rw [State.messages, hcopy]
    exact hi.copy t ht l hcopy

/-- A step that leaves the messages alone. -/
theorem frame (hi : Sound s) (hhistory : s'.history = s.history)
    (hturn : ∀ t' ∈ s'.turn, ∃ t ∈ s.turn, t'.copy = t.copy ∧ t'.isRecovery = t.isRecovery)
    (htask : s'.summarizer.task = s.summarizer.task ∨ s'.summarizer.task = none)
    (hgenerations : ∀ g ∈ s'.generations, Usable g.messages) : Sound s' := by
  refine ⟨?_, hhistory ▸ hi.worded, hhistory ▸ hi.opens, fun t' ht' => ?_,
    fun t' ht' hrecovery => ?_, fun t' ht' l hl => ?_, fun t' ht' hrecovery => ?_,
    fun t' ht' hrecovery => ?_, hgenerations⟩
  · rw [hhistory]
    obtain htask | htask := htask
    · exact htask ▸ hi.tidy
    · exact htask ▸ .of_none hi.tidy.paired
  all_goals obtain ⟨t, ht, hcopy, hsame⟩ := hturn t' ht'
  · exact hhistory ▸ hi.started t ht
  · exact hhistory ▸ hi.begins t ht (hsame ▸ hrecovery)
  · exact hi.copy t ht l (hcopy ▸ hl)
  · exact hcopy ▸ hi.recovery t ht (hsame ▸ hrecovery)
  · obtain htask | htask := htask
    · exact htask.trans (hi.quiet t ht (hsame ▸ hrecovery))
    · exact htask

/-- A call and its result are appended. -/
theorem fold (hi : Sound s) (ht : s.turn = some t) (stage : Stage)
    (collected : List (String × Bool)) (call : ToolCall) (result : ToolResult) :
    Sound (s.fold cfg { t with stage := stage, collected := collected } call result) := by
  have hpair : Paired (allocate s.history.next (foldToolResult cfg.dumps call result)) :=
    paired_foldToolResult cfg.dumps call result
  have hworded : Worded (allocate s.history.next (foldToolResult cfg.dumps call result)) :=
    worded_foldToolResult cfg.dumps call result
  rcases hcopy : t.copy with _ | l
  · have hrecovery : t.isRecovery = false := by
      by_contra htrue
      simpa [hcopy] using hi.recovery t ht (by simpa using htrue)
    have hbegins := (hi.begins t ht hrecovery).append
      (allocate s.history.next (foldToolResult cfg.dumps call result))
    simp only [State.fold, Option.isSome_none, Bool.false_eq_true, if_false, Option.map_none]
    refine ⟨hi.tidy.extend hpair, hi.worded.append hworded, hbegins.opens, ?_, ?_, ?_, ?_, ?_,
      hi.generations⟩
    · exact fun _ _ => startsWithSystem_append (hi.started t ht)
    · exact fun _ _ _ => hbegins
    all_goals intro t' ht'; obtain rfl := Option.some.inj ht'
    · simp
    · exact fun htrue => by simp [hrecovery] at htrue
    · exact hi.quiet t ht
  · simp only [State.fold, Option.isSome_some, if_true, Option.map_some]
    refine ⟨hi.tidy.skip _, hi.worded, hi.opens, ?_, ?_, ?_, ?_, ?_, hi.generations⟩
    · exact fun _ _ => hi.started t ht
    all_goals intro t' ht'; obtain rfl := Option.some.inj ht'
    · exact hi.begins t ht
    · intro l' hl'
      obtain rfl := Option.some.inj hl'
      have hl := hi.copy t ht l hcopy
      exact ⟨hl.paired.append hpair, startsWithSystem_append hl.starts, hl.worded.append hworded,
        hl.begins.append _⟩
    · exact fun _ => rfl
    · exact hi.quiet t ht

/-- A turn ends with a reply, or without its question. -/
theorem finish (hi : Sound s) (ht : s.turn = some t) {fabricated : Bool}
    (hrecovery : t.isRecovery = false)
    (hreply : t.collected ≠ [] → t.cancelled = false → assistantText cfg t.collected ≠ "" ∧
      CutsAtCaller cfg.maxHistory s.history.messages (State.reply cfg t fabricated).length) :
    Sound (s.finish cfg t fabricated) := by
  have htask := hi.quiet t ht hrecovery
  have hstarted := hi.started t ht
  have hhistory : Paired (s.finish cfg t fabricated).history.messages ∧
      startsWithSystem (s.finish cfg t fabricated).history.messages ∧
      Worded (s.finish cfg t fabricated).history.messages ∧
      Opens (s.finish cfg t fabricated).history.messages := by
    simp only [State.finish]
    split_ifs with hcommit
    · obtain ⟨htext, hcut⟩ := hreply hcommit.1 (by simpa using hcommit.2)
      have htidy := hi.tidy.commit hstarted (isPlain_reply fabricated) hcut.cutsClean
      refine ⟨htidy.paired, startsWithSystem_trim (startsWithSystem_append hstarted),
        (hi.worded.append (worded_reply htext)).subset trim_sublist.subset, Begins.opens ?_⟩
      exact (hi.begins t ht hrecovery).trim hstarted (length_allocate.symm ▸ hcut)
    · exact ⟨hi.tidy.paired.popUser, startsWithSystem_popUser hstarted,
        hi.worded.subset popUser_sublist.subset, hi.opens.popUser⟩
  obtain ⟨hpaired, hstarts, hworded, hopens⟩ := hhistory
  refine ⟨?_, hworded, hopens, (by rintro _ ⟨⟩), (by rintro _ ⟨⟩), (by rintro _ ⟨⟩),
    (by rintro _ ⟨⟩), (by rintro _ ⟨⟩), hi.generations⟩
  rw [show (s.finish cfg t fabricated).summarizer = s.summarizer.startDeferred from rfl,
    ContextSummarizer.startDeferred]
  split_ifs
  · exact .of_scheduled hpaired hstarts
  · exact htask ▸ .of_none hpaired

theorem recovered (hi : Sound s) (ht : s.turn = some t)
    (hapology : State.apology cfg t ≠ [] → Begins s.history.messages ∧
      CutsAtCaller cfg.maxHistory s.history.messages (State.apology cfg t).length) :
    Sound (s.recovered cfg t) := by
  have hstarted := hi.started t ht
  rw [State.recovered]
  split_ifs with hnone
  · exact ⟨hi.tidy, hi.worded, hi.opens, (by simp), (by simp), (by simp), (by simp), (by simp),
      hi.generations⟩
  · obtain ⟨hbegins, hcut⟩ := hapology hnone
    refine ⟨hi.tidy.commit hstarted isPlain_apology hcut.cutsClean,
      (hi.worded.append worded_apology).subset trim_sublist.subset, Begins.opens ?_, (by simp),
      (by simp), (by simp), (by simp), (by simp), hi.generations⟩
    exact hbegins.trim hstarted (length_allocate.symm ▸ hcut)

theorem summarized (hi : Sound s) {dropIds : List ℕ} {content : String}
    (htask : s.summarizer.task = some (.running dropIds)) (hcontent : content ≠ "") :
    Sound { s with
      summarizer := { s.summarizer with task := none }
      history := s.history.splice dropIds (userMessage content) } := by
  have hfirst := @first_splice dropIds { userMessage content with ref := s.history.next }
    s.history.messages rfl
  have hpaired : Paired (splice dropIds { userMessage content with ref := s.history.next }
      s.history.messages) :=
    (hi.tidy.splits dropIds htask).splice hi.tidy.paired (isPlain_userMessage content)
  refine ⟨.of_none hpaired, hi.worded.inserts (fun _ => hcontent) inserts_splice, ?_, ?_, ?_,
    hi.copy, hi.recovery, fun _ _ _ => rfl, hi.generations⟩
  · intro m hm
    obtain heq | heq := hfirst
    · exact hi.opens m (heq ▸ hm)
    · obtain rfl := Option.some.inj (heq.symm.trans hm)
      rfl
  · exact fun t ht => startsWithSystem_splice (hi.started t ht)
  · intro t ht hrecovery
    obtain heq | heq := hfirst
    · obtain ⟨m, hm, hrole⟩ := hi.begins t ht hrecovery
      exact ⟨m, heq.trans hm, hrole⟩
    · exact ⟨_, heq, rfl⟩

end

/-- The prompt of the active node is put at the head. -/
theorem refreshed (hi : Sound s) (cfg : Settings) :
    Tidy (s.history.refresh (s.prompt cfg)) s.summarizer.task ∧
      startsWithSystem (s.history.refresh (s.prompt cfg)).messages ∧
      Worded (s.history.refresh (s.prompt cfg)).messages ∧
      Opens (s.history.refresh (s.prompt cfg)).messages := by
  refine ⟨hi.tidy.refresh (isPlain_systemMessage _) rfl, startsWithSystem_replacePrompt rfl,
    hi.worded.inserts (fun hrole => absurd rfl hrole) inserts_replacePrompt, fun m hm => ?_⟩
  exact hi.opens m ((first_replacePrompt rfl).symm.trans hm)

omit [Runtime] in
/-- What the caller, or a notice, says is appended. -/
theorem usable_append (hpaired : Paired l) (hstarts : startsWithSystem l) (hworded : Worded l)
    (hopens : Opens l) (next : ℕ) {text : String} (htext : text ≠ "") :
    Usable (l ++ allocate next [userMessage text]) :=
  ⟨hpaired.append (paired_allocate (by simpa using isPlain_userMessage text)),
    startsWithSystem_append hstarts, hworded.append (worded_user htext),
    hopens.begins (begins_user _ _)⟩

/-- A question that is asked has a text. -/
theorem question (hi : Sound s) {text : String} {augmented : Option String} (htext : text ≠ "")
    (haugmented : augmented ≠ some "") : Sound (s.question cfg text augmented) := by
  obtain ⟨htidy, hstarts, hworded, hopens⟩ := hi.refreshed cfg
  have hhistory := usable_append htidy.paired hstarts hworded hopens
    (s.history.refresh (s.prompt cfg)).next htext
  have htask := s.summarizer.interruptForLiveTurn_task
  rcases augmented with _ | content
  · refine ⟨htask ▸ .of_none hhistory.paired, hhistory.worded, hhistory.begins.opens,
      fun _ _ => hhistory.starts, fun _ _ _ => hhistory.begins, ?_, ?_, fun _ _ _ => htask,
      hi.generations⟩
    all_goals intro t' ht'; obtain rfl := Option.some.inj ht'
    · exact nofun
    · exact nofun
  · refine ⟨htask ▸ .of_none hhistory.paired, hhistory.worded, hhistory.begins.opens,
      fun _ _ => hhistory.starts, fun _ _ _ => hhistory.begins, ?_, ?_, fun _ _ _ => htask,
      hi.generations⟩
    all_goals intro t' ht'; obtain rfl := Option.some.inj ht'
    · intro l hl
      obtain rfl := Option.some.inj hl
      rw [show ((s.history.refresh (s.prompt cfg)).extend [userMessage text]).messages.dropLast =
        (s.history.refresh (s.prompt cfg)).messages from List.dropLast_concat]
      have hcontent : content ≠ "" := fun hnil => haugmented (hnil ▸ rfl)
      exact usable_append htidy.paired hstarts hworded hopens _ hcontent
    · exact fun _ => rfl

theorem transferFailed (hi : Sound s) (hturn : s.turn = none) {notice : String}
    (hnotice : notice ≠ "") : Sound (s.transferFailed cfg notice) := by
  have habandon : Sound { s with runner := s.runner.abandonTransfer } :=
    hi.frame rfl (by simp [hturn]) (.inl rfl) hi.generations
  obtain ⟨htidy, hstarts, hworded, hopens⟩ := habandon.refreshed cfg
  refine ⟨htidy.skip 1, hworded, hopens, fun _ _ => hstarts, ?_, ?_, ?_, ?_, hi.generations⟩
  all_goals intro t' ht'; obtain rfl := Option.some.inj ht'
  · exact nofun
  · intro l hl
    obtain rfl := Option.some.inj hl
    exact usable_append htidy.paired hstarts hworded hopens _ hnotice
  · exact fun _ => rfl
  · exact nofun

theorem transition (hi : Sound s) (ht : s.turn = some t) {call : ToolCall} {edge : Config.Edge}
    (hs : s.transition cfg t call edge = some s') : Sound s' := by
  obtain ⟨runner, -, rfl⟩ := Option.map_eq_some_iff.1 hs
  have hstarted := hi.started t ht
  refine ⟨?_, hi.worded.inserts (fun hrole => absurd rfl hrole) inserts_swapPrompt, fun m hm => ?_,
    fun _ _ => startsWithSystem_swapPrompt rfl hstarted, ?_, ?_, ?_, ?_, hi.generations⟩
  · rw [ContextSummarizer.maybeSummarize_task]
    exact (hi.tidy.skip _).swapPrompt (isPlain_systemMessage _) rfl hstarted
  · exact hi.opens m ((first_swapPrompt rfl).symm.trans hm)
  all_goals intro t' ht'; obtain rfl := Option.some.inj ht'
  · intro hrecovery
    obtain ⟨m, hm, hrole⟩ := hi.begins t ht hrecovery
    exact ⟨m, (first_swapPrompt rfl).trans hm, hrole⟩
  · intro l' hl'
    obtain ⟨l, hcopy, rfl⟩ := Option.map_eq_some_iff.1 hl'
    have hl := hi.copy t ht l hcopy
    obtain ⟨m, hm, hrole⟩ := hl.begins
    exact ⟨hl.paired.swapPrompt (isPlain_systemMessage _),
      startsWithSystem_swapPrompt rfl hl.starts,
      hl.worded.inserts (fun hrole => absurd rfl hrole) inserts_swapPrompt,
      ⟨m, (first_swapPrompt rfl).trans hm, hrole⟩⟩
  · exact fun hrecovery => by simpa using hi.recovery t ht hrecovery
  · intro hrecovery
    rw [ContextSummarizer.maybeSummarize_task]
    exact hi.quiet t ht hrecovery

/-- What a turn does leaves the messages usable, -/
theorem turnStep (hi : Sound s) (ht : s.turn = some t) (hgood : Orderly cfg s e)
    (hs : s.turnStep cfg t e = some s') : Sound s' := by
  rcases State.turnStep_cases hs with ⟨-, rfl⟩ | ⟨-, _, _, _, _, _, -, rfl⟩ | ⟨_, _, -, hs⟩ |
    ⟨-, _, _, _, _, _, -, rfl⟩ | ⟨_, rfl, hrecovery, rfl⟩ | ⟨rfl, -, rfl⟩
  · refine hi.frame rfl (fun t' ht' => ?_) (.inl rfl) fun g hg => ?_
    · exact ⟨t, ht, Option.some.inj ht' ▸ ⟨rfl, rfl⟩⟩
    · obtain hg | hg := List.mem_append.1 hg
      · exact hi.generations g hg
      · exact List.mem_singleton.1 hg ▸ hi.usable ht
  · refine hi.frame rfl (fun t' ht' => ?_) (.inl rfl) hi.generations
    exact ⟨t, ht, Option.some.inj ht' ▸ ⟨rfl, rfl⟩⟩
  · exact hi.transition ht hs
  · exact hi.fold ht _ _ _ _
  · exact hi.finish ht hrecovery (hgood t ht)
  · exact hi.recovered ht (hgood t ht)

/-- and so does what is between the turns. -/
theorem idleStep (hi : Sound s) (hturn : s.turn = none) (hgood : Orderly cfg s e)
    (hs : s.idleStep cfg e = some s') : Sound s' := by
  cases e with
  | greeting =>
    obtain ⟨start, -, hs⟩ := Option.bind_eq_some_iff.1 hs
    obtain ⟨htext, hs⟩ := Option.ite_none_left_eq_some.1 hs
    obtain rfl := Option.some.inj hs
    refine ⟨hi.tidy.extend ?_, hi.worded.append ?_, (Begins.append hgood _).opens, ?_, ?_, ?_, ?_,
      ?_, hi.generations⟩
    · exact paired_allocate (by simpa using isPlain_assistantMessage _)
    · exact worded_allocate fun _ hm _ _ => List.mem_singleton.1 hm ▸ htext
    all_goals simp [hturn]
  | question text augmented => exact Option.some.inj hs ▸ hi.question hgood.1 hgood.2
  | transferFailed notice => exact Option.some.inj hs ▸ hi.transferFailed hturn hgood
  | workflowTransfer =>
    obtain ⟨node, -, rfl⟩ := Option.map_eq_some_iff.1 hs
    exact hi.frame rfl (fun t ht => ⟨t, ht, rfl, rfl⟩) (.inr rfl) hi.generations
  | _ => simp [State.idleStep] at hs

omit [Runtime] in
theorem backgroundStep (hi : Sound s) (hs : s.backgroundStep e = some s') : Sound s' := by
  have hsame (t : Turn) (ht : t ∈ s.turn) :
      ∃ t' ∈ s.turn, t.copy = t'.copy ∧ t.isRecovery = t'.isRecovery := ⟨t, ht, rfl, rfl⟩
  rcases State.backgroundStep_cases hs with ⟨-, rfl⟩ | ⟨-, rfl⟩ | ⟨_, -, rfl⟩ | ⟨htask, rfl⟩ |
    ⟨_, _, htask, hcontent, rfl⟩ | ⟨-, rfl⟩
  · refine hi.frame rfl (fun t' ht' => ?_) ?_ hi.generations
    · obtain ⟨t, ht, rfl⟩ := Option.map_eq_some_iff.1 ht'
      exact ⟨t, ht, rfl, rfl⟩
    · exact .inr (ContextSummarizer.interruptForLiveTurn_task _)
  · exact hi.frame rfl hsame (.inl rfl) hi.generations
  · exact hi.frame rfl hsame (.inl rfl) hi.generations
  · have hstarted := hi.tidy.started (by simp [htask])
    refine ⟨?_, hi.worded, hi.opens, hi.started, hi.begins, hi.copy, hi.recovery,
      fun t ht hrecovery => ?_, hi.generations⟩
    · rcases hl : toReplace s.history.messages with _ | l
      · exact .of_none hi.tidy.paired
      · exact hi.tidy.running hstarted hl
    · simp [hi.quiet t ht hrecovery] at htask
  · exact hi.summarized htask hcontent
  · exact hi.frame rfl hsame (.inr rfl) hi.generations

theorem step (hi : Sound s) (hgood : Orderly cfg s e) (hs : s.step cfg e = some s') :
    Sound s' := by
  rcases State.step_cases hs with hs | ⟨t, ht, hs⟩ | ⟨hturn, hs⟩
  · exact hi.backgroundStep hs
  · exact hi.turnStep ht hgood hs
  · exact hi.idleStep hturn hgood hs

end Sound

/-- In every orderly run, whatever the model is given is accepted. -/
theorem reachable_acceptable (cfg : Settings) (start : Config.Node) (vars : Dict String Json)
    (hs : (conversations cfg start vars).ReachableIf (Orderly cfg) s) (anthropic : AnthropicLLM) :
    ∀ g ∈ s.generations, Acceptable (anthropic.payload (texts g.messages)).messages := by
  have hsound : Sound s := by
    refine hs.invariant ?_ fun s e s' hi hgood hst => hi.step hgood hst
    have hnone {p : Turn → Prop} : ∀ t ∈ (conversations cfg start vars).init.turn, p t :=
      fun _ h => absurd h (Option.not_mem_none _)
    exact ⟨.of_none .nil, List.forall_mem_nil _, fun _ h => absurd h (Option.not_mem_none _), hnone,
      hnone, hnone, hnone, hnone, List.forall_mem_nil _⟩
  intro g hg
  have husable := hsound.generations g hg
  rw [messages_payload husable.starts]
  exact husable.acceptable

instance (cfg : Settings) (s : State) (e : Event) : Decidable (Orderly cfg s e) :=
  match e with
  | .greeting => inferInstanceAs (Decidable (Begins _))
  | .question .. => inferInstanceAs (Decidable (_ ∧ _))
  | .transferFailed _ => inferInstanceAs (Decidable (_ ≠ _))
  | .finish _ => inferInstanceAs (Decidable (∀ t ∈ s.turn, _ → _ → _ ∧ _))
  | .recovered =>
    have (t : Turn) : Decidable (State.apology cfg t ≠ []) :=
      decidable_of_iff (¬ (State.apology cfg t).isEmpty) (by simp)
    inferInstanceAs (Decidable (∀ t ∈ s.turn, _ → _ ∧ _))
  | .generate | .token _ | .chunk _ | .transition .. | .resume | .remote _ | .result _ | .refuse ..
  | .endOfStream | .raise | .cancel | .transferCancelled | .workflowTransfer | .extracted _
  | .summarize | .summarized _ | .summaryFailed => inferInstanceAs (Decidable True)

/-- Two turns, of which the first has the given reply. -/
private def replying (text : String) : List Event :=
  [.question "Can I speak to somebody?" none, .generate, .token text, .endOfStream, .finish false,
    .question "Hello?" none, .generate]

private def spoken : Option State :=
  (@conversations .ascii desk deskNode []).execIf (Orderly desk)
    (@conversations .ascii desk deskNode []).init (replying "One moment.")

omit [Runtime] in
private theorem spoken_isSome : spoken.isSome := by decide

omit [Runtime] in
theorem reachable_acceptable_spoken : ∃ s, spoken = some s ∧ s.generations.length = 2 ∧
    ∀ g ∈ s.generations,
      Acceptable (({} : AnthropicLLM).payload (texts g.messages)).messages := by
  have hinit : (@conversations .ascii desk deskNode []).ReachableIf (Orderly desk)
      (@conversations .ascii desk deskNode []).init := .init
  have hs := hinit.execIf (Option.some_get spoken_isSome).symm
  exact ⟨_, (Option.some_get spoken_isSome).symm, by decide,
    @reachable_acceptable .ascii _ desk deskNode [] hs {}⟩

/-- The reply is only a directive. -/
private def directed : Option State :=
  (@conversations .ascii desk deskNode []).exec (@conversations .ascii desk deskNode []).init
    (replying "[[TRANSFER]]")

omit [Runtime] in
private theorem directed_isSome : directed.isSome := by decide

omit [Runtime] in
/-- A reply that is empty is rejected. -/
theorem not_acceptable (hl : startsWithSystem l) (hm : m ∈ l) (hrole : m.role = .assistant)
    (hcalls : m.toolCalls.isEmpty) (hcontent : m.content = "") (anthropic : AnthropicLLM) :
    ¬ Acceptable (anthropic.payload (texts l)).messages := by
  intro h
  have hmem : shapeMessage m.toChatMessage ∈ wire l :=
    List.mem_map_of_mem (List.mem_filter.2 ⟨List.mem_map_of_mem hm, by simp [hrole]⟩)
  have hworded := h.worded _ (messages_payload hl anthropic ▸ hmem)
  have hshape : shapeMessage m.toChatMessage = ⟨.assistant, .text ""⟩ := by
    simp [shapeMessage, List.isEmpty_iff.1 hcalls, hrole, hcontent]
  rw [hshape] at hworded
  exact hworded rfl

omit [Runtime] in
/-- The reply is recorded without a word, and sent again in the next turn. -/
theorem not_reachable_acceptable : ¬ ∀ cfg start vars s,
    (@conversations .ascii cfg start vars).Reachable s → ∀ anthropic : AnthropicLLM,
      ∀ g ∈ s.generations, Acceptable (anthropic.payload (texts g.messages)).messages := by
  intro h
  have hs : (@conversations .ascii desk deskNode []).Reachable (directed.get directed_isSome) :=
    System.Reachable.exec .init (Option.some_get directed_isSome).symm
  obtain ⟨g, hg, hl, m, hm, hrole, hcalls, hcontent⟩ :
      ∃ g ∈ (directed.get directed_isSome).generations, startsWithSystem g.messages ∧
        ∃ m ∈ g.messages, m.role = .assistant ∧ m.toolCalls.isEmpty ∧ m.content = "" := by
    decide
  exact not_acceptable hl hm hrole hcalls hcontent {} (h _ _ _ _ hs {} g hg)

end Messages

end Yuviz.Conversation
