import Mathlib
import Yuviz.Conversation.Messages.WellFormed
import Yuviz.Conversation.Providers.Anthropic
import Yuviz.Conversation.Providers.Gemini

/-!
# The instructions that a provider is given

What the model is given begins with the prompt of the active node, and all other
instructions are corrections, with one text (`Led`). Anthropic and Gemini have a
field for the instructions, and put the last ones there. So a correction takes
the place of the prompt for as long as it is in the history, and the instructions
are all there if and only if there is none, or it contains the prompt
(`survives_iff`).
-/

namespace Yuviz.Conversation.Messages

open Python Providers

/-- The text is in a field of the request. -/
def Carries (field : Option String) (text : String) : Prop :=
  text.toList <:+: (field.getD "").toList

/-- All instructions are in the field. -/
def Survives (field : Option String) (messages : List ChatMessage) : Prop :=
  ∀ m ∈ messages, m.role = .system → Carries field m.content

/-- What is told after the first message is corrections. -/
def Corrected (l : List Message) : Prop :=
  ∀ m ∈ l.tail, m.role = .system → m.content = correction.content

/-- The list begins with a prompt, and all other instructions are corrections. -/
def Led (l : List Message) : Prop := startsWithSystem l ∧ Corrected l

/-- What a provider is given of a list. -/
def texts (l : List Message) : List ChatMessage := l.map Message.toChatMessage

/-- No correction is in the list. -/
def Uncorrected (l : List Message) : Prop := ∀ m ∈ l.tail, m.role ≠ .system

instance (l : List Message) : Decidable (Uncorrected l) :=
  inferInstanceAs (Decidable (∀ m ∈ l.tail, _))

/-- The first message is part of a correction. -/
def IsCorrected (l : List Message) : Prop :=
  ∀ head ∈ l.head?, head.content.toList <:+: correction.content.toList

variable {l l' : List Message} {m prompt : Message} {dropIds : List ℕ} {maxHistory : ℕ}
  {field : Option String} {content : String}

/-! ### Edits -/

/-- Messages may be taken away. -/
theorem Corrected.sublist (hl : Corrected l) (h : l'.Sublist l) : Corrected l' :=
  fun m hm => hl m (h.tail.subset hm)

/-- What is appended gives no instructions but for corrections. -/
theorem Corrected.append (hl : Corrected l)
    (h : ∀ m ∈ l', m.role = .system → m.content = correction.content) : Corrected (l ++ l') := by
  rcases l with _ | ⟨head, rest⟩
  · exact fun m hm => h m (List.mem_of_mem_tail hm)
  · rintro m hm
    obtain hm | hm := List.mem_append.1 hm
    · exact hl m hm
    · exact h m hm

theorem Corrected.replacePrompt (hl : Corrected l) : Corrected (replacePrompt prompt l) := by
  rw [Messages.replacePrompt]
  split_ifs with hs
  · exact hl
  · rcases l with _ | ⟨head, rest⟩
    · rintro _ ⟨⟩
    · intro m hm hrole
      obtain rfl | hm := List.mem_cons.1 hm
      · simp [startsWithSystem, hrole] at hs
      · exact hl m hm hrole

theorem Corrected.swapPrompt (hl : Corrected l) : Corrected (swapPrompt prompt l) := by
  rw [Messages.swapPrompt]
  split_ifs
  · exact hl
  · exact hl.replacePrompt

/-- A summary is not a correction. -/
theorem Corrected.splice (hl : Corrected l) {summary : Message} (h : summary.role ≠ .system) :
    Corrected (splice dropIds summary l) := by
  rcases l with _ | ⟨head, rest⟩
  · exact nofun
  · rw [Messages.splice]
    split_ifs
    · intro m hm hrole
      obtain rfl | hm := List.mem_cons.1 hm
      · exact absurd hrole h
      · exact hl m (List.mem_of_mem_filter ((List.dropWhile_sublist _).subset hm)) hrole
    · exact hl

theorem startsWithSystem_replacePrompt (h : prompt.role = .system) :
    startsWithSystem (replacePrompt prompt l) := by
  rw [replacePrompt]
  split_ifs <;> simp [startsWithSystem, h]

theorem startsWithSystem_swapPrompt (h : prompt.role = .system) (hl : startsWithSystem l) :
    startsWithSystem (swapPrompt prompt l) := by
  rw [swapPrompt]
  split_ifs
  · exact hl
  · exact startsWithSystem_replacePrompt h

theorem startsWithSystem_splice {summary : Message} (hl : startsWithSystem l) :
    startsWithSystem (splice dropIds summary l) := by
  rcases l with _ | ⟨head, rest⟩
  · exact hl
  · rw [splice]
    split_ifs
    · exact hl
    · exact hl

/-! ### What is appended -/

section

variable {cfg : Settings} {t : Turn}

/-- What a turn leaves gives no instructions but for a correction. -/
theorem correction_of_mem_reply {fabricated : Bool}
    (h : m.toChatMessage ∈ State.reply cfg t fabricated) (hrole : m.role = .system) :
    m.content = correction.content := by
  obtain heq | hmem := List.mem_cons.1 h
  · simp [show m.role = .assistant from congrArg ChatMessage.role heq] at hrole
  · rcases fabricated
    · exact absurd hmem List.not_mem_nil
    · exact congrArg ChatMessage.content (List.mem_singleton.1 hmem)

/-- An apology is of the assistant. -/
theorem role_of_mem_apology {m : ChatMessage} (h : m ∈ State.apology cfg t) :
    m.role = .assistant := by
  rw [State.apology] at h
  split_ifs at h
  · exact absurd h List.not_mem_nil
  · exact List.mem_singleton.1 h ▸ rfl
  · exact absurd h List.not_mem_nil
  · exact List.mem_singleton.1 h ▸ rfl

/-- Messages of the caller are no instructions. -/
theorem not_system_userMessage {next : ℕ} {text : String} (h : m ∈ allocate next [userMessage text])
    (hrole : m.role = .system) : m.content = correction.content := by
  have hmem := List.mem_singleton.1 (mem_of_mem_allocate h)
  simp [show m.role = .user from congrArg ChatMessage.role hmem] at hrole

theorem Led.user (hl : Led l) (next : ℕ) (text : String) :
    Led (l ++ allocate next [userMessage text]) :=
  ⟨startsWithSystem_append hl.1, hl.2.append fun _ => not_system_userMessage⟩

end

/-! ### Runs -/

variable [Runtime] {cfg : Settings} {s s' : State} {t : Turn} {e : Event}

/-- What holds of the instructions in every state. -/
structure Instructed (s : State) : Prop where
  history : Corrected s.history.messages
  started : ∀ t ∈ s.turn, startsWithSystem s.history.messages
  copy : ∀ t ∈ s.turn, ∀ l ∈ t.copy, Led l
  generations : ∀ g ∈ s.generations, Led g.messages

namespace Instructed

section

omit [Runtime]

/-- The messages of a turn begin with the prompt. -/
theorem led (hi : Instructed s) (ht : s.turn = some t) : Led (s.messages t) := by
  rcases hcopy : t.copy with _ | l
  · rw [State.messages, hcopy]
    exact ⟨hi.started t ht, hi.history⟩
  · rw [State.messages, hcopy]
    exact hi.copy t ht l hcopy

/-- A step that leaves the messages alone. -/
theorem frame (hi : Instructed s) (hhistory : s'.history = s.history)
    (hturn : ∀ t' ∈ s'.turn, ∃ t ∈ s.turn, t'.copy = t.copy)
    (hgenerations : ∀ g ∈ s'.generations, Led g.messages) : Instructed s' := by
  refine ⟨hhistory ▸ hi.history, fun t' ht' => ?_, fun t' ht' l hl => ?_, hgenerations⟩
  · obtain ⟨t, ht, -⟩ := hturn t' ht'
    exact hhistory ▸ hi.started t ht
  · obtain ⟨t, ht, hcopy⟩ := hturn t' ht'
    exact hi.copy t ht l (hcopy ▸ hl)

theorem fold (hi : Instructed s) (ht : s.turn = some t) (stage : Stage)
    (collected : List (String × Bool)) (call : ToolCall) (result : ToolResult) :
    Instructed (s.fold cfg { t with stage := stage, collected := collected } call result) := by
  have hnone (next : ℕ) : ∀ m ∈ allocate next (foldToolResult cfg.dumps call result),
      m.role = .system → m.content = correction.content := by
    intro m hm hrole
    have hmem := mem_of_mem_allocate hm
    simp only [foldToolResult, List.mem_cons, List.not_mem_nil, or_false] at hmem
    obtain hmem | hmem := hmem
    · simp [show m.role = .assistant from congrArg ChatMessage.role hmem] at hrole
    · simp [show m.role = .tool from congrArg ChatMessage.role hmem] at hrole
  refine ⟨?_, ?_, ?_, hi.generations⟩
  · simp only [State.fold]
    split_ifs
    · exact hi.history
    · exact hi.history.append (hnone _)
  · rintro t' -
    simp only [State.fold]
    split_ifs
    · exact hi.started t ht
    · exact startsWithSystem_append (hi.started t ht)
  · rintro t' ht' l' hl'
    obtain rfl := Option.some.inj ht'
    obtain ⟨l, hcopy, rfl⟩ := Option.map_eq_some_iff.1 hl'
    obtain ⟨hstarts, hl⟩ := hi.copy t ht l hcopy
    exact ⟨startsWithSystem_append hstarts, hl.append (hnone _)⟩

/-- A turn ends with the reply, and with the correction if it is fabricated. -/
theorem finish (hi : Instructed s) (fabricated : Bool) :
    Instructed (s.finish cfg t fabricated) := by
  refine ⟨?_, fun _ h => absurd h (Option.not_mem_none _),
    fun _ h => absurd h (Option.not_mem_none _), hi.generations⟩
  simp only [State.finish]
  split_ifs
  · refine (hi.history.append fun m hm => ?_).sublist trim_sublist
    exact correction_of_mem_reply (mem_of_mem_allocate hm)
  · exact hi.history.sublist popUser_sublist

theorem recovered (hi : Instructed s) : Instructed (s.recovered cfg t) := by
  refine ⟨?_, fun _ h => absurd h (Option.not_mem_none _),
    fun _ h => absurd h (Option.not_mem_none _), hi.generations⟩
  simp only [State.recovered]
  split_ifs
  · exact hi.history
  · refine (hi.history.append fun m hm hrole => ?_).sublist trim_sublist
    rw [role_of_mem_apology (mem_of_mem_allocate hm)] at hrole
    cases hrole

end

/-- The prompt of the active node is put at the head. -/
theorem refreshed (hi : Instructed s) (cfg : Settings) :
    Led (s.history.refresh (s.prompt cfg)).messages :=
  ⟨startsWithSystem_replacePrompt rfl, hi.history.replacePrompt⟩

theorem transition (hi : Instructed s) (ht : s.turn = some t) {call : ToolCall}
    {edge : Config.Edge} (hs : s.transition cfg t call edge = some s') : Instructed s' := by
  obtain ⟨runner, -, rfl⟩ := Option.map_eq_some_iff.1 hs
  refine ⟨hi.history.swapPrompt, fun t' _ => ?_, fun t' ht' l' hl' => ?_, hi.generations⟩
  · exact startsWithSystem_swapPrompt rfl (hi.started t ht)
  · obtain rfl := Option.some.inj ht'
    obtain ⟨l, hcopy, rfl⟩ := Option.map_eq_some_iff.1 hl'
    obtain ⟨hstarts, hl⟩ := hi.copy t ht l hcopy
    exact ⟨startsWithSystem_swapPrompt rfl hstarts, hl.swapPrompt⟩

theorem question (hi : Instructed s) (text : String) (augmented : Option String) :
    Instructed (s.question cfg text augmented) := by
  have hled := hi.refreshed cfg
  have hextend := Led.user hled (s.history.refresh (s.prompt cfg)).next text
  rcases augmented with _ | content
  · exact ⟨hextend.2, fun _ _ => hextend.1, fun t' ht' l hl =>
      absurd (Option.some.inj ht' ▸ hl) nofun, hi.generations⟩
  · refine ⟨hextend.2, fun _ _ => hextend.1, fun t' ht' l hl => ?_, hi.generations⟩
    obtain rfl := Option.some.inj ht'
    obtain rfl := Option.some.inj hl
    rw [show ((s.history.refresh (s.prompt cfg)).extend [userMessage text]).messages.dropLast =
      (s.history.refresh (s.prompt cfg)).messages from List.dropLast_concat]
    exact Led.user hled _ content

theorem transferFailed (hi : Instructed s) (notice : String) :
    Instructed (s.transferFailed cfg notice) := by
  have hled : Led (s.transferFailed cfg notice).history.messages :=
    ⟨startsWithSystem_replacePrompt rfl, hi.history.replacePrompt⟩
  refine ⟨hled.2, fun _ _ => hled.1, fun t' ht' l hl => ?_, hi.generations⟩
  obtain rfl := Option.some.inj ht'
  obtain rfl := Option.some.inj hl
  exact Led.user hled _ notice

theorem turnStep (hi : Instructed s) (ht : s.turn = some t)
    (hs : s.turnStep cfg t e = some s') : Instructed s' := by
  rcases State.turnStep_cases hs with ⟨-, rfl⟩ | ⟨-, _, _, _, _, _, -, rfl⟩ | ⟨_, _, -, hs⟩ |
    ⟨-, _, _, _, _, _, -, rfl⟩ | ⟨_, -, -, rfl⟩ | ⟨-, -, rfl⟩
  · refine hi.frame rfl (fun t' ht' => ⟨t, ht, Option.some.inj ht' ▸ rfl⟩) fun g hg => ?_
    obtain hg | hg := List.mem_append.1 hg
    · exact hi.generations g hg
    · exact List.mem_singleton.1 hg ▸ hi.led ht
  · exact hi.frame rfl (fun t' ht' => ⟨t, ht, Option.some.inj ht' ▸ rfl⟩) hi.generations
  · exact hi.transition ht hs
  · exact hi.fold ht _ _ _ _
  · exact hi.finish _
  · exact hi.recovered

theorem idleStep (hi : Instructed s) (hturn : s.turn = none) (hs : s.idleStep cfg e = some s') :
    Instructed s' := by
  cases e with
  | greeting =>
    obtain ⟨start, -, hs⟩ := Option.bind_eq_some_iff.1 hs
    obtain ⟨-, hs⟩ := Option.ite_none_left_eq_some.1 hs
    obtain rfl := Option.some.inj hs
    refine ⟨hi.history.append fun m hm hrole => ?_, ?_, ?_, hi.generations⟩
    · have hmem := List.mem_singleton.1 (mem_of_mem_allocate hm)
      simp [show m.role = .assistant from congrArg ChatMessage.role hmem] at hrole
    all_goals simp [hturn]
  | question text augmented => exact Option.some.inj hs ▸ hi.question text augmented
  | transferFailed notice => exact Option.some.inj hs ▸ hi.transferFailed notice
  | workflowTransfer =>
    obtain ⟨node, -, rfl⟩ := Option.map_eq_some_iff.1 hs
    exact hi.frame rfl (fun t ht => ⟨t, ht, rfl⟩) hi.generations
  | _ => simp [State.idleStep] at hs

omit [Runtime] in
theorem backgroundStep (hi : Instructed s) (hs : s.backgroundStep e = some s') :
    Instructed s' := by
  have hsame (t : Turn) (ht : t ∈ s.turn) : ∃ t' ∈ s.turn, t.copy = t'.copy := ⟨t, ht, rfl⟩
  rcases State.backgroundStep_cases hs with ⟨-, rfl⟩ | ⟨-, rfl⟩ | ⟨_, -, rfl⟩ | ⟨-, rfl⟩ |
    ⟨_, _, -, -, rfl⟩ | ⟨-, rfl⟩
  · refine hi.frame rfl (fun t' ht' => ?_) hi.generations
    obtain ⟨t, ht, rfl⟩ := Option.map_eq_some_iff.1 ht'
    exact ⟨t, ht, rfl⟩
  · exact hi.frame rfl hsame hi.generations
  · exact hi.frame rfl hsame hi.generations
  · exact hi.frame rfl hsame hi.generations
  · exact ⟨hi.history.splice nofun, fun t ht => startsWithSystem_splice (hi.started t ht), hi.copy,
      hi.generations⟩
  · exact hi.frame rfl hsame hi.generations

theorem step (hi : Instructed s) (hs : s.step cfg e = some s') : Instructed s' := by
  rcases State.step_cases hs with hs | ⟨t, ht, hs⟩ | ⟨hturn, hs⟩
  · exact hi.backgroundStep hs
  · exact hi.turnStep ht hs
  · exact hi.idleStep hturn hs

end Instructed

/-! ### The field -/

omit [Runtime] in
/-- The last system message is the prompt, or the correction. -/
theorem lastSystem_texts (hl : Led l) :
    Uncorrected l ∧ lastSystem none (texts l) = l.head?.map (·.content) ∨
      ¬ Uncorrected l ∧ lastSystem none (texts l) = some correction.content := by
  obtain ⟨hstarts, hcorrected⟩ := hl
  rcases l with _ | ⟨head, rest⟩
  · simp [startsWithSystem] at hstarts
  have hhead : head.role = .system := by simpa [startsWithSystem] using hstarts
  rw [texts, List.map_cons, lastSystem, if_pos hhead]
  by_cases hrest : Uncorrected (head :: rest)
  · refine .inl ⟨hrest, lastSystem_of_forall_ne fun m hm => ?_⟩
    obtain ⟨m, hm', rfl⟩ := List.mem_map.1 hm
    exact hrest m hm'
  · refine .inr ⟨hrest, lastSystem_of_forall (fun m hm => ?_) ?_⟩
    · obtain ⟨m, hm', rfl⟩ := List.mem_map.1 hm
      exact hcorrected m hm'
    · obtain ⟨m, hm, hrole⟩ : ∃ m ∈ rest, m.role = .system := by
        simpa only [Uncorrected, List.tail_cons, not_forall, not_not, exists_prop] using hrest
      exact ⟨m.toChatMessage, List.mem_map_of_mem hm, hrole⟩

omit [Runtime] in
/-- What is last in the field is the prompt, or a correction. -/
theorem survives_textField_iff (hl : Led l) :
    Survives (textField (lastSystem none (texts l))) (texts l) ↔ Uncorrected l ∨ IsCorrected l := by
  have hmem : ∀ m ∈ texts l, m.role = .system →
      m.content ∈ l.head?.map (·.content) ∨ ¬ Uncorrected l ∧ m.content = correction.content := by
    intro m hm hrole
    obtain ⟨m, hm', rfl⟩ := List.mem_map.1 hm
    rcases l with _ | ⟨head, rest⟩
    · cases hm'
    · obtain rfl | hm' := List.mem_cons.1 hm'
      · exact .inl rfl
      · exact .inr ⟨fun hnone => hnone m hm' hrole, hl.2 m hm' hrole⟩
  simp only [Survives, Carries, getD_textField]
  obtain ⟨hnone, hlast⟩ | ⟨hsome, hlast⟩ := lastSystem_texts hl
  · refine iff_of_true (fun m hm hrole => ?_) (.inl hnone)
    obtain hhead | ⟨hsome, -⟩ := hmem m hm hrole
    · rw [hlast, Option.mem_def.1 hhead]
      exact List.infix_rfl
    · exact absurd hnone hsome
  · rw [hlast, or_iff_right hsome]
    constructor
    · intro hsurvives head hhead
      have hrole : head.role = .system := by
        simpa [startsWithSystem, Option.mem_def.1 hhead] using hl.1
      exact hsurvives _ (List.mem_map_of_mem (List.mem_of_mem_head? hhead)) hrole
    · intro hhead m hm hrole
      obtain hm | ⟨-, hm⟩ := hmem m hm hrole
      · obtain ⟨head, hhead', hcontent⟩ := Option.map_eq_some_iff.1 (Option.mem_def.1 hm)
        exact hcontent ▸ hhead head hhead'
      · rw [hm]
        exact List.infix_rfl

omit [Runtime] in
/-- No prompt is added where there is one. -/
theorem buildChatMessages_texts (hl : startsWithSystem l) (system : String) :
    buildChatMessages system (texts l) = texts l := by
  rcases l with _ | ⟨head, rest⟩
  · simp [startsWithSystem] at hl
  · exact buildChatMessages_of_mem (List.mem_map_of_mem List.mem_cons_self)
      (by simpa [startsWithSystem] using hl)

omit [Runtime] in
theorem survives_anthropic_iff (hl : Led l) (anthropic : AnthropicLLM) :
    Survives (anthropic.payload (texts l)).system (texts l) ↔ Uncorrected l ∨ IsCorrected l := by
  simp only [AnthropicLLM.payload, AnthropicLLM.shapeMessages, buildChatMessages_texts hl.1]
  exact survives_textField_iff hl

omit [Runtime] in
theorem survives_gemini_iff (hl : Led l) (loads : String → Option Json) (dumps : Json → String)
    (system : String) (temperature : ℚ) :
    Survives (GeminiLLM.payload loads dumps system temperature (texts l)).systemInstruction
      (texts l) ↔ Uncorrected l ∨ IsCorrected l := by
  simp only [GeminiLLM.payload, GeminiLLM.shapeContents, buildChatMessages_texts hl.1]
  exact survives_textField_iff hl

/-- So in every run the messages are led by the prompt. -/
theorem instructed_of_reachable {start : Config.Node} {vars : Dict String Json}
    (hs : (conversations cfg start vars).Reachable s) : Instructed s :=
  hs.invariant ⟨fun _ h => absurd h List.not_mem_nil, fun _ h => absurd h (Option.not_mem_none _),
    fun _ h => absurd h (Option.not_mem_none _), fun _ h => absurd h List.not_mem_nil⟩ fun _ _ _ hi hst => hi.step hst

/-- All instructions that the model is given are in the field of the request, of either
    provider, if and only if none of them is a correction, or the prompt is part of one. -/
theorem survives_iff (cfg : Settings) (start : Config.Node) (vars : Dict String Json)
    (hs : (conversations cfg start vars).Reachable s) (anthropic : AnthropicLLM)
    (loads : String → Option Json) (dumps : Json → String) (system : String) (temperature : ℚ) :
    ∀ g ∈ s.generations,
      (Survives (anthropic.payload (texts g.messages)).system (texts g.messages) ↔
        Uncorrected g.messages ∨ IsCorrected g.messages) ∧
      (Survives (GeminiLLM.payload loads dumps system temperature
          (texts g.messages)).systemInstruction (texts g.messages) ↔
        Uncorrected g.messages ∨ IsCorrected g.messages) := by
  intro g hg
  have hled := (instructed_of_reachable hs).generations g hg
  exact ⟨survives_anthropic_iff hled _, survives_gemini_iff hled _ _ _ _⟩

/-- The model says that it has booked, without doing so, and is asked again. -/
private def claimed : Option State :=
  (@conversations .ascii desk deskNode []).exec (@conversations .ascii desk deskNode []).init
    [.question "Friday at ten, please." none, .generate,
      .token "Your appointment is booked for Friday at ten.", .endOfStream, .finish true,
      .question "Thank you." none, .generate]

omit [Runtime] in
private theorem claimed_isSome : claimed.isSome := by decide

omit [Runtime] in
theorem survives_claimed : ∃ s, claimed = some s ∧ s.generations.length = 2 ∧
    ∀ g ∈ s.generations,
      (Survives (({} : AnthropicLLM).payload (texts g.messages)).system (texts g.messages) ↔
        Uncorrected g.messages ∨ IsCorrected g.messages) ∧
      (Survives (GeminiLLM.payload (fun _ => none) Json.dumps "" 0
          (texts g.messages)).systemInstruction (texts g.messages) ↔
        Uncorrected g.messages ∨ IsCorrected g.messages) := by
  have hs : (@conversations .ascii desk deskNode []).Reachable (claimed.get claimed_isSome) :=
    System.Reachable.exec .init (Option.some_get claimed_isSome).symm
  exact ⟨_, (Option.some_get claimed_isSome).symm, by decide,
    @survives_iff .ascii _ desk deskNode [] hs {} _ _ _ _⟩

omit [Runtime] in
theorem notMem_correction : 'Y' ∉ correction.content.toList := by
  simp only [correction, systemMessage, String.toList_append, List.mem_append]
  simp only [String.reduceToList]
  decide

omit [Runtime] in
/-- The correction stands for the prompt. -/
theorem not_survives : ¬ ∀ cfg start vars s, (@conversations .ascii cfg start vars).Reachable s →
    ∀ (anthropic : AnthropicLLM) (loads : String → Option Json) (dumps : Json → String)
      (system : String) (temperature : ℚ), ∀ g ∈ s.generations,
      Survives (anthropic.payload (texts g.messages)).system (texts g.messages) ∧
      Survives (GeminiLLM.payload loads dumps system temperature
        (texts g.messages)).systemInstruction (texts g.messages) := by
  intro h
  have hs : (@conversations .ascii desk deskNode []).Reachable (claimed.get claimed_isSome) :=
    System.Reachable.exec .init (Option.some_get claimed_isSome).symm
  obtain ⟨g, hg, hsome, head, hhead, hmem⟩ : ∃ g ∈ (claimed.get claimed_isSome).generations,
      ¬ Uncorrected g.messages ∧ ∃ head ∈ g.messages.head?, 'Y' ∈ head.content.toList := by
    decide
  have hled := (@instructed_of_reachable .ascii _ _ _ _ hs).generations g hg
  have hsurvives := (h _ _ _ _ hs {} (fun _ => none) Json.dumps "" 0 g hg).1
  have hcorrected := ((survives_anthropic_iff hled {}).1 hsurvives).resolve_left hsome
  exact notMem_correction ((hcorrected head hhead).subset hmem)

end Yuviz.Conversation.Messages
