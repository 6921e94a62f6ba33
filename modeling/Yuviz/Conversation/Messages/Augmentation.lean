import Mathlib
import Yuviz.Conversation.Messages.Rollback

/-!
# What a turn with retrieved context leaves

The question with what was found in the knowledge base is given to the model in
a copy of the history, so that it is not in the history itself. But the calls of
the turn and their results are appended to the copy as well, and are lost with
it. A turn leaves the same history with the context as without exactly if it has
no calls (`transparent_iff`).

The two turns are compared step by step: they are in the same stage with the
same node active, and have the same prompt (`Mirrors`).
-/

namespace Yuviz.Conversation.Messages

open Python

variable [Runtime] {cfg : Settings} {s₀ s₁ s₂ s₁' : State} {t₁ t₂ : Turn} {e : Event}
  {done : List Event} {text content : String} {l l' : List Message} {m prompt : Message}
  {maxHistory : ℕ} {fabricated : Bool}

/-! ### Lists with the same contents -/

omit [Runtime]

/-- The messages are the same, but for their identities. -/
def SameContent (l l' : List Message) : Prop :=
  l.map Message.toChatMessage = l'.map Message.toChatMessage

namespace SameContent

theorem length_eq (h : SameContent l l') : l.length = l'.length := by
  simpa using congrArg List.length h

theorem append {r r' : List Message} (h : SameContent l l') (hr : SameContent r r') :
    SameContent (l ++ r) (l' ++ r') := by
  rw [SameContent, List.map_append, List.map_append, h, hr]

theorem take (h : SameContent l l') (k : ℕ) : SameContent (l.take k) (l'.take k) := by
  rw [SameContent, List.map_take, List.map_take, h]

theorem drop (h : SameContent l l') (k : ℕ) : SameContent (l.drop k) (l'.drop k) := by
  rw [SameContent, List.map_drop, List.map_drop, h]

theorem head_any (h : SameContent l l') (p : ChatMessage → Bool) :
    l.head?.any (p ·.toChatMessage) = l'.head?.any (p ·.toChatMessage) := by
  simpa [List.head?_map, Option.any_map] using congrArg (·.head?.any p) h

theorem getLast_any (h : SameContent l l') (p : ChatMessage → Bool) :
    l.getLast?.any (p ·.toChatMessage) = l'.getLast?.any (p ·.toChatMessage) := by
  simpa [List.getLast?_map, Option.any_map] using congrArg (·.getLast?.any p) h

theorem popUser (h : SameContent l l') : SameContent (popUser l) (popUser l') := by
  rw [Messages.popUser, Messages.popUser, h.getLast_any fun m => decide (m.role = .user)]
  split_ifs
  · rw [SameContent, List.map_dropLast, List.map_dropLast, h]
  · exact h

theorem trim (h : SameContent l l') : SameContent (trim maxHistory l) (trim maxHistory l') := by
  have hstarts : startsWithSystem l = startsWithSystem l' :=
    h.head_any fun m => decide (m.role = .system)
  rw [Messages.trim, Messages.trim, hstarts, h.length_eq]
  split_ifs
  · exact (h.take _).append (h.drop _)
  · exact h
  · exact (h.take _).append (h.drop _)
  · exact h

theorem allocate (next next' : ℕ) (ms : List ChatMessage) :
    SameContent (allocate next ms) (Messages.allocate next' ms) := by
  rw [SameContent, map_allocate, map_allocate]

end SameContent

/-! ### What a turn with context leaves -/

/-- The retrieved context leaves no trace: a turn that begins in the state `s₀`, and ends in the
    step from `s₁` to `s₁'`, or from `s₂` to `s₂'` with the context, leaves the same history, in
    which every message of the caller is an old one or the question as it was asked, and every
    call of the turn is there with its result. -/
structure Transparent (text : String) (s₀ s₁ s₁' s₂ s₂' : State) : Prop where
  same : SameContent s₁'.history.messages s₂'.history.messages
  question : ∀ m ∈ s₂'.history.messages, m.role = .user →
    m ∈ s₀.history.messages ∨ m.content = text
  calls : (∀ t ∈ s₁.turn, ∀ m ∈ t.folded, m ∈ s₁'.history.messages) ∧
    ∀ t ∈ s₂.turn, ∀ m ∈ t.folded, m ∈ s₂'.history.messages

/-- How far a turn has come. -/
def Turn.progress (t : Turn) : Turn := { t with copy := none, folded := [] }

theorem Turn.eq_of_progress (h : t₂.progress = t₁.progress) :
    ∃ copy folded, t₂ = { t₁ with copy := copy, folded := folded } := by
  refine ⟨t₂.copy, t₂.folded, ?_⟩
  have hprogress : t₂ = { t₂.progress with copy := t₂.copy, folded := t₂.folded } := rfl
  rw [h] at hprogress
  exact hprogress

/-- The two turns have come equally far, and have the same node active and the same prompt. -/
structure Mirrors (s₁ s₂ : State) : Prop where
  runner : s₂.runner = s₁.runner
  turn : s₂.turn.map Turn.progress = s₁.turn.map Turn.progress
  prompt : SameContent (s₁.history.messages.take 1) (s₂.history.messages.take 1)

namespace InTurn

theorem messages_ne_nil {augmented : Option String} (h : InTurn cfg s₀ text augmented done s₁ t₁) :
    s₁.history.messages ≠ [] := by
  obtain ⟨prompt, user, -, -, -, hhistory⟩ := h.history
  simp [hhistory]

theorem folded_eq_nil {augmented : Option String} (h : InTurn cfg s₀ text augmented done s₁ t₁)
    (hnone : ∀ e ∈ done, ¬ e.Folds) : t₁.folded = [] := by
  rcases h.folded with ⟨hnil, -⟩ | ⟨⟨e, he, hfolds⟩, -⟩
  · exact hnil
  · exact absurd hfolds (hnone e he)

end InTurn

theorem take_one_replacePrompt : (replacePrompt prompt l ++ l').take 1 = [prompt] := by
  rw [replacePrompt]
  split_ifs <;> rfl

theorem take_one_swapPrompt [Runtime] (s : State) (hne : s.history.messages ≠ []) :
    ((s.swapPrompt cfg t₁).history.messages.take 1).map Message.toChatMessage =
      [s.prompt cfg] := by
  show ((swapPrompt _ s.history.messages).take 1).map _ = _
  rw [swapPrompt, if_neg (by simpa using hne), replacePrompt]
  split_ifs <;> rfl

theorem take_one_fold {stage : Stage} {collected : List (String × Bool)} {call : ToolCall}
    {result : ToolResult} (hl : s₁.history.messages ≠ []) :
    (s₁.fold cfg { t₁ with stage := stage, collected := collected } call result).history.messages.take
      1 = s₁.history.messages.take 1 := by
  rw [State.fold]
  dsimp only
  split_ifs
  · rfl
  · exact List.take_append_of_le_length (List.length_pos_iff.2 hl)

namespace Mirrors

/-- A transition puts the same prompt at the head of both histories. -/
theorem transition [Runtime] (cfg : Settings) (hrunner : s₂.runner = s₁.runner) (ht : t₂.progress = t₁.progress)
    (hne : s₁.history.messages ≠ []) (hne' : s₂.history.messages ≠ []) (call : ToolCall)
    (edge : Config.Edge) (s₁' : State) (hs : s₁.transition cfg t₁ call edge = some s₁') :
    ∃ s₂', s₂.transition cfg t₂ call edge = some s₂' ∧ Mirrors s₁' s₂' := by
  obtain ⟨copy, folded, rfl⟩ := Turn.eq_of_progress ht
  obtain ⟨runner, htransition, rfl⟩ := Option.map_eq_some_iff.1 hs
  refine ⟨_, Option.map_eq_some_iff.2 ⟨runner, hrunner ▸ htransition, rfl⟩, rfl, rfl, ?_⟩
  exact (take_one_swapPrompt { s₁ with runner := runner } hne).trans
    (take_one_swapPrompt { s₂ with runner := runner } hne').symm

/-- A call and its result leave the prompts. -/
theorem fold (cfg : Settings) (hm : Mirrors s₁ s₂) (ht : t₂.progress = t₁.progress)
    (hne : s₁.history.messages ≠ []) (hne' : s₂.history.messages ≠ []) (stage : Stage)
    (collected : List (String × Bool)) (call : ToolCall) (result : ToolResult) :
    Mirrors (s₁.fold cfg { t₁ with stage := stage, collected := collected } call result)
      (s₂.fold cfg { t₂ with stage := stage, collected := collected } call result) := by
  obtain ⟨copy, folded, rfl⟩ := Turn.eq_of_progress ht
  refine ⟨hm.runner, rfl, ?_⟩
  rw [take_one_fold hne, take_one_fold hne']
  exact hm.prompt

theorem afterTool_progress (result : ToolResult) (copy : Option (List Message))
    (folded : List Message) (t : Turn) : ∃ stage collected,
      State.afterTool t result = { t with stage := stage, collected := collected } ∧
      State.afterTool { t with copy := copy, folded := folded } result =
        { t with copy := copy, folded := folded, stage := stage, collected := collected } := by
  rw [State.afterTool, State.afterTool]
  split
  · split_ifs
    · exact ⟨_, _, rfl, rfl⟩
    · exact ⟨_, _, rfl, rfl⟩
  · exact ⟨_, _, rfl, rfl⟩

/-- A step of the one turn is a step of the other. -/
theorem turnStep [Runtime] (hm : Mirrors s₁ s₂) (ht : t₂.progress = t₁.progress)
    (hne : s₁.history.messages ≠ []) (hne' : s₂.history.messages ≠ []) (he : ¬ e.Finishes)
    (hrecovery : t₁.isRecovery = false) (hs : s₁.turnStep cfg t₁ e = some s₁') :
    ∃ s₂', s₂.turnStep cfg t₂ e = some s₂' ∧ Mirrors s₁' s₂' := by
  have hfold := hm.fold cfg ht hne hne'
  have htransition := transition cfg hm.runner ht hne hne'
  obtain ⟨copy, folded, rfl⟩ := Turn.eq_of_progress ht
  cases e with
  | generate =>
    rw [State.turnStep] at hs ⊢
    split at hs
    · rename_i hstage
      obtain rfl := Option.some.inj hs
      dsimp only
      rw [hstage]
      exact ⟨_, rfl, hm.runner, rfl, hm.prompt⟩
    · simp at hs
  | token text =>
    rw [State.turnStep] at hs ⊢
    split at hs
    · rename_i hstage
      obtain rfl := Option.some.inj hs
      dsimp only
      rw [hstage]
      refine ⟨_, rfl, ?_⟩
      split_ifs
      · exact ⟨congrArg (fun r => { r with pendingSpeech := none }) hm.runner, rfl, hm.prompt⟩
      · exact ⟨hm.runner, rfl, hm.prompt⟩
    · simp at hs
  | chunk text =>
    obtain ⟨hspeaks, hs⟩ := Option.ite_none_right_eq_some.1 hs
    obtain rfl := Option.some.inj hs
    exact ⟨_, if_pos hspeaks, hm.runner, rfl, hm.prompt⟩
  | transition call edge =>
    rw [State.turnStep] at hs ⊢
    split at hs
    · rename_i hstage
      obtain ⟨htakes, hs⟩ := Option.ite_none_right_eq_some.1 hs
      obtain ⟨s₂', hs', hm'⟩ := htransition call edge _ hs
      refine ⟨s₂', ?_, hm'⟩
      dsimp only
      rw [hstage, hm.runner]
      exact (if_pos htakes).trans hs'
    · simp at hs
  | resume =>
    rw [State.turnStep] at hs ⊢
    split at hs
    · rename_i hstage
      obtain rfl := Option.some.inj hs
      dsimp only
      rw [hstage]
      exact ⟨_, rfl, hfold _ _ _ _⟩
    · simp at hs
  | remote call =>
    rw [State.turnStep] at hs ⊢
    split at hs
    · rename_i hstage
      obtain rfl := Option.some.inj hs
      dsimp only
      rw [hstage]
      exact ⟨_, rfl, hm.runner, rfl, hm.prompt⟩
    · simp at hs
  | result result =>
    rw [State.turnStep] at hs ⊢
    split at hs
    · rename_i hstage
      obtain rfl := Option.some.inj hs
      dsimp only
      rw [hstage]
      obtain ⟨_, _, ht₁, ht₂⟩ := afterTool_progress result copy folded t₁
      exact ⟨_, rfl, ht₁ ▸ ht₂ ▸ hfold _ _ _ _⟩
    · simp at hs
  | refuse call result =>
    rw [State.turnStep] at hs ⊢
    split at hs
    · rename_i hstage
      obtain rfl := Option.some.inj hs
      dsimp only
      rw [hstage]
      obtain ⟨_, _, ht₁, ht₂⟩ := afterTool_progress result copy folded t₁
      exact ⟨_, rfl, ht₁ ▸ ht₂ ▸ hfold _ _ _ _⟩
    · simp at hs
  | endOfStream =>
    rw [State.turnStep] at hs ⊢
    split at hs
    · rename_i hstage
      obtain rfl := Option.some.inj hs
      dsimp only
      rw [hstage]
      exact ⟨_, rfl, hm.runner, rfl, hm.prompt⟩
    · simp at hs
  | raise =>
    rw [State.turnStep] at hs ⊢
    split at hs
    · simp at hs
    · simp at hs
    · rename_i hclosing hdone
      obtain rfl := Option.some.inj hs
      dsimp only
      rcases hstage : t₁.stage with _ | _ | _ | _ | _ | _
      any_goals exact ⟨_, rfl, hm.runner, rfl, hm.prompt⟩
  | finish fabricated => exact absurd trivial he
  | recovered => simp [State.turnStep, hrecovery] at hs
  | _ => simp [State.turnStep] at hs

theorem step [Runtime] (hm : Mirrors s₁ s₂) (h₁ : InTurn cfg s₀ text none done s₁ t₁)
    (h₂ : InTurn cfg s₀ text (some content) done s₂ t₂) (he : ¬ e.Finishes)
    (hs : s₁.step cfg e = some s₁') : ∃ s₂', s₂.step cfg e = some s₂' ∧ Mirrors s₁' s₂' := by
  have ht : t₂.progress = t₁.progress := by simpa [h₁.turn, h₂.turn] using hm.turn
  rcases State.step_cases hs with hs | ⟨t, hturn, hs⟩ | ⟨hturn, -⟩
  · have htask := h₁.task
    rcases State.backgroundStep_cases hs with ⟨rfl, rfl⟩ | ⟨rfl, rfl⟩ | ⟨values, rfl, rfl⟩ |
      ⟨hscheduled, -⟩ | ⟨dropIds, content, hrunning, -⟩ | ⟨hsome, -⟩
    · refine ⟨_, rfl, congrArg (fun r => { r with pendingSpeech := none }) hm.runner, ?_, hm.prompt⟩
      obtain ⟨copy, folded, rfl⟩ := Turn.eq_of_progress ht
      rw [h₁.turn, h₂.turn]
      rfl
    · exact ⟨_, rfl, congrArg Workflow.Runner.abandonTransfer hm.runner, hm.turn, hm.prompt⟩
    · exact ⟨_, rfl, congrArg (·.updateVariables values) hm.runner, hm.turn, hm.prompt⟩
    · simp [htask] at hscheduled
    · simp [htask] at hrunning
    · simp [htask] at hsome
  · obtain rfl := Option.some.inj (h₁.turn.symm.trans hturn)
    obtain ⟨s₂', hs', hm'⟩ := hm.turnStep ht h₁.messages_ne_nil h₂.messages_ne_nil he
      h₁.isRecovery hs
    exact ⟨s₂', State.step_of_turnStep h₂.turn hs', hm'⟩
  · simp [h₁.turn] at hturn

/-- The turn with the context follows the turn without. -/
theorem exec [Runtime] {start : Config.Node} {vars : Dict String Json} {events : List Event}
    (hm : Mirrors s₁ s₂) (h₁ : InTurn cfg s₀ text none done s₁ t₁)
    (h₂ : InTurn cfg s₀ text (some content) done s₂ t₂) (he : ∀ e ∈ events, ¬ e.Finishes)
    (hs : (conversations cfg start vars).exec s₁ events = some s₁') :
    ∃ s₂', (conversations cfg start vars).exec s₂ events = some s₂' ∧ Mirrors s₁' s₂' := by
  induction events generalizing done s₁ s₂ t₁ t₂ with
  | nil =>
    obtain rfl := Option.some.inj hs
    exact ⟨s₂, rfl, hm⟩
  | cons e events ih =>
    rw [List.forall_mem_cons] at he
    obtain ⟨u₁, hu₁, hs⟩ := Option.bind_eq_some_iff.1 hs
    obtain ⟨u₂, hu₂, hmu⟩ := hm.step h₁ h₂ he.1 hu₁
    obtain ⟨_, h₁'⟩ := h₁.step he.1 hu₁
    obtain ⟨_, h₂'⟩ := h₂.step he.1 hu₂
    obtain ⟨s₂', hs', hm'⟩ := ih hmu h₁' h₂' he.2 hs
    exact ⟨s₂', Option.bind_eq_some_iff.2 ⟨u₂, hu₂, hs'⟩, hm'⟩

theorem question [Runtime] (s₀ : State) (text content : String) :
    Mirrors (s₀.question cfg text none) (s₀.question cfg text (some content)) :=
  ⟨rfl, rfl, rfl⟩

/-- While there are no calls, the histories are the same. -/
theorem sameContent (hm : Mirrors s₁ s₂) (h₁ : InTurn cfg s₀ text none done s₁ t₁)
    (h₂ : InTurn cfg s₀ text (some content) done s₂ t₂) (hnil : t₁.folded = []) :
    SameContent s₁.history.messages s₂.history.messages := by
  obtain ⟨prompt₁, user₁, -, huser₁, -, heq₁⟩ := h₁.history
  obtain ⟨prompt₂, user₂, -, huser₂, -, heq₂⟩ := h₂.history
  have hprompt := hm.prompt
  rw [heq₁, heq₂, take_one_replacePrompt, take_one_replacePrompt] at hprompt
  rw [heq₁, heq₂, hnil]
  refine SameContent.append ?_ ?_
  · rw [replacePrompt, replacePrompt]
    split_ifs
    · exact hprompt.append rfl
    · exact hprompt.append rfl
  · show [user₁.toChatMessage] = [user₂.toChatMessage]
    rw [huser₁, huser₂]

theorem finish (ht : t₂.progress = t₁.progress)
    (h : SameContent s₁.history.messages s₂.history.messages) :
    SameContent (s₁.finish cfg t₁ fabricated).history.messages
      (s₂.finish cfg t₂ fabricated).history.messages := by
  obtain ⟨copy, folded, rfl⟩ := Turn.eq_of_progress ht
  rw [State.finish, State.finish]
  dsimp only
  split_ifs
  · exact (h.append (.allocate _ _ _)).trim
  · exact h.popUser

theorem turnStep_finish [Runtime] (s₂ : State) (ht : t₂.progress = t₁.progress)
    (hs : s₁.turnStep cfg t₁ (.finish fabricated) = some s₁') :
    ∃ s₂', s₂.turnStep cfg t₂ (.finish fabricated) = some s₂' := by
  obtain ⟨copy, folded, rfl⟩ := Turn.eq_of_progress ht
  rw [State.turnStep] at hs ⊢
  dsimp only
  split at hs
  · rename_i hstage hrecovery
    rw [hstage, hrecovery]
    exact ⟨_, if_neg (Option.ite_none_left_eq_some.1 hs).1⟩
  · rename_i hstage hrecovery
    rw [hstage, hrecovery]
    exact ⟨_, if_neg (Option.ite_none_left_eq_some.1 hs).1⟩
  · simp at hs

end Mirrors

/-- What a turn leaves was there before, or is of the reply. -/
theorem mem_of_mem_finish (hm : m ∈ (s₁.finish cfg t₁ fabricated).history.messages) :
    m ∈ s₁.history.messages ∨ m.role = .assistant ∨ m.role = .system := by
  rw [State.finish] at hm
  dsimp only at hm
  split_ifs at hm
  · have hm : m ∈ s₁.history.messages ++ allocate s₁.history.next (State.reply cfg t₁ fabricated) :=
      trim_sublist.subset hm
    rcases List.mem_append.1 hm with hm | hm
    · exact .inl hm
    · have hreply := mem_of_mem_allocate hm
      rw [State.reply] at hreply
      rcases List.mem_cons.1 hreply with heq | hcorrection
      · exact .inr (.inl (heq ▸ rfl))
      · split_ifs at hcorrection
        · exact .inr (.inr (List.mem_singleton.1 hcorrection ▸ rfl))
        · exact absurd hcorrection List.not_mem_nil
  · exact .inl (popUser_sublist.subset hm)

namespace InTurn

/-- What a turn with context leaves is an old message, the question, the reply or a prompt. -/
theorem mem_of_mem_finish (h : InTurn cfg s₀ text (some content) done s₂ t₂)
    (hm : m ∈ (s₂.finish cfg t₂ fabricated).history.messages) :
    m ∈ s₀.history.messages ∨ m.toChatMessage = userMessage text ∨
      m.role = .assistant ∨ m.role = .system := by
  obtain ⟨prompt, user, hprompt, huser, -, heq⟩ := h.history
  rcases Messages.mem_of_mem_finish hm with hm | hm
  · rw [heq] at hm
    rcases List.mem_append.1 hm with hm | hm
    · rw [replacePrompt] at hm
      split_ifs at hm
      · rcases List.mem_cons.1 hm with rfl | hm
        · exact .inr (.inr (.inr hprompt))
        · exact .inl (List.mem_of_mem_tail hm)
      · rcases List.mem_cons.1 hm with rfl | hm
        · exact .inr (.inr (.inr hprompt))
        · exact .inl hm
    · obtain rfl := List.mem_singleton.1 hm
      exact .inr (.inl huser)
  · exact .inr (.inr hm)

/-- The calls of a turn with context and their results are lost. -/
theorem not_mem_finish (h : InTurn cfg s₀ text (some content) done s₂ t₂)
    (he : e ∈ done) (hfolds : e.Folds) (fabricated : Bool) :
    ∃ m ∈ t₂.folded, m ∉ (s₂.finish cfg t₂ fabricated).history.messages := by
  rcases h.folded with ⟨-, hnone⟩ | ⟨-, r, hr, hrole⟩
  · exact absurd hfolds (hnone e he)
  · have hmem := List.mem_of_getLast? hr
    refine ⟨r, hmem, fun hfinish => ?_⟩
    rcases h.mem_of_mem_finish hfinish with hold | hnew | hnew | hnew
    · exact (s₀.history.lt_next r hold).not_ge (h.paired.2 r hmem).2
    · rw [congrArg ChatMessage.role hnew] at hrole
      exact absurd hrole nofun
    · exact absurd (hrole.symm.trans hnew) nofun
    · exact absurd (hrole.symm.trans hnew) nofun

end InTurn

/-- A turn whose question is augmented with retrieved context runs as it does without, and leaves
    the same history exactly if it has no calls. -/
theorem transparent_iff [Runtime] (cfg : Settings) (start : Config.Node) (vars : Dict String Json)
    (hidle : s₀.turn = none) {events : List Event} (hevents : ∀ e ∈ events, ¬ e.Finishes)
    (hs₁ : (conversations cfg start vars).exec s₀ (.question text none :: events) = some s₁)
    (hs₁' : (conversations cfg start vars).step s₁ (.finish fabricated) = some s₁') :
    ∃ s₂ s₂',
      (conversations cfg start vars).exec s₀ (.question text (some content) :: events) = some s₂ ∧
      (conversations cfg start vars).step s₂ (.finish fabricated) = some s₂' ∧
      (Transparent text s₀ s₁ s₁' s₂ s₂' ↔ ∀ e ∈ events, ¬ e.Folds) := by
  have hquestion (augmented : Option String) :
      (conversations cfg start vars).step s₀ (.question text augmented) =
        some (s₀.question cfg text augmented) := by
    simp [conversations, State.step, State.backgroundStep, State.idleStep, hidle]
  obtain ⟨_, h₁⟩ : ∃ t, InTurn cfg s₀ text none [] (s₀.question cfg text none) t :=
    InTurn.question s₀ text none
  obtain ⟨_, h₂⟩ : ∃ t, InTurn cfg s₀ text (some content) [] (s₀.question cfg text content) t :=
    InTurn.question s₀ text (some content)
  rw [System.exec_cons, hquestion, Option.bind_some] at hs₁
  obtain ⟨s₂, hs₂, hm⟩ := (Mirrors.question s₀ text content).exec h₁ h₂ hevents hs₁
  obtain ⟨t₁, h₁⟩ := h₁.exec hevents hs₁
  obtain ⟨t₂, h₂⟩ := h₂.exec hevents hs₂
  rw [List.nil_append] at h₁ h₂
  have ht : t₂.progress = t₁.progress := by simpa [h₁.turn, h₂.turn] using hm.turn
  obtain ⟨s₂', hs₂'⟩ := Mirrors.turnStep_finish s₂ ht (h₁.turnStep_finish hs₁')
  have hs₂' := State.step_of_turnStep h₂.turn hs₂'
  refine ⟨s₂, s₂', ?_, hs₂', ?_⟩
  · rw [System.exec_cons, hquestion, Option.bind_some]
    exact hs₂
  · rw [h₁.eq_finish hs₁', h₂.eq_finish hs₂']
    refine ⟨fun h e he hfolds => ?_, fun hnone => ⟨?_, fun m hm huser => ?_, ?_⟩⟩
    · obtain ⟨m, hm, hlost⟩ := h₂.not_mem_finish he hfolds fabricated
      exact hlost (h.calls.2 t₂ h₂.turn m hm)
    · exact Mirrors.finish ht (hm.sameContent h₁ h₂ (h₁.folded_eq_nil hnone))
    · rcases h₂.mem_of_mem_finish hm with hold | hquestion | hrole | hrole
      · exact .inl hold
      · exact .inr (congrArg ChatMessage.content hquestion)
      · exact absurd (huser.symm.trans hrole) (by simp)
      · exact absurd (huser.symm.trans hrole) (by simp)
    · refine ⟨fun t hturn m hm => ?_, fun t hturn m hm => ?_⟩
      · obtain rfl := Option.some.inj (h₁.turn.symm.trans hturn)
        rw [h₁.folded_eq_nil hnone] at hm
        exact absurd hm List.not_mem_nil
      · obtain rfl := Option.some.inj (h₂.turn.symm.trans hturn)
        rw [h₂.folded_eq_nil hnone] at hm
        exact absurd hm List.not_mem_nil

/-- The clinic's agent is asked something, with what was found in the knowledge base or without. -/
private def consultation (augmented : Option String) (events : List Event) : Option State :=
  (@conversations .ascii reception front []).exec (@conversations .ascii reception front []).init
    (.question "Are you open today?" augmented :: events)

private def answer : List Event := [.generate, .token "Yes, until six.", .endOfStream]

private def lookupAnswer : List Event :=
  [.generate, .remote { id := "call_1", name := "check_hours", arguments := .obj [] },
    .result { status := .success }] ++ answer

private theorem answer_isSome : (consultation none answer).isSome := by decide

private def answered : State := (consultation none answer).get answer_isSome

private theorem answered_isSome :
    (@State.step .ascii reception answered (.finish false)).isSome := by decide

/-- A turn with an answer only leaves the same with context. -/
theorem transparent_answer : ∃ s₁' s₂ s₂',
    consultation (some "We are open until six.\n\nCaller's question: Are you open today?") answer =
      some s₂ ∧
    @State.step .ascii reception s₂ (.finish false) = some s₂' ∧
    Transparent "Are you open today?" { runner := .init front [] } answered s₁' s₂ s₂' := by
  have hs₁ := (Option.some_get answer_isSome).symm
  have hs₁' := (Option.some_get answered_isSome).symm
  have hevents : ∀ e ∈ answer, ¬ e.Finishes := by simp [answer, Event.Finishes]
  obtain ⟨s₂, s₂', hs₂, hs₂', h⟩ := @transparent_iff { runner := .init front [] } _ _ _
    "We are open until six.\n\nCaller's question: Are you open today?" _ .ascii reception front []
    rfl answer hevents hs₁ hs₁'
  exact ⟨_, s₂, s₂', hs₂, hs₂', h.2 (by simp [answer, Event.Folds])⟩

private theorem lookupAnswer_isSome : (consultation none lookupAnswer).isSome := by decide

private theorem lookupAnswered_isSome : (@State.step .ascii reception
    ((consultation none lookupAnswer).get lookupAnswer_isSome) (.finish false)).isSome := by
  decide

/-- With context, a call and its result are not in the history. -/
theorem not_transparent : ¬ ∀ cfg start vars s₀ text content events fabricated s₁ s₁',
    (@conversations .ascii cfg start vars).Reachable s₀ → s₀.turn = none →
      (∀ e ∈ events, ¬ e.Finishes) →
      (@conversations .ascii cfg start vars).exec s₀ (.question text none :: events) = some s₁ →
      (@conversations .ascii cfg start vars).step s₁ (.finish fabricated) = some s₁' →
      ∃ s₂ s₂',
        (@conversations .ascii cfg start vars).exec s₀ (.question text (some content) :: events) =
          some s₂ ∧
        (@conversations .ascii cfg start vars).step s₂ (.finish fabricated) = some s₂' ∧
        Transparent text s₀ s₁ s₁' s₂ s₂' := by
  intro h
  obtain ⟨s₂, s₂', hs₂, hs₂', htransparent⟩ := h reception front [] _ "Are you open today?"
    "We are open until six." lookupAnswer false _ _ .init rfl
    (by simp [lookupAnswer, answer, Event.Finishes]) (Option.some_get lookupAnswer_isSome).symm
    (Option.some_get lookupAnswered_isSome).symm
  have hlength := htransparent.same.length_eq
  have hshort : ((consultation (some "We are open until six.") lookupAnswer).bind fun s =>
      @State.step .ascii reception s (.finish false)).map (·.history.messages.length) = some 3 := by
    decide
  have hlong : ((@State.step .ascii reception ((consultation none lookupAnswer).get
      lookupAnswer_isSome) (.finish false)).get lookupAnswered_isSome).history.messages.length =
      5 := by
    decide
  have hrun : consultation (some "We are open until six.") lookupAnswer = some s₂ := hs₂
  have hfinish : @State.step .ascii reception s₂ (.finish false) = some s₂' := hs₂'
  rw [hrun, Option.bind_some, hfinish, Option.map_some, Option.some.injEq] at hshort
  exact absurd (hlong.symm.trans (hlength.trans hshort)) (by simp)

end Yuviz.Conversation.Messages
