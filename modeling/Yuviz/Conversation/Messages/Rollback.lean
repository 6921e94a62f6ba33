import Mathlib
import Yuviz.Conversation.Messages.Turn

/-!
# What a turn leaves

The question a turn begins with is taken back at the end, if there is no reply to
it: the turn was interrupted, or the model failed. It is taken back from the end
of the history, though, where it is not any more once a call and its result have
been appended. And a reply that was begun before the model failed, or the
apology for it, counts as one. A turn leaves no trace exactly if neither
happened (`restored_iff`).
-/

namespace Yuviz.Conversation.Messages

open Python

variable [Runtime] {cfg : Settings} {s₀ s s' : State} {t t' : Turn} {e : Event} {done : List Event}
  {text : String} {augmented : Option String} {l l' : List Message} {m prompt : Message} {maxHistory : ℕ}

/-- The history is as it was, but for the prompt at its head. -/
def Restored (before after : List Message) : Prop :=
  after = before ∨ ∃ prompt : Message, prompt.role = .system ∧ after = replacePrompt prompt before

/-- What is left of a turn, but for the prompt, is nothing, or the question followed by calls each
    with its result. -/
def Recorded (before after : List Message) : Prop :=
  ∃ prompt user pairs, prompt.role = .system ∧ user.role = .user ∧ Paired pairs ∧
    (∀ m ∈ pairs, ¬ m.IsPlain) ∧ (after = replacePrompt prompt before ∨
      pairs ≠ [] ∧ after = replacePrompt prompt before ++ user :: pairs)

/-- The event ends a turn. -/
def Event.Finishes : Event → Prop
  | .finish _ => True
  | _ => False

omit [Runtime] in
/-- No message of a history that is restored is new, but for the prompt. -/
theorem Restored.mem {before after : List Message} (h : Restored before after) (hm : m ∈ after)
    (hrole : m.role ≠ .system) : m ∈ before := by
  rcases h with rfl | ⟨prompt, hprompt, rfl⟩
  · exact hm
  · rw [replacePrompt] at hm
    split_ifs at hm
    · rcases List.mem_cons.1 hm with rfl | hm
      · exact absurd hprompt hrole
      · exact List.mem_of_mem_tail hm
    · rcases List.mem_cons.1 hm with rfl | hm
      · exact absurd hprompt hrole
      · exact hm

omit [Runtime] in
theorem popUser_concat (hm : m.role = .user) : popUser (l ++ [m]) = l := by
  simp [popUser, hm]

omit [Runtime] in
theorem popUser_eq_self (hm : m ∈ l.getLast?) (hrole : m.role ≠ .user) : popUser l = l := by
  rw [popUser, if_neg]
  rw [Option.mem_def.1 hm]
  simpa using hrole

omit [Runtime] in
theorem last_append_cons (hm : m ∈ l'.getLast?) : m ∈ (l ++ prompt :: l').getLast? := by
  rw [List.getLast?_append_of_ne_nil _ (List.cons_ne_nil _ _), List.getLast?_cons,
    Option.mem_def.1 hm]
  rfl

/-! ### The run of a turn -/

/-- A state in a turn that began in the state `s₀`, after the events `done`. -/
structure InTurn (cfg : Settings) (s₀ : State) (text : String) (augmented : Option String)
    (done : List Event) (s : State) (t : Turn) : Prop where
  turn : s.turn = some t
  isRecovery : t.isRecovery = false
  task : s.summarizer.task = none
  copy : t.copy.isSome = augmented.isSome
  /-- The question is in the history, and after it what was appended there. -/
  history : ∃ prompt user : Message, prompt.role = .system ∧
    user.toChatMessage = userMessage text ∧ s₀.history.next ≤ user.ref ∧
    s.history.messages = replacePrompt prompt s₀.history.messages ++
      user :: if augmented.isSome then [] else t.folded
  next : s₀.history.next ≤ s.history.next
  paired : Paired t.folded ∧ ∀ m ∈ t.folded, ¬ m.IsPlain ∧ s₀.history.next ≤ m.ref
  folded : t.folded = [] ∧ (∀ e ∈ done, ¬ e.Folds) ∨
    (∃ e ∈ done, e.Folds) ∧ ∃ r ∈ t.folded.getLast?, r.role = .tool
  cancelled : t.cancelled = true ↔ Event.cancel ∈ done
  collected : t.cancelled = false → (t.collected = [] ↔ ∀ e ∈ done, ¬ e.Speaks cfg)

omit [Runtime] in
theorem swapPrompt_replacePrompt {new : Message} (hprompt : prompt.role = .system) :
    swapPrompt new (replacePrompt prompt l ++ l') = replacePrompt new l ++ l' := by
  have hhead (rest : List Message) : swapPrompt new (prompt :: rest ++ l') = new :: rest ++ l' := by
    simp [swapPrompt, replacePrompt, startsWithSystem, hprompt]
  rw [replacePrompt, replacePrompt]
  split_ifs
  · exact hhead _
  · exact hhead _

namespace InTurn

theorem question (s₀ : State) (text : String) (augmented : Option String) :
    ∃ t, InTurn cfg s₀ text augmented [] (s₀.question cfg text augmented) t := by
  have htask := s₀.summarizer.interruptForLiveTurn_task
  have hhistory : ∃ prompt user : Message, prompt.role = .system ∧
      user.toChatMessage = userMessage text ∧ s₀.history.next ≤ user.ref ∧
      ((s₀.history.refresh (s₀.prompt cfg)).extend [userMessage text]).messages =
        replacePrompt prompt s₀.history.messages ++ [user] :=
    ⟨_, _, rfl, rfl, Nat.le_succ _, rfl⟩
  rcases augmented with _ | content
  · refine ⟨{}, rfl, rfl, htask, rfl, hhistory, ?_, ⟨.nil, List.forall_mem_nil _⟩,
      .inl ⟨rfl, List.forall_mem_nil _⟩, by simp, by simp⟩
    exact Nat.le_add_right _ 2
  · refine ⟨_, rfl, rfl, htask, rfl, hhistory, ?_, ⟨.nil, List.forall_mem_nil _⟩,
      .inl ⟨rfl, List.forall_mem_nil _⟩, by simp, by simp⟩
    exact Nat.le_add_right _ 3

omit [Runtime] in
theorem collected_concat (h : InTurn cfg s₀ text augmented done s t)
    {collected : List (String × Bool)} (hrecords : State.Records cfg t e collected)
    (hcancelled : t.cancelled = false) :
    collected = [] ↔ ∀ e' ∈ done ++ [e], ¬ e'.Speaks cfg := by
  rcases hrecords hcancelled with ⟨hspeaks, hne⟩ | ⟨hspeaks, rfl⟩
  · simp [hne, hspeaks]
  · rw [h.collected hcancelled]
    simp [hspeaks, or_imp, forall_and]

omit [Runtime] in
theorem cancelled_concat (h : InTurn cfg s₀ text augmented done s t) (he : e ≠ .cancel) :
    t.cancelled = true ↔ Event.cancel ∈ done ++ [e] := by
  rw [h.cancelled, List.mem_append, List.mem_singleton]
  exact (or_iff_left he.symm).symm

omit [Runtime] in
theorem folded_concat (h : InTurn cfg s₀ text augmented done s t) (hfolds : ¬ e.Folds) :
    t.folded = [] ∧ (∀ e' ∈ done ++ [e], ¬ e'.Folds) ∨
      (∃ e' ∈ done ++ [e], e'.Folds) ∧ ∃ r ∈ t.folded.getLast?, r.role = .tool := by
  simpa [hfolds, or_imp, forall_and, or_and_right, exists_or] using h.folded

omit [Runtime] in
/-- A step that appends nothing to the messages. -/
theorem frame (h : InTurn cfg s₀ text augmented done s t) (hturn : s'.turn = some t')
    (hrecovery : t'.isRecovery = t.isRecovery) (hcopy : t'.copy = t.copy)
    (hfolded : t'.folded = t.folded) (htask : s'.summarizer.task = none)
    (hhistory : s'.history = s.history) (hfolds : ¬ e.Folds)
    (hcancelled : t'.cancelled = true ↔ Event.cancel ∈ done ++ [e])
    (hcollected : t'.cancelled = false →
      (t'.collected = [] ↔ ∀ e' ∈ done ++ [e], ¬ e'.Speaks cfg)) :
    InTurn cfg s₀ text augmented (done ++ [e]) s' t' := by
  refine ⟨hturn, hrecovery.trans h.isRecovery, htask, hcopy ▸ h.copy, ?_, hhistory ▸ h.next,
    hfolded ▸ h.paired, ?_, hcancelled, hcollected⟩
  · rw [hhistory, hfolded]
    exact h.history
  · rw [hfolded]
    exact h.folded_concat hfolds

omit [Runtime] in
/-- A call and its result are appended, to the copy if there is one. -/
theorem fold (h : InTurn cfg s₀ text augmented done s t) (he : e.Folds) {stage : Stage}
    {collected : List (String × Bool)} (call : ToolCall) (result : ToolResult)
    (hrecords : State.Records cfg t e collected) :
    ∃ t', InTurn cfg s₀ text augmented (done ++ [e])
      (s.fold cfg { t with stage := stage, collected := collected } call result) t' := by
  have hcancel : e ≠ .cancel := by
    rintro rfl
    exact he
  obtain ⟨prompt, user, hprompt, huser, hnext, hhistory⟩ := h.history
  refine ⟨_, rfl, h.isRecovery, h.task, ?_, ⟨prompt, user, hprompt, huser, hnext, ?_⟩, ?_,
    ⟨h.paired.1.append (paired_foldToolResult _ _ _), ?_⟩, .inr ?_, h.cancelled_concat hcancel,
    h.collected_concat hrecords⟩
  · rw [Option.isSome_map]
    exact h.copy
  · rw [State.fold]
    dsimp only
    rw [h.copy]
    split_ifs with haugmented
    · simpa [haugmented] using hhistory
    · rw [History.messages_extend, hhistory, if_neg haugmented]
      simp
  · rw [State.fold]
    dsimp only
    split_ifs
    · exact h.next.trans (Nat.le_add_right _ _)
    · exact h.next.trans (Nat.le_add_right _ _)
  · intro m hm
    rcases List.mem_append.1 hm with hm | hm
    · exact h.paired.2 m hm
    · have hcall : m.toChatMessage ∈ foldToolResult cfg.dumps call result := mem_of_mem_allocate hm
      refine ⟨?_, h.next.trans (ref_of_mem_allocate hm).1⟩
      rintro ⟨hrole, hcalls⟩
      rcases List.mem_cons.1 hcall with heq | hcall
      · simp [heq] at hcalls
      · simp [List.mem_singleton.1 hcall] at hrole
  · exact ⟨⟨e, by simp, he⟩, by simp [foldToolResult, allocate]⟩

/-- A transition swaps the prompt. -/
theorem transition (h : InTurn cfg s₀ text augmented done s t) {call : ToolCall} {edge : Config.Edge}
    (hs : s.transition cfg t call edge = some s') :
    ∃ t', InTurn cfg s₀ text augmented (done ++ [.transition call edge]) s' t' := by
  obtain ⟨runner, -, rfl⟩ := Option.map_eq_some_iff.1 hs
  obtain ⟨prompt, user, hprompt, huser, hnext, hhistory⟩ := h.history
  refine ⟨_, rfl, h.isRecovery, ?_, ?_,
    ⟨{ State.prompt cfg { s with runner := runner } with
      ref := (s.history.skip (if t.copy.isSome then 1 else 0)).next },
      user, rfl, huser, hnext, ?_⟩, ?_, h.paired, ?_,
    h.cancelled_concat nofun, h.collected_concat fun _ => .inr ⟨id, rfl⟩⟩
  · rw [ContextSummarizer.maybeSummarize_task]
    exact h.task
  · rw [Option.isSome_map]
    exact h.copy
  · exact (congrArg _ hhistory).trans (swapPrompt_replacePrompt hprompt)
  · exact (h.next.trans (Nat.le_add_right _ _)).trans (Nat.le_succ _)
  · exact h.folded_concat id

theorem turnStep (h : InTurn cfg s₀ text augmented done s t) (he : ¬ e.Finishes)
    (hs : s.turnStep cfg t e = some s') :
    ∃ t', InTurn cfg s₀ text augmented (done ++ [e]) s' t' := by
  rcases State.turnStep_cases hs with ⟨rfl, rfl⟩ | ⟨hfolds, _, _, _, _, _, hrecords, rfl⟩ |
    ⟨_, _, rfl, htransition⟩ | ⟨hfolds, _, _, call, result, hrecords, rfl⟩ | ⟨_, rfl, -, -⟩ |
    ⟨-, hrecovery, -⟩
  · exact ⟨_, h.frame rfl rfl rfl rfl h.task rfl id (h.cancelled_concat (by simp))
      (h.collected_concat fun _ => .inr ⟨id, rfl⟩)⟩
  · refine ⟨_, h.frame rfl rfl rfl rfl h.task rfl hfolds (h.cancelled_concat ?_)
      (h.collected_concat hrecords)⟩
    rintro rfl
    simp [State.turnStep] at hs
  · exact h.transition htransition
  · exact h.fold hfolds call result hrecords
  · exact absurd trivial he
  · exact absurd (h.isRecovery.symm.trans hrecovery) (by simp)

theorem step (h : InTurn cfg s₀ text augmented done s t) (he : ¬ e.Finishes)
    (hs : s.step cfg e = some s') : ∃ t', InTurn cfg s₀ text augmented (done ++ [e]) s' t' := by
  rcases State.step_cases hs with hs | ⟨t', ht', hs⟩ | ⟨hturn, -⟩
  · have htask := h.task
    rcases State.backgroundStep_cases hs with ⟨rfl, rfl⟩ | ⟨rfl, rfl⟩ | ⟨values, rfl, rfl⟩ |
      ⟨hscheduled, -⟩ | ⟨dropIds, content, hrunning, -⟩ | ⟨hsome, -⟩
    · refine ⟨{ t with cancelled := true }, h.frame ?_ rfl rfl rfl ?_ rfl id ?_ nofun⟩
      · simp [h.turn]
      · exact ContextSummarizer.interruptForLiveTurn_task _
      · simp
    · exact ⟨t, h.frame h.turn rfl rfl rfl htask rfl id (h.cancelled_concat nofun)
        (h.collected_concat fun _ => .inr ⟨id, rfl⟩)⟩
    · exact ⟨t, h.frame h.turn rfl rfl rfl htask rfl id (h.cancelled_concat nofun)
        (h.collected_concat fun _ => .inr ⟨id, rfl⟩)⟩
    · simp [htask] at hscheduled
    · simp [htask] at hrunning
    · simp [htask] at hsome
  · obtain rfl := Option.some.inj (h.turn.symm.trans ht')
    exact h.turnStep he hs
  · simp [h.turn] at hturn

theorem exec (h : InTurn cfg s₀ text augmented done s t) {start : Config.Node}
    {vars : Dict String Json} {events : List Event} (he : ∀ e ∈ events, ¬ e.Finishes)
    (hs : (conversations cfg start vars).exec s events = some s') :
    ∃ t', InTurn cfg s₀ text augmented (done ++ events) s' t' := by
  induction events generalizing done s t with
  | nil =>
    obtain rfl := Option.some.inj hs
    exact ⟨t, by simpa using h⟩
  | cons e events ih =>
    rw [List.forall_mem_cons] at he
    obtain ⟨s₁, hs₁, hs⟩ := Option.bind_eq_some_iff.1 hs
    obtain ⟨t₁, h₁⟩ := h.step he.1 hs₁
    simpa using ih h₁ he.2 hs

/-! ### The end of a turn -/

theorem turnStep_finish (h : InTurn cfg s₀ text augmented done s t) {fabricated : Bool}
    (hs : s.step cfg (.finish fabricated) = some s') :
    s.turnStep cfg t (.finish fabricated) = some s' := by
  simpa [State.step, State.backgroundStep, h.turn] using hs

theorem eq_finish (h : InTurn cfg s₀ text augmented done s t) {fabricated : Bool}
    (hs : s.step cfg (.finish fabricated) = some s') : s' = s.finish cfg t fabricated := by
  have hstep := h.turnStep_finish hs
  rw [State.turnStep] at hstep
  split at hstep
  · exact (Option.some.inj (Option.ite_none_left_eq_some.1 hstep).2).symm
  · exact (Option.some.inj (Option.ite_none_left_eq_some.1 hstep).2).symm
  · simp at hstep

omit [Runtime] in
theorem messages_finish_of_no_reply (h : t.collected = [] ∨ t.cancelled = true) {fabricated : Bool} :
    (s.finish cfg t fabricated).history.messages = popUser s.history.messages := by
  rw [State.finish, if_neg]
  · rfl
  · rintro ⟨hcollected, hcancelled⟩
    exact h.elim hcollected hcancelled

omit [Runtime] in
/-- The last messages are not trimmed. -/
theorem mem_trim_append (hl' : l'.length ≤ 2 * maxHistory) (hm : m ∈ l') :
    m ∈ trim maxHistory (l ++ l') := by
  have hdrop : m ∈ (l ++ l').drop ((l ++ l').length - 2 * maxHistory) := by
    rw [List.drop_append, List.length_append,
      show l.length + l'.length - 2 * maxHistory - l.length = 0 by omega]
    exact List.mem_append_right _ hm
  rw [trim]
  split_ifs
  · exact List.mem_append_right _ hdrop
  · exact List.mem_append_right _ hm
  · exact List.mem_append_right _ hdrop
  · exact List.mem_append_right _ hm

omit [Runtime] in
theorem length_reply_le (t : Turn) (fabricated : Bool) :
    (State.reply cfg t fabricated).length ≤ 2 * cfg.maxHistory := by
  have := cfg.maxHistory_pos
  rcases fabricated <;> simp [State.reply] <;> omega

omit [Runtime] in
/-- A question without a reply is taken back, if nothing was appended to the history after it. -/
theorem restored_finish_iff (h : InTurn cfg s₀ text augmented done s t) {fabricated : Bool}
    (hreply : t.collected = [] ∨ t.cancelled = true) :
    Restored s₀.history.messages (s.finish cfg t fabricated).history.messages ↔
      (augmented.isSome ∨ ∀ e ∈ done, ¬ e.Folds) := by
  obtain ⟨prompt, user, hprompt, huser, hnew, hhistory⟩ := h.history
  replace huser : user.role = .user := congrArg ChatMessage.role huser
  rw [messages_finish_of_no_reply hreply, hhistory]
  by_cases haugmented : augmented.isSome
  · rw [if_pos haugmented, popUser_concat huser]
    exact iff_of_true (.inr ⟨prompt, hprompt, rfl⟩) (.inl haugmented)
  · rw [if_neg haugmented]
    rcases h.folded with ⟨hnil, hnone⟩ | ⟨⟨e, he, hfolds⟩, r, hr, hrole⟩
    · rw [hnil, popUser_concat huser]
      exact iff_of_true (.inr ⟨prompt, hprompt, rfl⟩) (.inr hnone)
    · -- The question stays, as it is not the last message any more.
      rw [popUser_eq_self (last_append_cons hr) (by rw [hrole]; decide)]
      refine iff_of_false (fun hrestored => ?_) ?_
      · have hmem := hrestored.mem (List.mem_append_right _ List.mem_cons_self)
          (by rw [huser]; decide)
        exact (s₀.history.lt_next user hmem).not_ge hnew
      · rintro (hsome | hnone)
        · exact haugmented hsome
        · exact hnone e he hfolds

omit [Runtime] in
/-- What a question without a reply leaves is calls and their results after it. -/
theorem recorded_finish (h : InTurn cfg s₀ text augmented done s t) {fabricated : Bool}
    (hreply : t.collected = [] ∨ t.cancelled = true) :
    Recorded s₀.history.messages (s.finish cfg t fabricated).history.messages := by
  obtain ⟨prompt, user, hprompt, huser, -, hhistory⟩ := h.history
  replace huser : user.role = .user := congrArg ChatMessage.role huser
  refine ⟨prompt, user, t.folded, hprompt, huser, h.paired.1, fun m hm => (h.paired.2 m hm).1, ?_⟩
  rw [messages_finish_of_no_reply hreply, hhistory]
  split_ifs
  · exact .inl (popUser_concat huser)
  · rcases h.folded with ⟨hnil, -⟩ | ⟨-, r, hr, hrole⟩
    · rw [hnil]
      exact .inl (popUser_concat huser)
    · rw [popUser_eq_self (last_append_cons hr) (by rw [hrole]; decide)]
      exact .inr ⟨List.ne_nil_of_mem (List.mem_of_getLast? hr), rfl⟩

omit [Runtime] in
/-- A reply stays. -/
theorem not_restored_finish (h : InTurn cfg s₀ text augmented done s t) {fabricated : Bool}
    (hreply : t.collected ≠ [] ∧ t.cancelled = false) :
    ¬ Restored s₀.history.messages (s.finish cfg t fabricated).history.messages := by
  intro hrestored
  let reply : Message :=
    { assistantMessage (assistantText cfg t.collected) with ref := s.history.next }
  have hmem : reply ∈ (s.finish cfg t fabricated).history.messages := by
    rw [State.finish]
    dsimp only
    rw [if_pos ⟨hreply.1, by simp [hreply.2]⟩]
    refine mem_trim_append ?_ (List.mem_cons_self)
    rw [length_allocate]
    exact length_reply_le t fabricated
  exact (s₀.history.lt_next reply (hrestored.mem hmem nofun)).not_ge h.next

end InTurn

/-- A turn leaves no trace but a refreshed prompt, above all one that is interrupted or fails,
    exactly if no call is appended to the history itself, and nothing is recorded of a reply or
    the turn is interrupted. The calls of a turn without a reply stay with its question. -/
theorem restored_iff (cfg : Settings) (start : Config.Node) (vars : Dict String Json)
    (hidle : s₀.turn = none) {events : List Event} {fabricated : Bool}
    (hevents : ∀ e ∈ events, ¬ e.Finishes)
    (hs : (conversations cfg start vars).exec s₀
      (.question text augmented :: events ++ [.finish fabricated]) = some s) :
    (Restored s₀.history.messages s.history.messages ↔
      (augmented.isSome ∨ ∀ e ∈ events, ¬ e.Folds) ∧
        (.cancel ∈ events ∨ ∀ e ∈ events, ¬ e.Speaks cfg)) ∧
      ((.cancel ∈ events ∨ ∀ e ∈ events, ¬ e.Speaks cfg) →
        Recorded s₀.history.messages s.history.messages) := by
  rw [System.exec_append] at hs
  obtain ⟨u, hu, hs⟩ := Option.bind_eq_some_iff.1 hs
  rw [System.exec_cons] at hu
  obtain ⟨s₁, hs₁, hu⟩ := Option.bind_eq_some_iff.1 hu
  obtain rfl : s₀.question cfg text augmented = s₁ := by
    simpa [conversations, State.step, State.backgroundStep, State.idleStep, hidle] using hs₁
  obtain ⟨t₀, h₀⟩ := InTurn.question s₀ text augmented
  obtain ⟨t, h⟩ := h₀.exec hevents hu
  rw [List.nil_append] at h
  obtain rfl : s = u.finish cfg t fabricated := by
    obtain ⟨s', hs', hs⟩ := Option.bind_eq_some_iff.1 hs
    exact Option.some.inj hs ▸ h.eq_finish hs'
  by_cases hreply : t.collected = [] ∨ t.cancelled = true
  · have hquiet : .cancel ∈ events ∨ ∀ e ∈ events, ¬ e.Speaks cfg := by
      by_cases hcancelled : t.cancelled = true
      · exact .inl (h.cancelled.1 hcancelled)
      · exact .inr ((h.collected (by simpa using hcancelled)).1 (hreply.resolve_right hcancelled))
    rw [and_iff_left hquiet]
    exact ⟨h.restored_finish_iff hreply, fun _ => h.recorded_finish hreply⟩
  · obtain ⟨hcollected, hcancelled⟩ := not_or.1 hreply
    have hcancelled : t.cancelled = false := by simpa using hcancelled
    have hspeaks : ¬ (.cancel ∈ events ∨ ∀ e ∈ events, ¬ e.Speaks cfg) := by
      rintro (hcancel | hquiet)
      · exact absurd (hcancelled.symm.trans (h.cancelled.2 hcancel)) (by simp)
      · exact hcollected ((h.collected hcancelled).2 hquiet)
    exact ⟨iff_of_false (h.not_restored_finish ⟨hcollected, hcancelled⟩) fun hquiet =>
      hspeaks hquiet.2, fun hquiet => absurd hquiet hspeaks⟩

/-- The only node of an agent. -/
def front : Config.Node where
  id := "front"
  type := "start"
  name := "Front"
  prompt := "You answer the phone of a clinic."

def reception : Settings where
  graph := ⟨[("front", front)], "front"⟩
  suffix := ""
  dumps _ := "\x7b\"status\": \"success\"\x7d"
  isWord c := c.isAlphanum

private def receptionRun (events : List Event) : Option State :=
  (@conversations .ascii reception front []).exec (@conversations .ascii reception front []).init
    (.question "Are you open today?" none :: events ++ [.finish false])

/-- The caller interrupts the reply. -/
private def interrupted : List Event :=
  [.generate, .token "We are ", .cancel, .token "open"]

/-- The model fails in the middle of the reply. -/
private def failing : List Event := [.generate, .token "We are ", .raise]

omit [Runtime] in
private theorem interrupted_isSome : (receptionRun interrupted).isSome := by decide

omit [Runtime] in
private theorem failing_isSome : (receptionRun failing).isSome := by decide

omit [Runtime] in
/-- A reply that is interrupted is dropped, and the question with it. -/
theorem restored_interrupted :
    ∃ s, receptionRun interrupted = some s ∧ Restored [] s.history.messages := by
  have hrun := (Option.some_get interrupted_isSome).symm
  have hevents : ∀ e ∈ interrupted, ¬ e.Finishes := by simp [interrupted, Event.Finishes]
  refine ⟨_, hrun, ?_⟩
  refine (@restored_iff .ascii { runner := .init front [] } _ _ none reception front [] rfl _ _
    hevents hrun).1.2 ⟨.inr ?_, .inl ?_⟩
  · simp [interrupted, Event.Folds]
  · simp [interrupted]

omit [Runtime] in
/-- A reply the model has begun stays when the model fails, and so does the question. -/
theorem not_restored : ¬ ∀ cfg start vars s₀ text augmented events fabricated s,
    (@conversations .ascii cfg start vars).Reachable s₀ → s₀.turn = none →
      (∀ e ∈ events, ¬ e.Finishes) →
      (@conversations .ascii cfg start vars).exec s₀
        (.question text augmented :: events ++ [.finish fabricated]) = some s →
      .cancel ∈ events ∨ .raise ∈ events → Restored s₀.history.messages s.history.messages := by
  intro h
  have hrestored := h reception front [] _ _ none failing false _ .init rfl
    (by simp [failing, Event.Finishes]) (Option.some_get failing_isSome).symm
    (.inr (by simp [failing]))
  obtain ⟨m, hm, hrole⟩ : ∃ m ∈ ((receptionRun failing).get failing_isSome).history.messages,
      m.role ≠ .system := by decide
  exact List.not_mem_nil (hrestored.mem hm hrole)

end Yuviz.Conversation.Messages
