import Mathlib
import Yuviz.Conversation.Messages.Turn

/-!
# Well-formed messages

What the model is given begins with the prompt of the active node, and has no
call without its result and no result without its call (`WellFormed`), if two
things do not happen. The history may be trimmed between a call and its result,
which the summarizer takes care not to do (`not_reachable_wellFormed`). And a
transfer may be cancelled in the middle of a turn, which takes the call back to
the node before without a word to the model. Nothing else goes wrong
(`reachable_wellFormed`).

A summary that is being made stands for messages at the head of the history,
after the prompt, some of which may have been trimmed since (`Splits`).
-/

namespace Yuviz.Conversation.Messages

open Python
open Yuviz.Conversation.Workflow (Runner)

variable [Runtime] {cfg : Settings} {s s' : State} {t : Turn} {e : Event} {node : Config.Node}
  {l l' : List Message} {m prompt : Message} {h : History} {ms : List ChatMessage}
  {dropIds : List ℕ} {maxHistory next : ℕ}

/-- A prompt of a node, with the values its variables had at some time. -/
def IsPrompt (cfg : Settings) (node : Config.Node) (m : Message) : Prop :=
  m.role = .system ∧ ∃ r : Runner, r.node = node ∧ m.content = r.systemPrompt cfg.graph cfg.suffix

/-- What a provider, and the workflow, rely on in what the model is given. -/
structure WellFormed (cfg : Settings) (g : Generation) : Prop where
  prompt : ∃ head ∈ g.messages.head?, IsPrompt cfg g.node head
  attached : Attached g.messages
  complete : Complete g.messages

/-- When `n` messages are appended to the history, which begins with the prompt, it is not
    trimmed between a call and its result. -/
def CutsClean (maxHistory : ℕ) (l : List Message) (n : ℕ) : Prop :=
  2 * maxHistory + 1 < l.length + n → ¬ startsWithResult (l.drop (l.length + n - 2 * maxHistory))

/-- The end of a turn does not trim between a call and its result, and a transfer that is
    cancelled in the middle of a turn does not take the call to another node. -/
def Safe (cfg : Settings) (s : State) : Event → Prop
  | .finish fabricated => ∀ t ∈ s.turn, t.collected ≠ [] → t.cancelled = false →
      CutsClean cfg.maxHistory s.history.messages (State.reply cfg t fabricated).length
  | .recovered => ∀ t ∈ s.turn,
      CutsClean cfg.maxHistory s.history.messages (State.apology cfg t).length
  | .transferCancelled => s.turn.isSome → s.runner.abandonTransfer.node = s.runner.node
  | _ => True

/-! ### The head of a list -/

omit [Runtime] in
theorem startsWithSystem_append (hl : startsWithSystem l) : startsWithSystem (l ++ l') := by
  rcases l with _ | ⟨m, l⟩
  · simp [startsWithSystem] at hl
  · exact hl

omit [Runtime] in
/-- The system message is not trimmed. -/
theorem startsWithSystem_trim (hl : startsWithSystem l) : startsWithSystem (trim maxHistory l) := by
  rw [trim, if_pos hl]
  rcases l with _ | ⟨m, l⟩
  · simp [startsWithSystem] at hl
  · split_ifs
    · exact hl
    · exact hl

omit [Runtime] in
theorem startsWithSystem_popUser (hl : startsWithSystem l) : startsWithSystem (popUser l) := by
  rcases l with _ | ⟨m, _ | ⟨m', l⟩⟩
  · exact hl
  · have hm : m.role = .system := by simpa [startsWithSystem] using hl
    simpa [popUser, hm] using hl
  · rw [popUser]
    split_ifs
    · exact hl
    · exact hl

omit [Runtime] in
theorem not_startsWithResult_append (hl : ¬ startsWithResult l) (hl' : ¬ startsWithResult l') :
    ¬ startsWithResult (l ++ l') := by
  rcases l with _ | ⟨m, l⟩
  · exact hl'
  · exact hl

/-- The list begins with a prompt of the node. -/
def Headed (cfg : Settings) (node : Config.Node) (l : List Message) : Prop :=
  ∃ head rest, l = head :: rest ∧ IsPrompt cfg node head

theorem Headed.append (hl : Headed cfg node l) (l' : List Message) : Headed cfg node (l ++ l') := by
  obtain ⟨head, rest, rfl, hhead⟩ := hl
  exact ⟨head, rest ++ l', rfl, hhead⟩

/-- The prompt at the head is a system message. -/
theorem Headed.startsWithSystem (hl : Headed cfg node l) : startsWithSystem l := by
  obtain ⟨head, rest, rfl, hrole, -⟩ := hl
  simp [Messages.startsWithSystem, hrole]

/-- The prompt of a node is put at the head, -/
theorem headed_replacePrompt (hp : IsPrompt cfg node prompt) :
    Headed cfg node (replacePrompt prompt l) := by
  rw [replacePrompt]
  split_ifs
  · exact ⟨prompt, _, rfl, hp⟩
  · exact ⟨prompt, _, rfl, hp⟩

/-- in place of the one that is there. -/
theorem headed_swapPrompt {node' : Config.Node} (hl : Headed cfg node' l) (hp : IsPrompt cfg node prompt) :
    Headed cfg node (swapPrompt prompt l) := by
  obtain ⟨head, rest, rfl, -⟩ := hl
  exact headed_replacePrompt hp

theorem headed_splice {summary : Message} (hl : Headed cfg node l) :
    Headed cfg node (splice dropIds summary l) := by
  obtain ⟨head, rest, rfl, hhead⟩ := hl
  rw [splice]
  split_ifs
  · exact ⟨head, _, rfl, hhead⟩
  · exact ⟨head, _, rfl, hhead⟩

omit [Runtime] in
theorem tail_replacePrompt (hl : startsWithSystem l) : (replacePrompt prompt l).tail = l.tail := by
  rw [replacePrompt, if_pos hl]
  rfl

omit [Runtime] in
theorem tail_swapPrompt (hl : startsWithSystem l) : (swapPrompt prompt l).tail = l.tail := by
  rcases l with _ | ⟨m, l⟩
  · rfl
  · exact tail_replacePrompt hl

/-! ### Summaries -/

/-- The messages a summary was made of, as far as they are still there, come first. -/
structure Splits (dropIds : List ℕ) (next : ℕ) (l : List Message) : Prop where
  lt_next : ∀ id ∈ dropIds, id < next
  split : ∃ old new, l = old ++ new ∧ (∀ m ∈ old, m.ref ∈ dropIds) ∧
    (∀ m ∈ new, m.ref ∉ dropIds) ∧ Paired new

omit [Runtime] in
theorem Splits.mono {next' : ℕ} (hl : Splits dropIds next l) (hle : next ≤ next') :
    Splits dropIds next' l :=
  ⟨fun id hid => (hl.lt_next id hid).trans_le hle, hl.split⟩

omit [Runtime] in
theorem Splits.append (hl : Splits dropIds next l) (hpaired : Paired l')
    (hl' : ∀ m ∈ l', next ≤ m.ref) : Splits dropIds next (l ++ l') := by
  obtain ⟨old, new, rfl, hold, hnew, hp⟩ := hl.split
  refine ⟨hl.lt_next, old, new ++ l', List.append_assoc _ _ _, hold, fun m hm hid => ?_,
    hp.append hpaired⟩
  rcases List.mem_append.1 hm with hm | hm
  · exact hnew m hm hid
  · exact absurd (hl.lt_next _ hid) (not_lt.2 (hl' m hm))

omit [Runtime] in
theorem Splits.drop (hl : Splits dropIds next l) {k : ℕ}
    (hcut : ¬ startsWithResult (l.drop k)) : Splits dropIds next (l.drop k) := by
  obtain ⟨old, new, rfl, hold, hnew, hp⟩ := hl.split
  refine ⟨hl.lt_next, old.drop k, new.drop (k - old.length), List.drop_append,
    fun m hm => hold m (List.mem_of_mem_drop hm), fun m hm => hnew m (List.mem_of_mem_drop hm), ?_⟩
  rcases le_total k old.length with hk | hk
  · rw [Nat.sub_eq_zero_of_le hk]
    exact hp
  · rw [List.drop_append, List.drop_eq_nil_of_le hk, List.nil_append] at hcut
    exact hp.drop_of_not_startsWithResult hcut

omit [Runtime] in
/-- The messages a summary leaves do not begin with a result. -/
theorem not_startsWithResult_drop_summaryCutoff :
    ¬ startsWithResult (l.drop (summaryCutoff l)) := by
  rw [summaryCutoff, ← List.drop_drop]
  generalize l.drop (l.length - summaryKeepLast) = l
  induction l with
  | nil => simp [startsWithResult]
  | cons m l ih =>
    by_cases hm : m.role = .tool
    · simpa [hm] using ih
    · simp [hm, startsWithResult]

omit [Runtime] in
/-- A summary takes the place of the messages it was made of. -/
theorem Splits.splice (hl : Splits dropIds next l.tail) (hpaired : Paired l) {summary : Message}
    (hsummary : summary.IsPlain) : Paired (splice dropIds summary l) := by
  rcases l with _ | ⟨head, rest⟩
  · exact .nil
  · rw [Messages.splice]
    split_ifs with hcond
    · obtain ⟨old, new, heq, hold, hnew, hp⟩ := hl.split
      have hfilter : rest.filter (·.ref ∉ dropIds) = new := by
        rw [show rest = old ++ new from heq, List.filter_append,
          List.filter_eq_nil_iff.2 (by simpa using hold), List.filter_eq_self.2 (by simpa using hnew),
          List.nil_append]
      rw [hfilter]
      have hdrop : new.dropWhile (·.role = .tool) = new := by
        rcases new with _ | ⟨m, new⟩
        · rfl
        · exact List.dropWhile_cons_of_neg (by simpa using hp.head)
      rw [hdrop]
      rcases hpaired with _ | ⟨hhead, -⟩ | ⟨hcall, -⟩
      · exact .plain hhead (.plain hsummary hp)
      · exact absurd (hcond.1.symm.trans hcall) (by decide)
    · exact hpaired

/-! ### The history -/

/-- The history is paired, and a summary that is being made stands for its head. -/
structure Tidy (h : History) (task : Option SummaryTask) : Prop where
  paired : Paired h.messages
  started : task.isSome → startsWithSystem h.messages
  splits : ∀ dropIds, task = some (.running dropIds) → Splits dropIds h.next h.messages.tail

namespace Tidy

variable {task : Option SummaryTask} {p : ChatMessage}

omit [Runtime]

theorem of_none (hpaired : Paired h.messages) : Tidy h none := ⟨hpaired, nofun, nofun⟩

theorem of_scheduled (hpaired : Paired h.messages) (hstarted : startsWithSystem h.messages) :
    Tidy h (some .scheduled) :=
  ⟨hpaired, fun _ => hstarted, nofun⟩

theorem skip (hh : Tidy h task) (n : ℕ) : Tidy (h.skip n) task :=
  ⟨hh.paired, hh.started, fun ids htask => (hh.splits ids htask).mono (Nat.le_add_right _ _)⟩

theorem extend (hh : Tidy h task) (hms : Paired (allocate h.next ms)) : Tidy (h.extend ms) task := by
  refine ⟨hh.paired.append hms, fun htask => startsWithSystem_append (hh.started htask),
    fun ids htask => ?_⟩
  have hne : h.messages ≠ [] := by
    intro hnil
    have := hh.started (htask ▸ rfl)
    simp [startsWithSystem, hnil] at this
  rw [show (h.extend ms).messages = h.messages ++ allocate h.next ms from rfl,
    List.tail_append_of_ne_nil hne]
  exact ((hh.splits ids htask).append hms fun m hm => (ref_of_mem_allocate hm).1).mono
    (Nat.le_add_right _ _)

theorem swapPrompt (hh : Tidy h task) (hp : p.IsPlain) (hsystem : p.role = .system)
    (hstarted : startsWithSystem h.messages) : Tidy (h.swapPrompt p) task := by
  refine ⟨hh.paired.swapPrompt hp, fun htask => ?_, fun ids htask => ?_⟩
  · show startsWithSystem (Messages.swapPrompt _ h.messages)
    rw [Messages.swapPrompt]
    split_ifs
    · exact hstarted
    · rw [replacePrompt, if_pos hstarted]
      simp [startsWithSystem, hsystem]
  · rw [show (h.swapPrompt p).messages.tail = h.messages.tail from tail_swapPrompt hstarted]
    exact (hh.splits ids htask).mono (Nat.le_succ _)

theorem refresh (hh : Tidy h task) (hp : p.IsPlain) (hsystem : p.role = .system) :
    Tidy (h.refresh p) task := by
  refine ⟨hh.paired.replacePrompt hp, fun htask => ?_, fun ids htask => ?_⟩
  · show startsWithSystem (Messages.replacePrompt _ h.messages)
    rw [replacePrompt, if_pos (hh.started htask)]
    simp [startsWithSystem, hsystem]
  · have hstarted := hh.started (htask ▸ rfl)
    rw [show (h.refresh p).messages.tail = h.messages.tail from tail_replacePrompt hstarted]
    exact (hh.splits ids htask).mono (Nat.le_succ _)

theorem trim (hh : Tidy h task) (hstarted : startsWithSystem h.messages)
    (hcut : 2 * maxHistory + 1 < h.messages.length →
      ¬ startsWithResult (h.messages.drop (h.messages.length - 2 * maxHistory))) :
    Tidy (h.trim maxHistory) task := by
  have hstarted' : startsWithSystem (h.trim maxHistory).messages := startsWithSystem_trim hstarted
  rcases hmessages : h.messages with _ | ⟨head, rest⟩
  · simp [startsWithSystem, hmessages] at hstarted
  have hbase : (h.trim maxHistory).messages = if 2 * maxHistory + 1 < h.messages.length then
      head :: h.messages.drop (h.messages.length - 2 * maxHistory) else h.messages := by
    show Messages.trim maxHistory h.messages = _
    rw [Messages.trim, if_pos hstarted, hmessages]
    rfl
  by_cases hlong : 2 * maxHistory + 1 < h.messages.length
  · rw [if_pos hlong] at hbase
    refine ⟨hh.paired.trim (hcut hlong), fun _ => hstarted', fun ids htask => ?_⟩
    -- What is cut off are the oldest messages after the prompt.
    have hsplits := hh.splits ids htask
    have hdrop : h.messages.drop (h.messages.length - 2 * maxHistory) =
        h.messages.tail.drop (h.messages.length - 2 * maxHistory - 1) := by
      rw [List.drop_tail, Nat.sub_add_cancel (by omega)]
    rw [hbase, List.tail_cons, hdrop]
    exact hsplits.drop (hdrop ▸ hcut hlong)
  · rw [if_neg hlong] at hbase
    refine ⟨hbase ▸ hh.paired, fun _ => hstarted', fun ids htask => ?_⟩
    rw [hbase]
    exact hh.splits ids htask

/-- Plain messages are appended, and the history is trimmed. -/
theorem commit (hh : Tidy h task) (hstarted : startsWithSystem h.messages)
    (hms : ∀ m ∈ ms, m.IsPlain) (hcut : CutsClean maxHistory h.messages ms.length) :
    Tidy ((h.extend ms).trim maxHistory) task := by
  refine (hh.extend (paired_allocate hms)).trim (startsWithSystem_append hstarted) fun hlong => ?_
  rw [show (h.extend ms).messages = h.messages ++ allocate h.next ms from rfl,
    List.length_append, length_allocate] at hlong ⊢
  rw [List.drop_append]
  refine not_startsWithResult_append (hcut hlong) fun hresult => ?_
  obtain ⟨m, hm, hrole⟩ : ∃ m ∈ allocate h.next ms, m.role = .tool := by
    rw [startsWithResult, Option.any_eq_true] at hresult
    obtain ⟨m, hm, hrole⟩ := hresult
    exact ⟨m, List.mem_of_mem_drop (List.mem_of_head? hm), by simpa using hrole⟩
  exact (hms _ (mem_of_mem_allocate hm)).1 hrole

/-- A summary is begun. -/
theorem running (hh : Tidy h task) (hstarted : startsWithSystem h.messages)
    (hl : toReplace h.messages = some l) : Tidy h (some (.running (l.map Message.ref))) := by
  refine ⟨hh.paired, fun _ => hstarted, fun ids htask => ?_⟩
  obtain rfl : l.map Message.ref = ids := by simpa using htask
  rw [toReplace] at hl
  split_ifs at hl with hnone
  obtain rfl := Option.some.inj hl
  obtain ⟨hcutoff, hlength, -⟩ : _ ∧ _ ∧ _ := by simpa only [not_or, not_le] using hnone
  have hmem (m : Message) (hm : m ∈ (h.messages.take (summaryCutoff h.messages)).tail) :
      m ∈ h.messages.take (summaryCutoff h.messages) := List.mem_of_mem_tail hm
  have heq : h.messages.tail = (h.messages.take (summaryCutoff h.messages)).tail ++
      h.messages.drop (summaryCutoff h.messages) := by
    rw [← List.tail_append_of_ne_nil, List.take_append_drop]
    exact List.ne_nil_of_length_pos (by rw [List.length_take]; omega)
  refine ⟨fun id hid => ?_, _, _, heq, fun m hm => List.mem_map_of_mem hm, fun m hm hid => ?_,
    hh.paired.drop_of_not_startsWithResult not_startsWithResult_drop_summaryCutoff⟩
  · obtain ⟨m, hm, rfl⟩ := List.mem_map.1 hid
    exact h.lt_next m (List.mem_of_mem_take (hmem m hm))
  · -- A message that is kept is none of those that are replaced.
    have hnodup := h.nodup
    rw [← List.take_append_drop (summaryCutoff h.messages) h.messages, List.map_append] at hnodup
    obtain ⟨m', hm', href⟩ := List.mem_map.1 hid
    exact List.disjoint_of_nodup_append hnodup (List.mem_map_of_mem (hmem m' hm'))
      (href ▸ List.mem_map_of_mem hm)

end Tidy

/-! ### Steps -/

/-- What holds in every state of the runs that are safe. -/
structure Inv (cfg : Settings) (s : State) : Prop where
  tidy : Tidy s.history s.summarizer.task
  headed : ∀ t ∈ s.turn, Headed cfg s.runner.node s.history.messages
  copy : ∀ t ∈ s.turn, ∀ l ∈ t.copy, Paired l ∧ Headed cfg s.runner.node l
  /-- No summary is made in a turn of the caller. -/
  quiet : ∀ t ∈ s.turn, t.isRecovery = false → s.summarizer.task = none
  generations : ∀ g ∈ s.generations, WellFormed cfg g

theorem isPrompt_prompt (s : State) (ref : ℕ) :
    IsPrompt cfg s.runner.node { s.prompt cfg with ref := ref } := by
  refine ⟨?_, s.runner, rfl, ?_⟩
  · simp only [State.prompt, systemMessage]
  · simp only [State.prompt, systemMessage]

omit [Runtime] in
theorem isPlain_systemMessage (content : String) : (systemMessage content).IsPlain :=
  ⟨nofun, rfl⟩

omit [Runtime] in
theorem isPlain_userMessage (content : String) : (userMessage content).IsPlain := ⟨nofun, rfl⟩

omit [Runtime] in
theorem isPlain_assistantMessage (content : String) : (assistantMessage content).IsPlain :=
  ⟨nofun, rfl⟩

omit [Runtime] in
theorem isPlain_reply (fabricated : Bool) : ∀ m ∈ State.reply cfg t fabricated, m.IsPlain := by
  intro m hm
  rcases List.mem_cons.1 hm with rfl | hm
  · exact isPlain_assistantMessage _
  · rcases fabricated
    · exact absurd hm List.not_mem_nil
    · exact List.mem_singleton.1 hm ▸ isPlain_systemMessage _

omit [Runtime] in
theorem isPlain_apology : ∀ m ∈ State.apology cfg t, m.IsPlain := by
  intro m hm
  rw [State.apology] at hm
  split_ifs at hm
  · exact absurd hm List.not_mem_nil
  · exact List.mem_singleton.1 hm ▸ isPlain_assistantMessage _
  · exact absurd hm List.not_mem_nil
  · exact List.mem_singleton.1 hm ▸ isPlain_assistantMessage _

namespace Inv

/-- A step that leaves the messages alone. -/
theorem frame (hi : Inv cfg s) (hhistory : s'.history = s.history)
    (hnode : s'.turn.isSome → s'.runner.node = s.runner.node)
    (hturn : ∀ t' ∈ s'.turn, ∃ t ∈ s.turn, t'.copy = t.copy ∧ t'.isRecovery = t.isRecovery)
    (htask : s'.summarizer.task = s.summarizer.task ∨ s'.summarizer.task = none)
    (hgenerations : ∀ g ∈ s'.generations, WellFormed cfg g) : Inv cfg s' := by
  refine ⟨?_, fun t' ht' => ?_, fun t' ht' l hl => ?_, fun t' ht' hrecovery => ?_, hgenerations⟩
  · rw [hhistory]
    rcases htask with htask | htask
    · exact htask ▸ hi.tidy
    · exact htask ▸ .of_none hi.tidy.paired
  all_goals obtain ⟨t, ht, hcopy, hrecovery'⟩ := hturn t' ht'
  · rw [hhistory, hnode (ht' ▸ rfl)]
    exact hi.headed t ht
  · rw [hnode (ht' ▸ rfl)]
    exact hi.copy t ht l (hcopy ▸ hl)
  · rcases htask with htask | htask
    · exact htask.trans (hi.quiet t ht (hrecovery' ▸ hrecovery))
    · exact htask

theorem generate (hi : Inv cfg s) (ht : s.turn = some t) :
    WellFormed cfg ⟨s.messages t, s.runner.node⟩ := by
  have hmessages : Paired (s.messages t) ∧ Headed cfg s.runner.node (s.messages t) := by
    rcases hcopy : t.copy with _ | l
    · rw [State.messages, hcopy]
      exact ⟨hi.tidy.paired, hi.headed t ht⟩
    · rw [State.messages, hcopy]
      exact hi.copy t ht l hcopy
  obtain ⟨hpaired, head, rest, heq, hhead⟩ := hmessages
  exact ⟨⟨head, by rw [heq]; rfl, hhead⟩, hpaired.attached, hpaired.complete⟩

/-- A call and its result are appended. -/
theorem fold (hi : Inv cfg s) (ht : s.turn = some t) (stage : Stage)
    (collected : List (String × Bool)) (call : ToolCall) (result : ToolResult) :
    Inv cfg (s.fold cfg { t with stage := stage, collected := collected } call result) := by
  have hpair : Paired (allocate s.history.next (foldToolResult cfg.dumps call result)) :=
    paired_foldToolResult cfg.dumps call result
  refine ⟨?_, ?_, ?_, ?_, hi.generations⟩
  · rw [State.fold]
    dsimp only
    split_ifs
    · exact hi.tidy.skip _
    · exact hi.tidy.extend hpair
  · rintro t' -
    rw [State.fold]
    dsimp only
    split_ifs
    · exact hi.headed t ht
    · exact (hi.headed t ht).append _
  · rintro t' ht' l' hl'
    obtain rfl := Option.some.inj ht'
    obtain ⟨l, hcopy, rfl⟩ := Option.map_eq_some_iff.1 hl'
    obtain ⟨hl, hheaded⟩ := hi.copy t ht l hcopy
    exact ⟨hl.append hpair, hheaded.append _⟩
  · rintro t' ht'
    exact Option.some.inj ht' ▸ hi.quiet t ht

theorem transition (hi : Inv cfg s) (ht : s.turn = some t) {call : ToolCall} {edge : Config.Edge}
    (hs : s.transition cfg t call edge = some s') : Inv cfg s' := by
  obtain ⟨runner, -, rfl⟩ := Option.map_eq_some_iff.1 hs
  have hprompt (ref : ℕ) : IsPrompt cfg runner.node
      { State.prompt cfg { s with runner := runner } with ref := ref } :=
    isPrompt_prompt { s with runner := runner } ref
  have hheaded := hi.headed t ht
  refine ⟨?_, ?_, ?_, ?_, hi.generations⟩
  · rw [ContextSummarizer.maybeSummarize_task]
    exact (hi.tidy.skip _).swapPrompt (isPlain_systemMessage _) rfl hheaded.startsWithSystem
  · rintro t' -
    exact headed_swapPrompt hheaded (hprompt _)
  · rintro t' ht' l' hl'
    obtain rfl := Option.some.inj ht'
    obtain ⟨l, hcopy, rfl⟩ := Option.map_eq_some_iff.1 hl'
    obtain ⟨hl, hlheaded⟩ := hi.copy t ht l hcopy
    exact ⟨hl.swapPrompt (isPlain_systemMessage _), headed_swapPrompt hlheaded (hprompt _)⟩
  · rintro t' ht' hrecovery
    obtain rfl := Option.some.inj ht'
    rw [ContextSummarizer.maybeSummarize_task]
    exact hi.quiet t ht hrecovery

/-- The messages a turn leaves are appended, and the history is trimmed. -/
theorem commit (hi : Inv cfg s) (ht : s.turn = some t) (hms : ∀ m ∈ ms, m.IsPlain)
    (hcut : CutsClean cfg.maxHistory s.history.messages ms.length) :
    Tidy ((s.history.extend ms).trim cfg.maxHistory) s.summarizer.task :=
  hi.tidy.commit (hi.headed t ht).startsWithSystem hms hcut

theorem finish (hi : Inv cfg s) (ht : s.turn = some t) {fabricated : Bool}
    (hrecovery : t.isRecovery = false) (hsafe : Safe cfg s (.finish fabricated)) :
    Inv cfg (s.finish cfg t fabricated) := by
  have htask := hi.quiet t ht hrecovery
  have hheaded := (hi.headed t ht).startsWithSystem
  have hnone {p : Turn → Prop} : ∀ t' ∈ (s.finish cfg t fabricated).turn, p t' :=
    fun _ h => absurd h (Option.not_mem_none _)
  refine ⟨?_, hnone, hnone, hnone, hi.generations⟩
  have hhistory : Paired (s.finish cfg t fabricated).history.messages ∧
      startsWithSystem (s.finish cfg t fabricated).history.messages := by
    rw [State.finish]
    dsimp only
    split_ifs with hreply
    · have htidy := hi.commit ht (isPlain_reply fabricated)
        (hsafe t ht hreply.1 (by simpa using hreply.2))
      exact ⟨htidy.paired, startsWithSystem_trim (startsWithSystem_append hheaded)⟩
    · exact ⟨hi.tidy.paired.popUser, startsWithSystem_popUser hheaded⟩
  rw [show (s.finish cfg t fabricated).summarizer = s.summarizer.startDeferred from rfl,
    ContextSummarizer.startDeferred]
  split_ifs
  · exact .of_scheduled hhistory.1 hhistory.2
  · exact htask ▸ .of_none hhistory.1

theorem recovered (hi : Inv cfg s) (ht : s.turn = some t) (hsafe : Safe cfg s .recovered) :
    Inv cfg (s.recovered cfg t) := by
  have hnone {p : Turn → Prop} : ∀ t' ∈ (s.recovered cfg t).turn, p t' :=
    fun _ h => absurd h (Option.not_mem_none _)
  refine ⟨?_, hnone, hnone, hnone, hi.generations⟩
  rw [State.recovered]
  dsimp only
  split_ifs
  · exact hi.tidy
  · exact hi.commit ht isPlain_apology (hsafe t ht)

/-- The prompt of the active node is put at the head. -/
theorem refreshed (hi : Inv cfg s) :
    Tidy (s.history.refresh (s.prompt cfg)) s.summarizer.task ∧
      Headed cfg s.runner.node (s.history.refresh (s.prompt cfg)).messages :=
  ⟨hi.tidy.refresh (isPlain_systemMessage _) rfl, headed_replacePrompt (isPrompt_prompt s _)⟩

theorem question (hi : Inv cfg s) (text : String) (augmented : Option String) :
    Inv cfg (s.question cfg text augmented) := by
  obtain ⟨htidy, hheaded⟩ := hi.refreshed
  have huser (next : ℕ) (text : String) : Paired (allocate next [userMessage text]) :=
    paired_allocate (by simpa using isPlain_userMessage text)
  have htask := s.summarizer.interruptForLiveTurn_task
  have hpaired := (htidy.extend (huser _ text)).paired
  rcases augmented with _ | content
  · refine ⟨htask ▸ .of_none hpaired, ?_, ?_, fun _ _ _ => htask, hi.generations⟩
    · rintro t' -
      exact hheaded.append _
    · rintro t' ht' l hl
      exact absurd (Option.some.inj ht' ▸ hl) nofun
  · refine ⟨htask ▸ .of_none hpaired, ?_, ?_, fun _ _ _ => htask, hi.generations⟩
    · rintro t' -
      exact hheaded.append _
    · rintro t' ht' l hl
      obtain rfl := Option.some.inj ht'
      obtain rfl := Option.some.inj hl
      -- The copy has the augmented question for the question at the end.
      rw [show ((s.history.refresh (s.prompt cfg)).extend [userMessage text]).messages.dropLast =
        (s.history.refresh (s.prompt cfg)).messages from List.dropLast_concat]
      exact ⟨htidy.paired.append (huser _ content), hheaded.append _⟩

theorem transferFailed (hi : Inv cfg s) (hturn : s.turn = none) (notice : String) :
    Inv cfg (s.transferFailed cfg notice) := by
  have habandon : Inv cfg { s with runner := s.runner.abandonTransfer } := by
    refine hi.frame rfl (fun h => ?_) (fun t' ht' => ?_) (.inl rfl) hi.generations
    · simp [hturn] at h
    · simp [hturn] at ht'
  obtain ⟨htidy, hheaded⟩ := habandon.refreshed
  refine ⟨htidy.skip 1, ?_, ?_, ?_, hi.generations⟩
  · rintro t' -
    exact hheaded
  · rintro t' ht' l hl
    obtain rfl := Option.some.inj ht'
    obtain rfl := Option.some.inj hl
    exact ⟨htidy.paired.append (paired_allocate (by simpa using isPlain_userMessage notice)),
      hheaded.append _⟩
  · rintro t' ht' hrecovery
    exact absurd (Option.some.inj ht' ▸ hrecovery) nofun

theorem summarized (hi : Inv cfg s) {dropIds : List ℕ}
    (htask : s.summarizer.task = some (.running dropIds)) (content : String) :
    Inv cfg { s with
      summarizer := { s.summarizer with task := none }
      history := s.history.splice dropIds (userMessage content) } := by
  have hsplits := hi.tidy.splits dropIds htask
  refine ⟨.of_none (hsplits.splice hi.tidy.paired (isPlain_userMessage content)), ?_, hi.copy,
    fun _ _ _ => rfl, hi.generations⟩
  exact fun t ht => headed_splice (hi.headed t ht)

/-- What a turn does leaves the messages well formed, -/
theorem turnStep (hi : Inv cfg s) (ht : s.turn = some t) (hsafe : Safe cfg s e)
    (hs : s.turnStep cfg t e = some s') : Inv cfg s' := by
  rcases State.turnStep_cases hs with ⟨-, rfl⟩ | ⟨-, _, _, _, _, _, -, rfl⟩ | ⟨_, _, -, hs⟩ |
    ⟨-, _, _, _, _, _, -, rfl⟩ | ⟨_, rfl, hrecovery, rfl⟩ | ⟨rfl, -, rfl⟩
  · refine hi.frame rfl (fun _ => rfl) (fun t' ht' => ?_) (.inl rfl) fun g hg => ?_
    · exact ⟨t, ht, Option.some.inj ht' ▸ ⟨rfl, rfl⟩⟩
    · rcases List.mem_append.1 hg with hg | hg
      · exact hi.generations g hg
      · exact List.mem_singleton.1 hg ▸ hi.generate ht
  · refine hi.frame rfl (fun _ => rfl) (fun t' ht' => ?_) (.inl rfl) hi.generations
    exact ⟨t, ht, Option.some.inj ht' ▸ ⟨rfl, rfl⟩⟩
  · exact hi.transition ht hs
  · exact hi.fold ht _ _ _ _
  · exact hi.finish ht hrecovery hsafe
  · exact hi.recovered ht hsafe

/-- and so does what is between the turns. -/
theorem idleStep (hi : Inv cfg s) (hturn : s.turn = none) (hs : s.idleStep cfg e = some s') :
    Inv cfg s' := by
  cases e with
  | greeting =>
    obtain ⟨start, -, hs⟩ := Option.bind_eq_some_iff.1 hs
    obtain ⟨-, hs⟩ := Option.ite_none_left_eq_some.1 hs
    obtain rfl := Option.some.inj hs
    refine ⟨hi.tidy.extend ?_, ?_, ?_, ?_, hi.generations⟩
    · exact paired_allocate (by simpa using isPlain_assistantMessage _)
    all_goals simp [hturn]
  | question text augmented => exact Option.some.inj hs ▸ hi.question text augmented
  | transferFailed notice => exact Option.some.inj hs ▸ hi.transferFailed hturn notice
  | workflowTransfer =>
    obtain ⟨node, -, rfl⟩ := Option.map_eq_some_iff.1 hs
    exact hi.frame rfl (fun _ => rfl) (fun t ht => ⟨t, ht, rfl, rfl⟩) (.inr rfl) hi.generations
  | _ => simp [State.idleStep] at hs

theorem backgroundStep (hi : Inv cfg s) (hsafe : Safe cfg s e) (hs : s.backgroundStep e = some s') :
    Inv cfg s' := by
  have hsame (t : Turn) (ht : t ∈ s.turn) :
      ∃ t' ∈ s.turn, t.copy = t'.copy ∧ t.isRecovery = t'.isRecovery := ⟨t, ht, rfl, rfl⟩
  rcases State.backgroundStep_cases hs with ⟨rfl, rfl⟩ | ⟨rfl, rfl⟩ | ⟨values, rfl, rfl⟩ |
    ⟨htask, rfl⟩ | ⟨dropIds, content, htask, -, rfl⟩ | ⟨-, rfl⟩
  · refine hi.frame rfl (fun _ => rfl) (fun t' ht' => ?_) ?_ hi.generations
    · obtain ⟨t, ht, rfl⟩ := Option.map_eq_some_iff.1 ht'
      exact ⟨t, ht, rfl, rfl⟩
    · exact .inr (ContextSummarizer.interruptForLiveTurn_task _)
  · exact hi.frame rfl hsafe hsame (.inl rfl) hi.generations
  · exact hi.frame rfl (fun _ => rfl) hsame (.inl rfl) hi.generations
  · have hstarted := hi.tidy.started (by simp [htask])
    refine ⟨?_, hi.headed, hi.copy, fun t ht hrecovery => ?_, hi.generations⟩
    · rcases hl : toReplace s.history.messages with _ | l
      · exact .of_none hi.tidy.paired
      · exact hi.tidy.running hstarted hl
    · simp [hi.quiet t ht hrecovery] at htask
  · exact hi.summarized htask content
  · exact hi.frame rfl (fun _ => rfl) hsame (.inr rfl) hi.generations

theorem step (hi : Inv cfg s) (hsafe : Safe cfg s e) (hs : s.step cfg e = some s') :
    Inv cfg s' := by
  rcases State.step_cases hs with hs | ⟨t, ht, hs⟩ | ⟨hturn, hs⟩
  · exact hi.backgroundStep hsafe hs
  · exact hi.turnStep ht hsafe hs
  · exact hi.idleStep hturn hs

end Inv

/-- What the model is given is well formed in every run in which no step cuts a call off from
    its result, or takes the call to another node behind the back of a turn. -/
theorem reachable_wellFormed (cfg : Settings) (start : Config.Node) (vars : Dict String Json)
    (hs : (conversations cfg start vars).ReachableIf (Safe cfg) s) :
    ∀ g ∈ s.generations, WellFormed cfg g := by
  have h : Inv cfg s := by
    refine hs.invariant ?_ fun s e s' hi hsafe hs => hi.step hsafe hs
    have hnone {p : Turn → Prop} : ∀ t ∈ (conversations cfg start vars).init.turn, p t :=
      fun _ h => absurd h (Option.not_mem_none _)
    exact ⟨.of_none .nil, hnone, hnone, hnone, List.forall_mem_nil _⟩
  exact h.generations

instance (maxHistory : ℕ) (l : List Message) (n : ℕ) : Decidable (CutsClean maxHistory l n) :=
  inferInstanceAs (Decidable (_ → ¬ _))

instance (cfg : Settings) (s : State) (e : Event) : Decidable (Safe cfg s e) :=
  match e with
  | .finish _ | .recovered => inferInstanceAs (Decidable (∀ t ∈ s.turn, _))
  | .transferCancelled => inferInstanceAs (Decidable (_ → _ = _))
  | .greeting | .question .. | .generate | .token _ | .chunk _ | .transition .. | .resume
  | .remote _ | .result _ | .refuse .. | .endOfStream | .raise | .cancel | .transferFailed _
  | .workflowTransfer | .extracted _ | .summarize | .summarized _ | .summaryFailed =>
    inferInstanceAs (Decidable True)

/-- An agent with one step but for the end. -/
def deskDocument : Json := .obj
  [("nodes", .arr
    [.obj [("id", .str "desk"), ("type", .str "start"), ("data", .obj
        [("name", .str "Desk"), ("prompt", .str "You answer the phone of a clinic.")])],
      .obj [("id", .str "bye"), ("type", .str "end"), ("data", .obj [("name", .str "Bye")])]]),
  ("edges", .arr
    [.obj [("source", .str "desk"), ("target", .str "bye"), ("data", .obj
      [("label", .str "bye"), ("condition", .str "when the caller is done")])]])]

omit [Runtime] in
private theorem ten_pos : 0 < 10 := by decide

def desk : Settings where
  graph := ((@Config.parseGraph .ascii deskDocument).toOption).getD ⟨[], ""⟩
  suffix := ""
  maxHistory_pos := ten_pos
  hasBookingTool := true
  dumps _ := "\x7b\"status\": \"success\"\x7d"
  isWord c := c.isAlphanum

def deskNode : Config.Node :=
  (desk.graph.node? "desk").getD { id := "", type := "", name := "" }

/-- A turn in which the model looks something up. -/
private def lookup : List Event :=
  [.question "Are you open today?" none, .generate,
    .remote { id := "call_1", name := "check_hours", arguments := .obj [] },
    .result { status := .success }, .generate, .token "Yes, until six.", .endOfStream,
    .finish false]

private def chat : List Event :=
  [.question "I see." none, .generate, .token "Anything else?", .endOfStream, .finish false]

private def afterLookup : Option State :=
  (@conversations .ascii desk deskNode []).execIf (Safe desk)
    (@conversations .ascii desk deskNode []).init lookup

omit [Runtime] in
private theorem afterLookup_isSome : afterLookup.isSome := by decide

omit [Runtime] in
/-- The model is asked twice in a turn in which it looks something up. -/
theorem reachable_wellFormed_lookup : ∃ s, afterLookup = some s ∧ s.generations.length = 2 ∧
    ∀ g ∈ s.generations, @WellFormed .ascii desk g := by
  have hinit : (@conversations .ascii desk deskNode []).ReachableIf (Safe desk)
      (@conversations .ascii desk deskNode []).init := .init
  have hs := hinit.execIf (Option.some_get afterLookup_isSome).symm
  exact ⟨_, (Option.some_get afterLookup_isSome).symm, by decide,
    @reachable_wellFormed .ascii _ desk deskNode [] hs⟩

/-- The model has looked something up ten turns ago. -/
private def tenTurnsLater : Option State :=
  (@conversations .ascii desk deskNode []).exec (@conversations .ascii desk deskNode []).init
    (lookup ++ (List.replicate 9 chat).flatten ++ [.question "And tomorrow?" none, .generate])

omit [Runtime] in
private theorem tenTurnsLater_isSome : tenTurnsLater.isSome := by decide

omit [Runtime] in
/-- A result that follows the prompt answers no call. -/
theorem not_attached (hl : startsWithSystem l) (hresult : startsWithResult l.tail) :
    ¬ Attached l := by
  intro h
  rcases l with _ | ⟨m, _ | ⟨r, l⟩⟩
  · simp [startsWithSystem] at hl
  · simp [startsWithResult] at hresult
  · have hm : m.role = .system := by simpa [startsWithSystem] using hl
    have hr : r.role = .tool := by simpa [startsWithResult] using hresult
    obtain ⟨before, call, results, heq, hcall, -⟩ := h [m] r l rfl hr
    obtain ⟨rfl, heq⟩ | ⟨before', rfl, heq⟩ := List.cons_eq_append_iff.1 heq
    · obtain ⟨rfl, -⟩ := List.cons.inj heq
      exact absurd (hm.symm.trans hcall) (by decide)
    · simp at heq

omit [Runtime] in
/-- The history has been trimmed between the call and its result. -/
theorem not_reachable_wellFormed : ¬ ∀ cfg start vars s,
    (@conversations .ascii cfg start vars).Reachable s →
      ∀ g ∈ s.generations, @WellFormed .ascii cfg g := by
  intro h
  have hs : (@conversations .ascii desk deskNode []).Reachable
      (tenTurnsLater.get tenTurnsLater_isSome) :=
    System.Reachable.exec .init (Option.some_get tenTurnsLater_isSome).symm
  obtain ⟨g, hg, hl, hresult⟩ : ∃ g ∈ (tenTurnsLater.get tenTurnsLater_isSome).generations,
      startsWithSystem g.messages ∧ startsWithResult g.messages.tail := by
    decide
  exact not_attached hl hresult (@WellFormed.attached .ascii _ _ (h _ _ _ _ hs g hg))

end Yuviz.Conversation.Messages
