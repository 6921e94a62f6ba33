import Mathlib
import Yuviz.Conversation.Messages.WellFormed
import Yuviz.System

/-!
# What a summary keeps

While the model is asked for a summary, the history goes on: messages are appended and taken
back, the prompt is refreshed, and the oldest messages are trimmed. What is left of the
messages the summary was made of stays together behind the prompt (`Around`), so the summary
takes their place, and nothing else goes but results whose call has gone
(`summarized_of_reachable`).
-/

namespace Yuviz.Conversation.Messages

open Python

/-! ### Edits of the history -/

/-- The message is the result of a call of the other. -/
def Answers (m call : ChatMessage) : Prop :=
  call.role = .assistant ∧ ∃ c ∈ call.toolCalls, m.toolCallId = some c.id

instance (m call : ChatMessage) : Decidable (Answers m call) :=
  inferInstanceAs (Decidable (_ ∧ _))

/-- The last message that is no result. -/
def lastNonResult (l : List Message) : Option Message := l.reverse.find? (·.role ≠ .tool)

inductive Edit
  /-- A result is appended behind its call, or other results of it. -/
  | append (m : ChatMessage)
  | refresh (prompt : ChatMessage)
  | trim
  /-- The rollback of a turn without a reply. -/
  | popUser

def History.edit (maxHistory : ℕ) (h : History) : Edit → Option History
  | .append m =>
    if m.role = .tool → ∃ call ∈ lastNonResult h.messages, Answers m call.toChatMessage then
      some (h.extend [m])
    else none
  | .refresh prompt => if prompt.role = .system then some (h.refresh prompt) else none
  | .trim => some (h.trim maxHistory)
  | .popUser => some h.popUser

/-- What is done to the history `h` while a summary is being made. -/
def edits (maxHistory : ℕ) (h : History) : System History Edit where
  init := h
  step := History.edit maxHistory

/-- The summary as it is put into the history. -/
def summaryMessage (summary : String) : ChatMessage :=
  userMessage ("[Earlier in this call]\n" ++ summary)

/-- The end of `_summarize`: with the answer of the model, or with none, after a failure, a
    timeout or a cancellation. -/
def summarized (dropIds : List ℕ) (answer : Option String) (h : History) : History :=
  match answer with
  | none => h
  | some answer =>
    if stripStr answer = "" then h else h.splice dropIds (summaryMessage (stripStr answer))

/-! ### What is kept -/

/-- There is a summary, and something left of what it is to replace. -/
def Splices (replaced : List Message) (answer : Option String) (l : List Message) : Prop :=
  (∃ text ∈ answer, stripStr text ≠ "") ∧ ∃ m ∈ l, m.ref ∈ replaced.map Message.ref

/-- Behind the system message, which stays, there is the summary, and then the messages that it
    has not replaced, but for results of calls that it has. -/
def Spliced (replaced : List Message) (summary : ChatMessage) (before after : List Message) :
    Prop :=
  ∃ head rest new dropped kept,
    before = head :: rest ∧ head.role = .system ∧
      new.toChatMessage = summary ∧ new.ref ∉ before.map Message.ref ∧
      after = head :: new :: kept ∧
      rest.filter (·.ref ∉ replaced.map Message.ref) = dropped ++ kept ∧
      ∀ m ∈ dropped, m.role = .tool ∧
        ∃ call ∈ replaced, Answers m.toChatMessage call.toChatMessage

/-! ### The messages a summary is made of -/

variable {replaced l old new : List Message} {h h' h₀ : History} {m head : Message}
  {maxHistory : ℕ}

/-- The results that come first have their calls among the replaced messages. -/
def Results (replaced new : List Message) : Prop :=
  ∀ m ∈ new.takeWhile (·.role = .tool),
    ∃ call ∈ replaced, Answers m.toChatMessage call.toChatMessage

/-- What is left of the replaced messages comes right behind the prompt. -/
structure Around (replaced : List Message) (h : History) : Prop where
  lt_next : ∀ m ∈ replaced, m.ref < h.next
  split : ∃ head old new, h.messages = head :: (old ++ new) ∧ head.role = .system ∧
    head.ref ∉ replaced.map Message.ref ∧ (∀ m ∈ old, m ∈ replaced) ∧
    (∀ m ∈ new, m.ref ∉ replaced.map Message.ref) ∧ (old ≠ [] → Results replaced new)

theorem Results.append (h : Results replaced new)
    (hm : m.role = .tool → (∀ r ∈ new, r.role = .tool) →
      ∃ call ∈ replaced, Answers m.toChatMessage call.toChatMessage) :
    Results replaced (new ++ [m]) := by
  intro m' hm'
  rw [List.takeWhile_append] at hm'
  split_ifs at hm' with hlength
  · have hall : new.takeWhile (·.role = .tool) = new :=
      (List.takeWhile_prefix _).eq_of_length hlength
    rcases List.mem_append.1 hm' with hm' | hm'
    · exact h m' (hall.symm ▸ hm')
    · obtain rfl := List.mem_singleton.1 ((List.takeWhile_sublist _).subset hm')
      have htool : m'.role = .tool := by simpa using List.mem_takeWhile_imp hm'
      refine hm htool fun r hr => ?_
      exact of_decide_eq_true (List.takeWhile_eq_self_iff.1 hall r hr)
  · exact h m' hm'

theorem Results.of_append (h : Results replaced (new ++ [m])) : Results replaced new := by
  intro m' hm'
  refine h m' ?_
  rw [List.takeWhile_append]
  split_ifs
  · exact List.mem_append_left _ ((List.takeWhile_sublist _).subset hm')
  · exact hm'

/-- When nothing but results has come since, the last message that is none is a replaced one. -/
theorem mem_replaced_of_lastNonResult {call : Message} (hold : ∀ m ∈ old, m ∈ replaced)
    (hnew : ∀ m ∈ new, m.role = .tool) (hrole : head.role = .system)
    (hcall : call ∈ lastNonResult (head :: (old ++ new))) (hassistant : call.role = .assistant) :
    call ∈ replaced := by
  have hmem : call ∈ head :: (old ++ new) := List.mem_reverse.1 (List.mem_of_find?_eq_some hcall)
  have hne : call.role ≠ .tool := hassistant ▸ by decide
  rcases List.mem_cons.1 hmem with rfl | hmem
  · exact absurd (hrole.symm.trans hassistant) (by decide)
  · rcases List.mem_append.1 hmem with hmem | hmem
    · exact hold call hmem
    · exact absurd (hnew call hmem) hne

/-! ### Each edit -/

theorem Around.append {m : ChatMessage} (h : Around replaced h₀)
    (hm : m.role = .tool → ∃ call ∈ lastNonResult h₀.messages, Answers m call.toChatMessage) :
    Around replaced (h₀.extend [m]) := by
  obtain ⟨head, old, new, hl, hrole, hhead, hold, hnew, hresults⟩ := h.split
  let appended : Message := { m with ref := h₀.next }
  have hmessages : (h₀.extend [m]).messages = head :: (old ++ (new ++ [appended])) := by
    rw [History.messages_extend, hl, List.cons_append, List.append_assoc]
    rfl
  refine ⟨fun m' hm' => (h.lt_next m' hm').trans_le (Nat.le_add_right _ _), head, old,
    new ++ [appended], hmessages, hrole, hhead, hold, ?_, fun hne => ?_⟩
  · simp only [List.forall_mem_append, List.forall_mem_singleton]
    refine ⟨hnew, fun hmem => ?_⟩
    obtain ⟨m', hm', href⟩ := List.mem_map.1 hmem
    exact (h.lt_next m' hm').ne href
  · refine (hresults hne).append fun htool hall => ?_
    obtain ⟨call, hcall, hanswers⟩ := hm htool
    exact ⟨call, mem_replaced_of_lastNonResult hold hall hrole (hl ▸ hcall) hanswers.1, hanswers⟩

theorem Around.refresh {prompt : ChatMessage} (h : Around replaced h₀)
    (hprompt : prompt.role = .system) : Around replaced (h₀.refresh prompt) := by
  obtain ⟨head, old, new, hl, hrole, hhead, hold, hnew, hresults⟩ := h.split
  let refreshed : Message := { prompt with ref := h₀.next }
  have hmessages : (h₀.refresh prompt).messages = refreshed :: (old ++ new) := by
    show replacePrompt refreshed h₀.messages = _
    rw [replacePrompt, if_pos (by simp [startsWithSystem, hl, hrole]), hl, List.tail_cons]
  refine ⟨fun m' hm' => (h.lt_next m' hm').trans (Nat.lt_succ_self _), refreshed, old, new,
    hmessages, hprompt, fun hmem => ?_, hold, hnew, hresults⟩
  obtain ⟨m', hm', href⟩ := List.mem_map.1 hmem
  exact (h.lt_next m' hm').ne href

/-- What is cut off is cut off behind the prompt. -/
theorem Around.trim (h : Around replaced h₀) : Around replaced (h₀.trim maxHistory) := by
  obtain ⟨head, old, new, hl, hrole, hhead, hold, hnew, hresults⟩ := h.split
  have hmessages : ∃ k, (h₀.trim maxHistory).messages = head :: (old ++ new).drop k := by
    show ∃ k, Messages.trim maxHistory h₀.messages = _
    have hsystem : startsWithSystem h₀.messages = true := by simp [startsWithSystem, hl, hrole]
    rw [hl] at hsystem ⊢
    simp only [Messages.trim, hsystem, if_true]
    split_ifs with hlong
    · obtain ⟨k, hk⟩ := Nat.exists_eq_add_of_lt hlong
      refine ⟨k + 1, ?_⟩
      have hcut : (head :: (old ++ new)).length - 2 * maxHistory = k + 1 + 1 := by omega
      rw [hcut]
      rfl
    · exact ⟨0, rfl⟩
  obtain ⟨k, hmessages⟩ := hmessages
  refine ⟨h.lt_next, head, old.drop k, new.drop (k - old.length),
    by rw [hmessages, List.drop_append], hrole, hhead, fun m hm => hold m (List.mem_of_mem_drop hm),
    fun m hm => hnew m (List.mem_of_mem_drop hm), fun hne => ?_⟩
  have hlt : k < old.length := by
    by_contra hle
    exact hne (List.drop_eq_nil_of_le (not_lt.1 hle))
  rw [Nat.sub_eq_zero_of_le hlt.le]
  exact hresults fun hnil => hne (by rw [hnil, List.drop_nil])

/-- The last message that goes is the prompt never. -/
theorem Around.popUser (h : Around replaced h₀) : Around replaced h₀.popUser := by
  obtain ⟨head, old, new, hl, hrole, hhead, hold, hnew, hresults⟩ := h.split
  have hmessages : h₀.popUser.messages = if (head :: (old ++ new)).getLast?.any (·.role = .user)
      then (head :: (old ++ new)).dropLast else head :: (old ++ new) := hl ▸ rfl
  split_ifs at hmessages with hlast
  · rcases new.eq_nil_or_concat with rfl | ⟨new, m, rfl⟩
    · rcases old.eq_nil_or_concat with rfl | ⟨old, m, rfl⟩
      · simp [hrole] at hlast
      · refine ⟨h.lt_next, head, old, [], ?_, hrole, hhead, ?_, nofun, nofun⟩
        · rw [hmessages]
          simp [List.dropLast_cons_of_ne_nil]
        · exact fun m' hm' => hold m' (by simp [hm'])
    · refine ⟨h.lt_next, head, old, new, ?_, hrole, hhead, hold, ?_, fun hne => ?_⟩
      · rw [hmessages]
        simp [List.dropLast_cons_of_ne_nil]
      · exact fun m' hm' => hnew m' (by simp [hm'])
      · have hresults := hresults hne
        rw [List.concat_eq_append] at hresults
        exact hresults.of_append
  · exact ⟨h.lt_next, head, old, new, hmessages, hrole, hhead, hold, hnew, hresults⟩

theorem Around.edit {e : Edit} (h : Around replaced h₀) (hst : h₀.edit maxHistory e = some h') :
    Around replaced h' := by
  cases e with
  | append m =>
    obtain ⟨hm, hst⟩ := Option.ite_none_right_eq_some.1 hst
    exact Option.some.inj hst ▸ h.append hm
  | refresh prompt =>
    obtain ⟨hprompt, hst⟩ := Option.ite_none_right_eq_some.1 hst
    exact Option.some.inj hst ▸ h.refresh hprompt
  | trim => exact Option.some.inj hst ▸ h.trim
  | popUser => exact Option.some.inj hst ▸ h.popUser

/-- A summary begins with the messages behind the prompt, up to one that is no result. -/
theorem around_toReplace (hsystem : startsWithSystem h₀.messages)
    (hreplaced : toReplace h₀.messages = some replaced) : Around replaced h₀ := by
  rw [toReplace] at hreplaced
  have hcut := not_startsWithResult_drop_summaryCutoff (l := h₀.messages)
  have hnodup := h₀.nodup
  have hlt := h₀.lt_next
  generalize summaryCutoff h₀.messages = cutoff at hreplaced hcut
  split_ifs at hreplaced with hnone
  rw [not_or, not_le] at hnone
  obtain rfl := Option.some.inj hreplaced
  generalize hl : h₀.messages = l at *
  rcases l with _ | ⟨head, l⟩
  · simp [startsWithSystem] at hsystem
  · obtain ⟨k, rfl⟩ := Nat.exists_eq_add_of_le' hnone.1.le
    have htake : ((head :: l).take (k + 1)).tail = l.take k := rfl
    have hdrop : (head :: l).drop (k + 1) = l.drop k := rfl
    rw [htake] at *
    rw [hdrop] at hcut
    rw [List.map_cons, List.nodup_cons] at hnodup
    refine ⟨fun m hm => hlt m (List.mem_cons_of_mem _ (List.mem_of_mem_take hm)), head, l.take k,
      l.drop k, by rw [hl, List.take_append_drop], by simpa [startsWithSystem] using hsystem,
      fun hmem => hnodup.1 ?_, fun m hm => hm, fun m hm hmem => ?_, fun _ m hm => ?_⟩
    · obtain ⟨m, hm, href⟩ := List.mem_map.1 hmem
      exact List.mem_map.2 ⟨m, List.mem_of_mem_take hm, href⟩
    · have hsplit := hnodup.2
      rw [← List.take_append_drop k l, List.map_append] at hsplit
      exact List.disjoint_of_nodup_append hsplit hmem (List.mem_map_of_mem hm)
    · generalize l.drop k = new at hcut hm
      rcases new with _ | ⟨m', new⟩
      · exact absurd hm List.not_mem_nil
      · have hne : ¬ m'.role = .tool := by simpa [startsWithResult] using hcut
        rw [List.takeWhile_cons_of_neg (by simpa using hne)] at hm
        exact absurd hm List.not_mem_nil

/-! ### The summary -/

theorem Around.spliced {summary : ChatMessage} (h : Around replaced h₀)
    (hleft : ∃ m ∈ h₀.messages, m.ref ∈ replaced.map Message.ref) :
    Spliced replaced summary h₀.messages
      (h₀.splice (replaced.map Message.ref) summary).messages := by
  obtain ⟨head, old, new, hl, hrole, hhead, hold, hnew, hresults⟩ := h.split
  have hfilter : (old ++ new).filter (·.ref ∉ replaced.map Message.ref) = new := by
    have hgone : old.filter (·.ref ∉ replaced.map Message.ref) = [] := by
      refine List.filter_eq_nil_iff.2 fun m hm => ?_
      simpa using ⟨m, hold m hm, rfl⟩
    have hkept : new.filter (·.ref ∉ replaced.map Message.ref) = new :=
      List.filter_eq_self.2 fun m hm => decide_eq_true (hnew m hm)
    rw [List.filter_append, hgone, hkept, List.nil_append]
  have hne : old ≠ [] := by
    rintro rfl
    obtain ⟨m, hm, hmem⟩ := hleft
    rw [hl, List.nil_append] at hm
    rcases List.mem_cons.1 hm with rfl | hm
    · exact hhead hmem
    · exact hnew m hm hmem
  have hrest : ∃ m ∈ old ++ new, m.ref ∈ replaced.map Message.ref := by
    obtain ⟨m, old, rfl⟩ := List.exists_cons_of_ne_nil hne
    exact ⟨m, by simp, List.mem_map_of_mem (hold m List.mem_cons_self)⟩
  refine ⟨head, old ++ new, { summary with ref := h₀.next }, new.takeWhile (·.role = .tool),
    new.dropWhile (·.role = .tool), hl, hrole, rfl, fun hmem => ?_, ?_, ?_, fun m hm => ?_⟩
  · obtain ⟨m, hm, href⟩ := List.mem_map.1 hmem
    exact (h₀.lt_next m hm).ne href
  · show Messages.splice _ _ h₀.messages = _
    rw [hl, Messages.splice, if_pos ⟨hrole, hrest⟩, hfilter]
  · rw [hfilter, List.takeWhile_append_dropWhile]
  · exact ⟨by simpa using List.mem_takeWhile_imp hm, hresults hne m hm⟩

theorem splice_of_forall {dropIds : List ℕ} {summary : ChatMessage}
    (h : ∀ m ∈ h₀.messages, m.ref ∉ dropIds) :
    (h₀.splice dropIds summary).messages = h₀.messages := by
  show Messages.splice _ _ h₀.messages = _
  rcases hl : h₀.messages with _ | ⟨head, rest⟩
  · rfl
  · rw [Messages.splice, if_neg]
    rintro ⟨-, m, hm, hmem⟩
    exact h m (hl ▸ List.mem_cons_of_mem _ hm) hmem

/-- A summary takes the place of what it was made of, whatever was done to the history in the
    meantime, and the history is as it was if there is none. -/
theorem summarized_of_reachable (hsystem : startsWithSystem h₀.messages)
    (hreplaced : toReplace h₀.messages = some replaced)
    (hh : (edits maxHistory h₀).Reachable h) (answer : Option String) :
    (∀ text ∈ answer, Splices replaced answer h.messages →
      Spliced replaced (summaryMessage (stripStr text)) h.messages
        (summarized (replaced.map Message.ref) answer h).messages) ∧
    (¬ Splices replaced answer h.messages →
      (summarized (replaced.map Message.ref) answer h).messages = h.messages) := by
  have haround : Around replaced h := by
    refine hh.invariant (I := Around replaced) ?_ fun _ _ _ haround hst => ?_
    · exact around_toReplace hsystem hreplaced
    · exact haround.edit hst
  rcases answer with _ | text
  · exact ⟨fun text htext => absurd htext (Option.not_mem_none text), fun _ => rfl⟩
  · rw [summarized]
    split_ifs with hblank
    · refine ⟨fun _ _ hsplices => ?_, fun _ => rfl⟩
      obtain ⟨⟨text', htext', hne⟩, -⟩ := hsplices
      exact absurd (Option.some.inj htext' ▸ hblank) hne
    · refine ⟨fun _ htext hsplices => ?_, fun hsplices => splice_of_forall fun m hm hmem => ?_⟩
      · rw [← Option.some.inj htext]
        exact haround.spliced hsplices.2
      · exact hsplices ⟨⟨text, rfl, hblank⟩, m, hm, hmem⟩

/-! ### A summary of an order -/

/-- A call about an order, in which a tool is called while the summary is made. -/
def orderHistory : History :=
  (@conversations .ascii desk deskNode []).init.history.extend
    [{ role := .system, content := "Take orders." }, userMessage "Hello.",
    assistantMessage "What would you like?", userMessage "Two loaves.",
    assistantMessage "Anything else?", userMessage "No.", assistantMessage "To be delivered?",
    userMessage "Yes."]

def lookupCall : ToolCall where
  id := "call_1"
  name := "lookup"
  arguments := .obj []

private def lookedUp : Option History :=
  (edits 4 orderHistory).exec orderHistory
    [.append { role := .assistant, content := "", toolCalls := [lookupCall] },
      .append { role := .tool, content := "\x7b\x7d", toolCallId := some "call_1" }, .trim,
      .popUser, .refresh { role := .system, content := "Take the address." }]

private theorem lookedUp_isSome : lookedUp.isSome := by decide

/-- What is left of the first messages is replaced. -/
theorem summarized_of_reachable_orderHistory :
    ∃ replaced h, toReplace orderHistory.messages = some replaced ∧
      (edits 4 orderHistory).Reachable h ∧
      h.messages.map Message.ref = [10, 2, 3, 4, 5, 6, 7, 8, 9] ∧
      Spliced replaced (summaryMessage (stripStr "Two loaves.")) h.messages
        (summarized (replaced.map Message.ref) (some "Two loaves.") h).messages := by
  let replaced := (toReplace orderHistory.messages).get (by decide)
  have hreplaced : toReplace orderHistory.messages = some replaced := (Option.some_get _).symm
  have hh : (edits 4 orderHistory).Reachable (lookedUp.get lookedUp_isSome) :=
    System.Reachable.exec .init (Option.some_get lookedUp_isSome).symm
  have hsummarized := summarized_of_reachable (by decide) hreplaced hh (some "Two loaves.")
  refine ⟨replaced, _, hreplaced, hh, rfl, hsummarized.1 _ rfl ⟨⟨_, rfl, by decide⟩, ?_⟩⟩
  decide

end Yuviz.Conversation.Messages
