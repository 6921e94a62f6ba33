import Mathlib.Data.List.Basic
import Mathlib.Tactic.SplitIfs
import Yuviz.Python.Dict
import Yuviz.Python.Json

/-!
# The messages of a conversation

What the language model is given is a list of messages, which is edited in
place: a reply is appended, the prompt at the head refreshed, the oldest
messages trimmed or replaced by a summary. A message is an object with an
identity (`ref`), as a summary drops the messages it was made of wherever they
are by then.

A provider rejects a list with a tool call without its result, or a result
without its call. A list of plain messages, and of calls each directly followed
by its result (`Paired`), has neither (`Paired.attached`, `Paired.complete`).
-/

namespace Yuviz.Conversation.Messages

open Python

inductive Role
  | system
  | user
  | assistant
  | tool
deriving DecidableEq, Repr

structure ToolCall where
  id : String
  name : String
  arguments : Json
  providerMetadata : Option Json := none

structure ChatMessage where
  role : Role
  content : String
  toolCalls : List ToolCall := []
  toolCallId : Option String := none

/-- A message, with its identity. -/
structure Message extends ChatMessage where
  ref : ℕ

/-- New messages, with the identities from `next` on. -/
def allocate (next : ℕ) : List ChatMessage → List Message
  | [] => []
  | m :: ms => { m with ref := next } :: allocate (next + 1) ms

theorem allocate_cons (next : ℕ) (m : ChatMessage) (ms : List ChatMessage) :
    allocate next (m :: ms) = { m with ref := next } :: allocate (next + 1) ms := rfl

/-! ### Tool results -/

inductive ToolStatus
  | success
  | failed
  | timeout
  | cancelled
  | unavailable
  | invalidArgument
  | rateLimited
deriving DecidableEq, Repr

def ToolStatus.value : ToolStatus → String
  | success => "success"
  | failed => "failed"
  | timeout => "timeout"
  | cancelled => "cancelled"
  | unavailable => "unavailable"
  | invalidArgument => "invalid_argument"
  | rateLimited => "rate_limited"

structure ToolResult where
  status : ToolStatus
  payload : Dict String Json := []
  error : Option String := none
  deterministicResponse : Option String := none

namespace ToolResult

/-- The result of a tool that the caller interrupted. -/
def IsCancelled (r : ToolResult) : Prop := r.status = .failed ∧ r.error = some "cancelled"

instance (r : ToolResult) : Decidable r.IsCancelled := inferInstanceAs (Decidable (_ ∧ _))

/-- What the model is told of it. -/
def json (r : ToolResult) : Json :=
  let status : Dict String Json := [("status", .str r.status.value)]
  let payload := r.payload.foldl (fun d e => d.set e.1 e.2) status
  .obj (match r.error with
    | none | some "" => payload
    | some error => payload.set "error" (.str error))

end ToolResult

/-- `_TRANSITION_RESULT`. -/
def transitionResult : ToolResult where
  status := .success
  payload := [("status", .str "done")]

/-- `_fold_tool_result_into_history`: a call, and its result. -/
def foldToolResult (dumps : Json → String) (call : ToolCall) (result : ToolResult) :
    List ChatMessage :=
  [{ role := .assistant, content := "", toolCalls := [call] },
    { role := .tool, content := dumps result.json, toolCallId := some call.id }]

/-! ### Edits -/

/-- The message list has a system message at its head. -/
def startsWithSystem (l : List Message) : Bool := l.head?.any (·.role = .system)

/-- Puts the prompt at the head, for the one that is there. -/
def replacePrompt (prompt : Message) (l : List Message) : List Message :=
  if startsWithSystem l then prompt :: l.tail else prompt :: l

/-- Removes an unpaired user message at the end. -/
def popUser (l : List Message) : List Message :=
  if l.getLast?.any (·.role = .user) then l.dropLast else l

/-- `_trim_history`, for a positive number of turns (the last `2 * maxHistory` messages are
    `history[-self._max_history * 2:]`). -/
def trim (maxHistory : ℕ) (l : List Message) : List Message :=
  let base := if startsWithSystem l then 1 else 0
  if 2 * maxHistory + base < l.length then l.take base ++ l.drop (l.length - 2 * maxHistory) else l

/-- Swaps the prompt of a list that has begun. -/
def swapPrompt (prompt : Message) (l : List Message) : List Message :=
  if l.isEmpty then l else replacePrompt prompt l

/-! ### Summaries -/

/-- The ids of a message whose calls are all transitions. -/
def gotoToolCallIds (m : Message) : Option (List String) :=
  if m.role = .assistant ∧ m.toolCalls ≠ [] ∧ ∀ c ∈ m.toolCalls, "goto_".toList <+: c.name.toList then
    some ((m.toolCalls.map ToolCall.id).filter (· ≠ ""))
  else none

/-- `_strip_transition_noise`. -/
def stripTransitionNoise (l : List Message) : List Message :=
  let dropIds := (l.filterMap gotoToolCallIds).flatten
  l.filter fun m => (gotoToolCallIds m).isNone &&
    !(m.role = .tool && m.toolCallId.any fun id => id ≠ "" && dropIds.contains id)

/-- `_SUMMARY_KEEP_LAST`. -/
def summaryKeepLast : ℕ := 4

/-- `summary_threshold_for`. -/
def summaryThresholdFor (maxHistory : ℕ) : ℕ :=
  min (max (summaryKeepLast + 2) (maxHistory * 2 - 4)) (maxHistory * 2)

/-- Where the messages begin that are kept: not at a tool result. -/
def summaryCutoff (l : List Message) : ℕ :=
  let cutoff := l.length - summaryKeepLast
  cutoff + ((l.drop cutoff).takeWhile (·.role = .tool)).length

/-- The messages a summary is made of, if there is one to be made. -/
def toReplace (l : List Message) : Option (List Message) :=
  let cutoff := summaryCutoff l
  let replaced := (l.take cutoff).tail
  if cutoff ≤ 1 ∨ l.length ≤ cutoff ∨ (stripTransitionNoise replaced).isEmpty then none
  else some replaced

/-- Puts a summary in the place of the messages it was made of, if there are any left. -/
def splice (dropIds : List ℕ) (summary : Message) : List Message → List Message
  | head :: rest =>
    if head.role = .system ∧ ∃ m ∈ rest, m.ref ∈ dropIds then
      head :: summary :: (rest.filter (·.ref ∉ dropIds)).dropWhile (·.role = .tool)
    else head :: rest
  | [] => []

/-! ### Calls and results -/

/-- Each tool result directly follows the call it answers, but for other results. -/
def Attached (l : List Message) : Prop :=
  ∀ (before : List Message) (m : Message) (after : List Message),
    l = before ++ m :: after → m.role = .tool →
      ∃ (before' : List Message) (call : Message) (results : List Message),
        before = before' ++ call :: results ∧ call.role = .assistant ∧
        (∃ c ∈ call.toolCalls, m.toolCallId = some c.id) ∧ ∀ r ∈ results, r.role = .tool

/-- Each tool call is followed by its result. -/
def Complete (l : List Message) : Prop :=
  ∀ (before : List Message) (call : Message) (after : List Message),
    l = before ++ call :: after → ∀ c ∈ call.toolCalls,
      ∃ (results : List Message) (m : Message) (after' : List Message),
        after = results ++ m :: after' ∧ (∀ r ∈ results, r.role = .tool) ∧
        m.role = .tool ∧ m.toolCallId = some c.id

/-- A message that is neither a tool call nor a result. -/
def ChatMessage.IsPlain (m : ChatMessage) : Prop := m.role ≠ .tool ∧ m.toolCalls = []

/-- Plain messages, and calls each with its result. -/
inductive Paired : List Message → Prop
  | nil : Paired []
  | plain {m : Message} {l : List Message} : m.IsPlain → Paired l → Paired (m :: l)
  | call {m r : Message} {c : ToolCall} {l : List Message} : m.role = .assistant →
      m.toolCalls = [c] → r.role = .tool → r.toolCalls = [] → r.toolCallId = some c.id →
      Paired l → Paired (m :: r :: l)

variable {l l' : List Message} {m : Message}

/-- Messages that are paired may be put together, -/
theorem Paired.append (h : Paired l) (h' : Paired l') : Paired (l ++ l') := by
  induction h with
  | nil => exact h'
  | plain hm _ ih => exact .plain hm ih
  | call hm hc hr hcalls hid _ ih => exact .call hm hc hr hcalls hid ih

/-- do not begin with a result, -/
theorem Paired.head (h : Paired (m :: l)) : m.role ≠ .tool := by
  rcases h with _ | ⟨hm, -⟩ | ⟨hm, -⟩
  · exact hm.1
  · rw [hm]
    decide

/-- A suffix that does not begin with a result has no call cut in two. -/
theorem Paired.drop (h : Paired l) {k : ℕ} (hk : (l.drop k).head?.all (·.role ≠ .tool)) :
    Paired (l.drop k) := by
  induction h generalizing k with
  | nil => simpa using Paired.nil
  | plain hm h ih =>
    rcases k with _ | k
    · exact .plain hm h
    · exact ih hk
  | call hm hc hr hcalls hid h ih =>
    rcases k with _ | _ | k
    · exact .call hm hc hr hcalls hid h
    · simp [hr] at hk
    · exact ih hk

/-- Nor has a prefix, if the rest does not begin with a result. -/
theorem Paired.take (h : Paired l) {k : ℕ} (hk : (l.drop k).head?.all (·.role ≠ .tool)) :
    Paired (l.take k) := by
  induction h generalizing k with
  | nil => simpa using Paired.nil
  | plain hm h ih =>
    rcases k with _ | k
    · exact .nil
    · exact .plain hm (ih hk)
  | call hm hc hr hcalls hid h ih =>
    rcases k with _ | _ | k
    · exact .nil
    · simp [hr] at hk
    · exact .call hm hc hr hcalls hid (ih hk)

/-- have every result after its call, -/
theorem Paired.attached (h : Paired l) : Attached l := by
  induction h with
  | nil => simp [Attached]
  | @plain m l hm h ih =>
    intro before x after heq hx
    rcases List.cons_eq_append_iff.1 heq with ⟨rfl, h'⟩ | ⟨before, rfl, rfl⟩
    · obtain ⟨rfl, -⟩ := List.cons.inj h'
      exact absurd hx hm.1
    · obtain ⟨before', call, results, rfl, hcall⟩ := ih before x after rfl hx
      exact ⟨m :: before', call, results, rfl, hcall⟩
  | @call m r c l hm hc hr hcalls hid h ih =>
    intro before x after heq hx
    rcases List.cons_eq_append_iff.1 heq with ⟨rfl, h'⟩ | ⟨before, rfl, h'⟩
    · obtain ⟨rfl, -⟩ := List.cons.inj h'
      exact absurd (hm.symm.trans hx) (by decide)
    · rcases List.cons_eq_append_iff.1 h' with ⟨rfl, h''⟩ | ⟨before, rfl, rfl⟩
      · obtain ⟨rfl, -⟩ := List.cons.inj h''
        exact ⟨[], m, [], rfl, hm, ⟨c, by rw [hc]; exact List.mem_singleton_self c, hid⟩, nofun⟩
      · obtain ⟨before', call, results, rfl, hcall⟩ := ih before x after rfl hx
        exact ⟨m :: r :: before', call, results, rfl, hcall⟩

/-- and every call with its result. -/
theorem Paired.complete (h : Paired l) : Complete l := by
  induction h with
  | nil => simp [Complete]
  | @plain m l hm h ih =>
    intro before call after heq c hcall
    rcases List.cons_eq_append_iff.1 heq with ⟨rfl, h'⟩ | ⟨before, rfl, rfl⟩
    · obtain ⟨rfl, -⟩ := List.cons.inj h'
      rw [hm.2] at hcall
      exact absurd hcall List.not_mem_nil
    · exact ih before call after rfl c hcall
  | @call m r c l hm hc hr hcalls hid h ih =>
    intro before call after heq c' hcall
    rcases List.cons_eq_append_iff.1 heq with ⟨rfl, h'⟩ | ⟨before, rfl, h'⟩
    · obtain ⟨rfl, rfl⟩ := List.cons.inj h'
      rw [hc, List.mem_singleton] at hcall
      exact ⟨[], r, l, rfl, nofun, hr, hcall ▸ hid⟩
    · rcases List.cons_eq_append_iff.1 h' with ⟨rfl, h''⟩ | ⟨before, rfl, rfl⟩
      · obtain ⟨rfl, -⟩ := List.cons.inj h''
        rw [hcalls] at hcall
        exact absurd hcall List.not_mem_nil
      · exact ih before call after rfl c' hcall

/-! ### Edits of paired messages -/

variable {prompt : Message} {next maxHistory : ℕ} {ms : List ChatMessage} {dropIds : List ℕ}

/-- The list begins with a tool result. -/
def startsWithResult (l : List Message) : Bool := l.head?.any (·.role = .tool)

/-- They may be cut where no result comes next. -/
theorem Paired.drop_of_not_startsWithResult (h : Paired l) {k : ℕ}
    (hk : ¬ startsWithResult (l.drop k)) : Paired (l.drop k) := by
  refine h.drop ?_
  rw [startsWithResult] at hk
  generalize (l.drop k).head? = first at hk
  rcases first with _ | m <;> simp_all

theorem Paired.tail (h : Paired l) (hs : startsWithSystem l) : Paired l.tail := by
  rcases h with _ | ⟨-, h⟩ | ⟨hm, -⟩
  · exact .nil
  · exact h
  · simp [startsWithSystem, hm] at hs

theorem Paired.replacePrompt (h : Paired l) (hp : prompt.IsPlain) :
    Paired (replacePrompt prompt l) := by
  rw [Messages.replacePrompt]
  split_ifs with hs
  · exact .plain hp (h.tail hs)
  · exact .plain hp h

theorem Paired.swapPrompt (h : Paired l) (hp : prompt.IsPlain) : Paired (swapPrompt prompt l) := by
  rw [Messages.swapPrompt]
  split_ifs
  · exact h
  · exact h.replacePrompt hp

/-- A question that is taken back leaves them paired. -/
theorem Paired.popUser (h : Paired l) : Paired (popUser l) := by
  rw [Messages.popUser]
  split_ifs with hlast
  · rw [List.dropLast_eq_take]
    refine h.take ?_
    rcases l.eq_nil_or_concat with rfl | ⟨l, m, rfl⟩
    · rfl
    · have hm : m.role = .user := by simpa using hlast
      simp [hm]
  · exact h

theorem Paired.trim (h : Paired l)
    (hcut : ¬ startsWithResult (l.drop (l.length - 2 * maxHistory))) :
    Paired (trim maxHistory l) := by
  have hdrop := h.drop_of_not_startsWithResult hcut
  rw [Messages.trim]
  split_ifs with hs hlong hlong
  · -- The prompt stays, which is plain.
    rcases l with _ | ⟨m, l⟩
    · exact hdrop
    · have hm : m.role = .system := by simpa [startsWithSystem] using hs
      rcases h with _ | ⟨hplain, -⟩ | ⟨hcall, -⟩
      · exact .plain hplain hdrop
      · exact absurd (hm.symm.trans hcall) (by decide)
  · exact h
  · exact hdrop
  · exact h

theorem paired_allocate (h : ∀ m ∈ ms, m.IsPlain) : Paired (allocate next ms) := by
  induction ms generalizing next with
  | nil => exact .nil
  | cons m ms ih =>
    rw [List.forall_mem_cons] at h
    exact .plain h.1 (ih h.2)

/-- A call and its result are a pair. -/
theorem paired_foldToolResult (dumps : Json → String) (call : ToolCall) (result : ToolResult) :
    Paired (allocate next (foldToolResult dumps call result)) :=
  .call rfl rfl rfl rfl rfl .nil

/-! ### Identities -/

theorem length_allocate : (allocate next ms).length = ms.length := by
  induction ms generalizing next with
  | nil => rfl
  | cons m ms ih => simp [allocate_cons, ih]

theorem map_allocate : (allocate next ms).map Message.toChatMessage = ms := by
  induction ms generalizing next with
  | nil => rfl
  | cons m ms ih => simp [allocate_cons, ih]

theorem mem_of_mem_allocate (h : m ∈ allocate next ms) : m.toChatMessage ∈ ms := by
  simpa only [map_allocate] using List.mem_map_of_mem (f := Message.toChatMessage) h

theorem ref_of_mem_allocate (h : m ∈ allocate next ms) : next ≤ m.ref ∧ m.ref < next + ms.length := by
  induction ms generalizing next with
  | nil => cases h
  | cons x ms ih =>
    rcases List.mem_cons.1 h with rfl | h
    · simp
    · have := ih h
      rw [List.length_cons]
      omega

/-- New messages have references of their own, -/
theorem nodup_allocate : ((allocate next ms).map Message.ref).Nodup := by
  induction ms generalizing next with
  | nil => exact List.nodup_nil
  | cons m ms ih =>
    rw [allocate_cons, List.map_cons, List.nodup_cons]
    refine ⟨fun hmem => ?_, ih⟩
    obtain ⟨m', hm', href⟩ := List.mem_map.1 hmem
    have := ref_of_mem_allocate hm'
    simp only at href
    omega

/-- To take a question back takes messages away only, -/
theorem popUser_sublist : (popUser l).Sublist l := by
  rw [popUser]
  split_ifs
  · exact List.dropLast_sublist l
  · exact List.Sublist.refl l

/-- and so does trimming. -/
theorem trim_sublist : (trim maxHistory l).Sublist l := by
  rw [trim]
  have hcut (k : ℕ) (hk : 2 * maxHistory + k < l.length) :
      (l.take k ++ l.drop (l.length - 2 * maxHistory)).Sublist l := by
    have hdrop := List.drop_sublist_drop_left l (show k ≤ l.length - 2 * maxHistory by omega)
    simpa using hdrop.append_left (l.take k)
  split_ifs with hs hlong hlong
  · exact hcut 1 hlong
  · exact List.Sublist.refl l
  · exact hcut 0 hlong
  · exact List.Sublist.refl l

/-- `new` is put in somewhere, and nothing else is new. -/
def Inserts (new : Message) (l l' : List Message) : Prop :=
  l' = l ∨ ∃ before after, l' = before ++ new :: after ∧ (before ++ after).Sublist l

theorem inserts_replacePrompt : Inserts prompt l (replacePrompt prompt l) := by
  rw [replacePrompt]
  split_ifs
  · exact .inr ⟨[], l.tail, rfl, List.tail_sublist l⟩
  · exact .inr ⟨[], l, rfl, List.Sublist.refl l⟩

theorem inserts_swapPrompt : Inserts prompt l (swapPrompt prompt l) := by
  rw [swapPrompt]
  split_ifs
  · exact .inl rfl
  · exact inserts_replacePrompt

theorem inserts_splice {summary : Message} : Inserts summary l (splice dropIds summary l) := by
  rcases l with _ | ⟨head, rest⟩
  · exact .inl rfl
  · rw [splice]
    split_ifs
    · refine .inr ⟨[head], _, rfl, List.Sublist.cons_cons head ?_⟩
      exact (List.dropWhile_sublist _).trans List.filter_sublist
    · exact .inl rfl

/-- The persistent history: its messages have distinct identities, of those given out so far. -/
structure History where
  messages : List Message := []
  /-- The next identity. -/
  next : ℕ := 0
  lt_next : ∀ m ∈ messages, m.ref < next := by simp
  nodup : (messages.map Message.ref).Nodup := by simp

namespace History

variable {h : History}

/-- Identities given to messages of other lists. -/
def skip (h : History) (n : ℕ) : History where
  messages := h.messages
  next := h.next + n
  lt_next m hm := Nat.lt_add_right n (h.lt_next m hm)
  nodup := h.nodup

/-- Appends new messages. -/
def extend (h : History) (ms : List ChatMessage) : History where
  messages := h.messages ++ allocate h.next ms
  next := h.next + ms.length
  lt_next m hm := (List.mem_append.1 hm).elim (fun hm => Nat.lt_add_right _ (h.lt_next m hm))
    fun hm => (ref_of_mem_allocate hm).2
  nodup := by
    rw [List.map_append]
    refine h.nodup.append nodup_allocate fun ref hold hnew => ?_
    obtain ⟨m, hm, rfl⟩ := List.mem_map.1 hold
    obtain ⟨m', hm', href⟩ := List.mem_map.1 hnew
    have := h.lt_next m hm
    have := ref_of_mem_allocate hm'
    omega

/-- Removes messages. -/
def restrict (h : History) (f : List Message → List Message) (hf : ∀ l, (f l).Sublist l) :
    History where
  messages := f h.messages
  next := h.next
  lt_next m hm := h.lt_next m ((hf _).subset hm)
  nodup := h.nodup.sublist ((hf _).map _)

/-- Puts a new message in, by an edit `f`. -/
def insert (h : History) (m : ChatMessage) (f : Message → List Message → List Message)
    (hf : ∀ new l, Inserts new l (f new l)) : History where
  messages := f { m with ref := h.next } h.messages
  next := h.next + 1
  lt_next m' hm' := by
    rcases hf { m with ref := h.next } h.messages with hsame | ⟨before, after, heq, hsub⟩
    · exact Nat.lt_succ_of_lt (h.lt_next m' (hsame ▸ hm'))
    · rw [heq, List.mem_append, List.mem_cons, or_left_comm, ← List.mem_append] at hm'
      rcases hm' with rfl | hm'
      · exact Nat.lt_succ_self _
      · exact Nat.lt_succ_of_lt (h.lt_next m' (hsub.subset hm'))
  nodup := by
    rcases hf { m with ref := h.next } h.messages with hsame | ⟨before, after, heq, hsub⟩
    · exact hsame.symm ▸ h.nodup
    · have hold := h.nodup.sublist (hsub.map Message.ref)
      rw [List.map_append] at hold
      rw [heq, List.map_append, List.map_cons, List.nodup_middle, List.nodup_cons]
      refine ⟨fun hmem => ?_, hold⟩
      rw [← List.map_append] at hmem
      obtain ⟨m', hm', href⟩ := List.mem_map.1 hmem
      exact (h.lt_next m' (hsub.subset hm')).ne href

@[simp] theorem messages_skip (n : ℕ) : (h.skip n).messages = h.messages := rfl

@[simp] theorem next_skip (n : ℕ) : (h.skip n).next = h.next + n := rfl

@[simp] theorem messages_extend (ms : List ChatMessage) :
    (h.extend ms).messages = h.messages ++ allocate h.next ms := rfl

@[simp] theorem next_extend (ms : List ChatMessage) : (h.extend ms).next = h.next + ms.length := rfl

def refresh (h : History) (prompt : ChatMessage) : History :=
  h.insert prompt Messages.replacePrompt fun _ _ => inserts_replacePrompt

def swapPrompt (h : History) (prompt : ChatMessage) : History :=
  h.insert prompt Messages.swapPrompt fun _ _ => inserts_swapPrompt

def popUser (h : History) : History := h.restrict Messages.popUser fun _ => popUser_sublist

def trim (maxHistory : ℕ) (h : History) : History :=
  h.restrict (Messages.trim maxHistory) fun _ => trim_sublist

def splice (h : History) (dropIds : List ℕ) (summary : ChatMessage) : History :=
  h.insert summary (Messages.splice dropIds) fun _ _ => inserts_splice

end History

end Yuviz.Conversation.Messages
