import Yuviz.Conversation.Tools.Orchestrator
import Yuviz.Distinct

/-!
# What the guards of a turn are told

When something was found in the knowledge base, the model is given the question
with it, in the place of what the caller has said. The guards read the same list:
whether the caller has just confirmed the number that was read back, and whether the
day and the time of an appointment have been said.

A retrieved text never counts as a confirmation, and hides the one there is. The
other guards are not moved by it exactly if, at each check that they decide, the day
and the time are said with the text if and only if they are without
(`decisions_eq_iff`).
-/

namespace Yuviz.Conversation

open Python Tools
open Messages (ChatMessage ToolCall ToolResult foldToolResult)

/-! ## The phone number -/

section

open Regex

/-- `_DIGIT_WORDS`. -/
def digitWords : Dict (List Char) Char :=
  [("zero".toList, '0'), ("one".toList, '1'), ("two".toList, '2'), ("three".toList, '3'),
    ("four".toList, '4'), ("five".toList, '5'), ("six".toList, '6'), ("seven".toList, '7'),
    ("eight".toList, '8'), ("nine".toList, '9')]

/-- `_AFFIRMATIVE_RE`. -/
def affirmativeRe : Regex :=
  let rightOrCorrect := any [word "right", word "correct"]
  all [spaces,
    any [word "yes", word "yeah", word "yep", word "yup", word "sure", word "correct", word "right",
      all [word "that", .optional (.char (· = '\'')), word "s", .char isspace, spaces,
        rightOrCorrect],
      all [word "ok", .optional (word "ay")]],
    .boundary]

def isAsciiLetter (c : Char) : Bool := 'a' ≤ c && c ≤ 'z' || 'A' ≤ c && c ≤ 'Z'

/-- `[A-Za-z]+|\d+`. -/
def spokenRe : Regex :=
  .alt (.seq (.char isAsciiLetter) (.many isAsciiLetter)) (.seq digit (.many isdecimal))

end

def extractSpokenDigits (isWord : Char → Bool) (text : String) : List Char :=
  (spokenRe.findall isWord text.toList).flatMap fun w =>
    if w.all isdecimal then w else (digitWords.get? (w.map Char.toLower)).toList

def messageReadsBackPhoneNumber (isWord : Char → Bool) (text callerNumber : String) : Bool :=
  let target := callerNumber.toList.filter isdecimal
  7 ≤ target.length && target.drop (target.length - 7) <:+: extractSpokenDigits isWord text

/-- `_AFFIRMATIVE_RE.match`. -/
def isAffirmative (isWord : Char → Bool) (text : String) : Bool :=
  (affirmativeRe.matchAt isWord (Regex.cells text.toList)).isSome

def callerJustConfirmedPhoneNumber (isWord : Char → Bool) (history : List ChatMessage)
    (callerNumber : String) : Bool :=
  match history.reverse with
  | last :: prior :: _ =>
    prior.role = .assistant && isAffirmative isWord last.content &&
      messageReadsBackPhoneNumber isWord prior.content callerNumber
  | _ => false

/-! ## The retrieved context -/

structure RetrievedContext where
  /-- The contents of the chunks. -/
  chunks : List String
  sources : List String
  includeCitations : Bool := true

def introduction : String := "Relevant information that may help answer the caller's question:\n"

def citations (context : RetrievedContext) : String :=
  if context.includeCitations && !context.sources.isEmpty then
    "\n\nSources: " ++ ", ".intercalate context.sources
  else ""

def formatContext (context : RetrievedContext) : String :=
  introduction ++ ("\n\n".intercalate context.chunks ++ citations context)

def augmented (context : RetrievedContext) (userText : String) : ChatMessage where
  role := .user
  content := formatContext context ++ "\n\nCaller's question: " ++ userText

/-- What the model is given. -/
def messagesForLlm (history : List ChatMessage) (userText : String)
    (context : Option RetrievedContext) : List ChatMessage :=
  let said : ChatMessage := { role := .user, content := userText }
  match context with
  | some context =>
    if context.chunks.isEmpty then history ++ [said]
    else (history ++ [said]).dropLast ++ [augmented context userText]
  | none => history ++ [said]

/-! ## The decisions -/

namespace Tools.ToolCallOrchestrator

variable {P X : Type*} (o : ToolCallOrchestrator P X)

/-- The date of a call is checked: its tool is neither local nor used up. -/
def Checks (t : Turn) (c : Call P) : Prop :=
  c.event.toolName ∉ t.localByName.map Prod.fst ∧
    ¬ (o.maxLocalToolCalls ≤ t.localCalls ∧ c.event.toolName ∈ t.seenLocalNames)

instance (t : Turn) (c : Call P) : Decidable (o.Checks t c) := inferInstanceAs (Decidable (_ ∧ _))

/-- The check in a round: the call, perhaps with a corrected year, and the rejection. -/
def check? (t : Turn) (x : Round P) : Option (Option (ToolCallEvent × Option ToolResult)) :=
  match x.reply with
  | .call c =>
    if o.Checks t c then some (o.checkRequestedDate c.today c.event t.history) else none
  | _ => none

/-- The checks of the rounds of a turn. -/
def checks : Turn → List (Round P) → List (Option (ToolCallEvent × Option ToolResult))
  | _, [] => []
  | t, x :: rounds =>
    match o.step t x with
    | some t' => (o.check? t x).toList ++ checks t' rounds
    | none => []

/-! ### What the checks depend on -/

/-- The date that has to be confirmed: it is neither past nor too far out. -/
def checkedDate (today : Date) (event : ToolCallEvent) : Option Datetime :=
  (dateFieldForTool event.toolName).bind fun dateField =>
    (o.parseRequestedDate (Json.get event.arguments dateField)).bind fun dt =>
      if isInThePast dt today then correctYearIfWrong dt today
      else if isTooFarOut dt today then none
      else some dt

/-- The caller has named days lately, and not this one. -/
def dayUnsaid (dt : Datetime) (history : List ChatMessage) : Bool :=
  recentUserText history ≠ "" && statedDayMismatch o.isWord dt.date.day (recentUserText history)

def timeUnsaid (history : List ChatMessage) : Bool :=
  noTimeStated o.isWord (timeConfirmableTexts history)

/-- As long as the guards decide a call, the day is said in both histories or in neither
    of them, and so is the time, where it counts. -/
def SameSaid (today : Date) (event : ToolCallEvent) (history history' : List ChatMessage) : Prop :=
  ∀ dt count, o.checkedDate today event = some dt → o.recentRejectionCount history = some count →
    count < maxDateConfirmationRejections →
      o.dayUnsaid dt history' = o.dayUnsaid dt history ∧
        (o.dayUnsaid dt history = false → o.timeUnsaid history' = o.timeUnsaid history)

/-- At each check of a turn, the message in the place `n` may be the message `m` as well. -/
def Unmoved (n : ℕ) (m : ChatMessage) : Turn → List (Round P) → Prop
  | _, [] => True
  | t, x :: rounds =>
    ∀ t', o.step t x = some t' →
      (∀ c, x.reply = .call c → o.Checks t c →
        o.SameSaid c.today c.event t.history (t.history.set n m)) ∧
      Unmoved n m t' rounds

end Tools.ToolCallOrchestrator

/-- What the handler of a call has. -/
structure TokenStream (P X : Type*) where
  toolOrchestrator : ToolCallOrchestrator P X
  hasBookingTool : Bool
  callerNumber : String

/-- The safety decisions of a turn. -/
structure Decisions where
  phoneNumberConfirmed : Bool
  forceToolName : Option String
  checks : List (Option (ToolCallEvent × Option ToolResult))

namespace TokenStream

variable {P X : Type*} (s : TokenStream P X)

def justConfirmed (history : List ChatMessage) : Bool :=
  s.hasBookingTool &&
    callerJustConfirmedPhoneNumber s.toolOrchestrator.isWord history s.callerNumber

def forceToolName (history : List ChatMessage) : Option String :=
  if s.justConfirmed history then some "book_appointment" else none

/-- `_token_stream`: the turn of the model, given the messages. -/
def turn (history : List ChatMessage) (x : Tools.ToolCallOrchestrator.Resolution) :
    Tools.ToolCallOrchestrator.Turn :=
  (s.toolOrchestrator.runTurn history (s.forceToolName history) x).init

/-- The decisions of a turn, from whether the number had been confirmed before. -/
def decisions (confirmed : Bool) (history : List ChatMessage)
    (x : Tools.ToolCallOrchestrator.Resolution)
    (rounds : List (Tools.ToolCallOrchestrator.Round P)) : Decisions where
  phoneNumberConfirmed := confirmed || s.justConfirmed history
  forceToolName := s.forceToolName history
  checks := s.toolOrchestrator.checks (s.turn history x) rounds

end TokenStream

/-! ## Confirmations -/

theorem introduction_toList :
    introduction.toList = 'R' :: 'e' :: introduction.toList.drop 2 := by
  decide

theorem augmented_toList (context : RetrievedContext) (userText : String) :
    ∃ rest, (augmented context userText).content.toList = 'R' :: 'e' :: rest := by
  rw [augmented]
  rw [formatContext, String.toList_append, String.toList_append, String.toList_append,
    introduction_toList]
  exact ⟨_, rfl⟩

theorem run_affirmativeRe (isWord : Char → Bool) (rest : List Char) :
    affirmativeRe.run isWord ⟨none, 'R' :: 'e' :: rest⟩ = [] := by
  simp [affirmativeRe, Regex.all, Regex.any, Regex.word, Regex.run, Regex.eqIgnoreCase,
    Regex.spaces, Regex.runMany, isspace]

/-- The formatted context does not begin with a yes. -/
theorem isAffirmative_augmented (isWord : Char → Bool) (context : RetrievedContext)
    (userText : String) : isAffirmative isWord (augmented context userText).content = false := by
  obtain ⟨rest, hrest⟩ := augmented_toList context userText
  have hsnd := Regex.cells_map_snd ('R' :: 'e' :: rest)
  rw [isAffirmative, hrest]
  change (Regex.matchAt isWord affirmativeRe ((none, 'R') :: _)).isSome = false
  rw [Regex.matchAt]
  change ((affirmativeRe.run isWord
    ⟨none, (Regex.cells ('R' :: 'e' :: rest)).map Prod.snd⟩).head?.map _).isSome = false
  rw [hsnd, run_affirmativeRe]
  rfl

theorem callerJustConfirmedPhoneNumber_concat {isWord : Char → Bool} {m : ChatMessage}
    (hm : isAffirmative isWord m.content = false) (history : List ChatMessage)
    (callerNumber : String) :
    callerJustConfirmedPhoneNumber isWord (history ++ [m]) callerNumber = false := by
  rw [callerJustConfirmedPhoneNumber, List.reverse_append]
  rcases history.reverse with _ | ⟨prior, before⟩
  · rfl
  · change (decide (prior.role = .assistant) && isAffirmative isWord m.content && _) = false
    rw [hm, Bool.and_false, Bool.false_and]

/-! ## Checks -/

namespace Tools.ToolCallOrchestrator

variable {P X : Type*} {o : ToolCallOrchestrator P X} {today : Date} {event : ToolCallEvent}
  {history history' : List ChatMessage} {dateField : String} {dt : Datetime}

/-- What the guards of a usable date depend on. -/
theorem checkConfirmed_eq_iff
    (hcount : o.recentRejectionCount history' = o.recentRejectionCount history) :
    o.checkConfirmed dateField dt history' = o.checkConfirmed dateField dt history ↔
      ∀ count, o.recentRejectionCount history = some count → count < maxDateConfirmationRejections →
        o.dayUnsaid dt history' = o.dayUnsaid dt history ∧
          (o.dayUnsaid dt history = false → o.timeUnsaid history' = o.timeUnsaid history) := by
  have hday (h : List ChatMessage) : (recentUserText h ≠ "" ∧
      statedDayMismatch o.isWord dt.date.day (recentUserText h) = true) ↔
        o.dayUnsaid dt h = true := by
    simp [dayUnsaid]
  rw [checkConfirmed, checkConfirmed, hcount]
  simp only [hday]
  cases o.recentRejectionCount history with
  | none => simp
  | some count =>
    by_cases hle : maxDateConfirmationRejections ≤ count
    · simp [hle, Nat.not_lt.2 hle]
    · have hlt := Nat.lt_of_not_le hle
      simp only [Option.map_some, if_neg hle, Option.some.injEq, forall_eq', hlt, true_imp_iff]
      change (if o.dayUnsaid dt history' = true then _
        else if o.timeUnsaid history' = true then _ else _) =
          (if o.dayUnsaid dt history = true then _
            else if o.timeUnsaid history = true then _ else _) ↔ _
      cases o.dayUnsaid dt history' <;> cases o.dayUnsaid dt history <;>
        cases o.timeUnsaid history' <;> cases o.timeUnsaid history <;> simp [rejection]

theorem checkRequestedDate_eq_iff
    (hcount : o.recentRejectionCount history' = o.recentRejectionCount history) :
    o.checkRequestedDate today event history' = o.checkRequestedDate today event history ↔
      o.SameSaid today event history history' := by
  have hpair (e : ToolCallEvent) (a b : Option (Option ToolResult)) :
      a.map (fun result => (e, result)) = b.map (fun result => (e, result)) ↔ a = b :=
    (Option.map_injective fun _ _ h => (Prod.mk.inj h).2).eq_iff
  rw [SameSaid, checkRequestedDate, checkRequestedDate, checkedDate]
  cases dateFieldForTool event.toolName with
  | none => simp
  | some dateField =>
    dsimp only
    rw [Option.bind_some]
    cases o.parseRequestedDate (Json.get event.arguments dateField) with
    | none => simp
    | some dt =>
      dsimp only
      rw [Option.bind_some]
      by_cases hpast : isInThePast dt today = true
      · rw [if_pos hpast, if_pos hpast, if_pos hpast]
        cases correctYearIfWrong dt today with
        | none => simp
        | some corrected =>
          dsimp only
          rw [hpair, checkConfirmed_eq_iff hcount]
          exact ⟨fun h dt count hdt => Option.some.inj hdt ▸ h count, fun h count => h _ count rfl⟩
      · rw [if_neg hpast, if_neg hpast, if_neg hpast]
        split_ifs with hfar
        · simp
        · rw [hpair, checkConfirmed_eq_iff hcount]
          exact ⟨fun h dt count hdt => Option.some.inj hdt ▸ h count, fun h count => h _ count rfl⟩

/-! ### The turn with another question -/

/-- The turn with the message `m` in the place `n`. -/
def Turn.withQuestion (n : ℕ) (m : ChatMessage) (t : Turn) : Turn :=
  { t with history := t.history.set n m }

variable {n : ℕ} {m said : ChatMessage} {t t' : Turn} {result : ToolResult} {c : Call P}
  {x : Round P} {after : Option Resolution}

/-- A result is handled alike, whichever the question, and the history goes on. -/
theorem finish_withQuestion (t : Turn) (hn : n < t.history.length) :
    o.finish (t.withQuestion n m) event result after =
        (o.finish t event result after).withQuestion n m ∧
      t.history <+: (o.finish t event result after).history := by
  have hset : t.history.set n m ++ foldToolResult Json.dumps event.toolCall result =
      (t.history ++ foldToolResult Json.dumps event.toolCall result).set n m :=
    (List.set_append_left _ _ hn).symm
  have hprefix : t.history <+: t.history ++ foldToolResult Json.dumps event.toolCall result :=
    List.prefix_append _ _
  simp only [finish.eq_def, Turn.withQuestion, hset]
  cases result.deterministicResponse with
  | some text => exact ⟨rfl, hprefix⟩
  | none =>
    dsimp only
    split_ifs
    · exact ⟨rfl, hprefix⟩
    · cases after <;> exact ⟨rfl, hprefix⟩
    · exact ⟨rfl, hprefix⟩

/-- So is a call, if the check of its date is the same. -/
theorem onToolCall_withQuestion (t : Turn) (hn : n < t.history.length)
    (hcheck : o.Checks t c → o.checkRequestedDate c.today c.event (t.history.set n m) =
      o.checkRequestedDate c.today c.event t.history) :
    o.onToolCall (t.withQuestion n m) c = (o.onToolCall t c).withQuestion n m ∧
      t.history <+: (o.onToolCall t c).history := by
  simp only [onToolCall.eq_def]
  by_cases hlocal : c.event.toolName ∈ t.localByName.map Prod.fst
  · rw [if_pos hlocal, if_pos (show _ ∈ (t.withQuestion n m).localByName.map Prod.fst from hlocal)]
    split_ifs
    · exact finish_withQuestion { t with localCalls := t.localCalls + 1 } hn
    · cases c.afterLocal with
      | none => exact ⟨rfl, List.prefix_rfl⟩
      | some x =>
        exact finish_withQuestion (o.resolve { t with
          localCalls := t.localCalls + 1
          events := t.events ++ [.localToolCompleted c.event.toolName] } x) hn
  · rw [if_neg hlocal, if_neg (show _ ∉ (t.withQuestion n m).localByName.map Prod.fst from hlocal)]
    by_cases hcap : o.maxLocalToolCalls ≤ t.localCalls ∧ c.event.toolName ∈ t.seenLocalNames
    · rw [if_pos hcap, if_pos (show _ ≤ (t.withQuestion n m).localCalls ∧
        _ ∈ (t.withQuestion n m).seenLocalNames from hcap)]
      exact finish_withQuestion t hn
    · rw [if_neg hcap, if_neg (show ¬ (_ ≤ (t.withQuestion n m).localCalls ∧
        _ ∈ (t.withQuestion n m).seenLocalNames) from hcap)]
      rw [show o.checkRequestedDate c.today c.event (t.withQuestion n m).history =
        o.checkRequestedDate c.today c.event t.history from hcheck ⟨hlocal, hcap⟩]
      rcases o.checkRequestedDate c.today c.event t.history with _ | ⟨event, _ | rejected⟩
      · exact ⟨rfl, List.prefix_rfl⟩
      · dsimp only
        rw [show (t.withQuestion n m).policiesByName = t.policiesByName from rfl]
        cases executeToolCall o.executorRegistry c.provider t.policiesByName c.event.toolName with
        | error result =>
          exact finish_withQuestion { t with
            iteration := t.iteration + 1
            events := t.events ++ [.toolCallStarted c.event.toolName] } hn
        | ok value =>
          cases c.result with
          | none => exact ⟨rfl, List.prefix_rfl⟩
          | some result =>
            exact finish_withQuestion { t with
              iteration := t.iteration + 1
              events := t.events ++ [.toolCallStarted c.event.toolName] } hn
      · exact finish_withQuestion t hn

theorem step_withQuestion (hn : n < t.history.length)
    (hcheck : ∀ c, x.reply = .call c → o.Checks t c →
      o.checkRequestedDate c.today c.event (t.history.set n m) =
        o.checkRequestedDate c.today c.event t.history) :
    o.step (t.withQuestion n m) x = (o.step t x).map (Turn.withQuestion n m) ∧
      ∀ t', o.step t x = some t' → t.history <+: t'.history := by
  simp only [step.eq_def]
  by_cases hover : t.isOver = true
  · rw [if_pos hover, if_pos (show (t.withQuestion n m).isOver = true from hover)]
    exact ⟨rfl, nofun⟩
  · rw [if_neg hover, if_neg (show ¬ (t.withQuestion n m).isOver = true from hover)]
    cases hreply : x.reply with
    | text => exact ⟨rfl, fun t' ht' => Option.some.inj ht' ▸ List.prefix_rfl⟩
    | raised => exact ⟨rfl, fun t' ht' => Option.some.inj ht' ▸ List.prefix_rfl⟩
    | call c =>
      dsimp only
      by_cases hname : c.event.toolName ∈ t.schemas.map Schema.name
      · have hcall := onToolCall_withQuestion { t with
          toolChoice := none
          events := t.events ++ x.tokens.map .token
          generations := t.generations + 1 } hn (hcheck c hreply)
        rw [if_pos hname, if_pos (show _ ∈ (t.withQuestion n m).schemas.map Schema.name from hname)]
        exact ⟨congrArg some hcall.1, fun t' ht' => Option.some.inj ht' ▸ hcall.2⟩
      · rw [if_neg hname,
          if_neg (show _ ∉ (t.withQuestion n m).schemas.map Schema.name from hname)]
        exact ⟨rfl, nofun⟩

theorem isSome_step_withQuestion :
    (o.step (t.withQuestion n m) x).isSome = (o.step t x).isSome := by
  simp only [step.eq_def]
  by_cases hover : t.isOver = true
  · rw [if_pos hover, if_pos (show (t.withQuestion n m).isOver = true from hover)]
  · rw [if_neg hover, if_neg (show ¬ (t.withQuestion n m).isOver = true from hover)]
    cases x.reply with
    | text | raised => rfl
    | call c =>
      dsimp only
      by_cases hname : c.event.toolName ∈ t.schemas.map Schema.name
      · rw [if_pos hname, if_pos (show _ ∈ (t.withQuestion n m).schemas.map Schema.name from hname)]
        rfl
      · rw [if_neg hname,
          if_neg (show _ ∉ (t.withQuestion n m).schemas.map Schema.name from hname)]

/-- The results of the tools are those of the rejections, whatever the caller has asked. -/
theorem recentRejectionCount_set (hsaid : history[n]? = some said) (hrole : said.role ≠ .tool)
    (hm : m.role ≠ .tool) :
    o.recentRejectionCount (history.set n m) = o.recentRejectionCount history := by
  have hmap : (history.set n m).map o.isRejection = history.map o.isRejection := by
    refine map_set_of_eq hsaid ?_
    rw [isRejection, if_neg hm, isRejection, if_neg hrole]
  have hall : (∀ m' ∈ history.set n m, o.isRejection m' ≠ none) ↔
      ∀ m' ∈ history, o.isRejection m' ≠ none := by
    rw [← List.forall_mem_map (f := o.isRejection) (P := (· ≠ none)), hmap, List.forall_mem_map]
  have hcount : o.rejections (history.set n m) = o.rejections history := by
    have hmapped (l : List ChatMessage) :
        o.rejections l = (l.map o.isRejection).countP (· = some true) := by
      rw [rejections, List.countP_map]
      rfl
    rw [hmapped, hmapped, hmap]
  rw [recentRejectionCount, recentRejectionCount, hcount]
  simp only [hall]

theorem check?_eq_some (hreply : x.reply = .call c) (hchecks : o.Checks t c) :
    o.check? t x = some (o.checkRequestedDate c.today c.event t.history) := by
  rw [check?, hreply]
  exact if_pos hchecks

theorem check?_withQuestion (hcheck : ∀ c, x.reply = .call c → o.Checks t c →
    o.checkRequestedDate c.today c.event (t.history.set n m) =
      o.checkRequestedDate c.today c.event t.history) :
    o.check? (t.withQuestion n m) x = o.check? t x := by
  rw [check?, check?]
  cases hreply : x.reply with
  | text | raised => rfl
  | call c =>
    dsimp only
    by_cases hchecks : o.Checks t c
    · rw [if_pos hchecks, if_pos (show o.Checks (t.withQuestion n m) c from hchecks)]
      exact congrArg some (hcheck c hreply hchecks)
    · rw [if_neg hchecks, if_neg (show ¬o.Checks (t.withQuestion n m) c from hchecks)]

theorem checks_withQuestion_eq_iff (hsaid : t.history[n]? = some said) (hrole : said.role ≠ .tool)
    (hm : m.role ≠ .tool) (rounds : List (Round P)) :
    o.checks (t.withQuestion n m) rounds = o.checks t rounds ↔ o.Unmoved n m t rounds := by
  induction rounds generalizing t with
  | nil => exact ⟨fun _ => trivial, fun _ => rfl⟩
  | cons x rounds ih =>
    have hn := (List.getElem?_eq_some_iff.1 hsaid).1
    have hcount := recentRejectionCount_set (o := o) hsaid hrole hm
    rw [checks, checks, Unmoved]
    cases hst : o.step t x with
    | none =>
      have hnone : o.step (t.withQuestion n m) x = none := by
        rw [← Option.isNone_iff_eq_none, ← Option.not_isSome, isSome_step_withQuestion, hst]
        rfl
      rw [hnone]
      exact ⟨fun _ => nofun, fun _ => rfl⟩
    | some t' =>
      by_cases hcheck : ∀ c, x.reply = .call c → o.Checks t c →
          o.checkRequestedDate c.today c.event (t.history.set n m) =
            o.checkRequestedDate c.today c.event t.history
      · -- The check is the same, and so the two turns go on alike.
        obtain ⟨hstep, hprefix⟩ := step_withQuestion hn hcheck
        rw [hst] at hstep
        have hsaid' : t'.history[n]? = some said := by
          obtain ⟨rest, hrest⟩ := hprefix t' hst
          rw [← hrest, List.getElem?_append_left hn, hsaid]
        rw [hstep]
        dsimp only [Option.map_some]
        rw [check?_withQuestion hcheck, List.append_right_inj, ih hsaid']
        refine ⟨fun h t'' ht'' => ?_, fun h => (h t' rfl).2⟩
        obtain rfl := Option.some.inj ht''
        refine ⟨fun c hreply hchecks => ?_, h⟩
        exact (checkRequestedDate_eq_iff hcount).1 (hcheck c hreply hchecks)
      · -- The checks differ.
        push Not at hcheck
        obtain ⟨c, hreply, hchecks, hne⟩ := hcheck
        obtain ⟨t'', hst'⟩ : ∃ t'', o.step (t.withQuestion n m) x = some t'' := by
          rw [← Option.isSome_iff_exists, isSome_step_withQuestion, hst]
          rfl
        rw [hst', check?_eq_some hreply hchecks,
          check?_eq_some hreply (t := t.withQuestion n m) hchecks]
        refine ⟨fun h => absurd (List.cons.inj h).1 hne, fun h => absurd ?_ hne⟩
        exact (checkRequestedDate_eq_iff hcount).2 ((h t' rfl).1 c hreply hchecks)

end Tools.ToolCallOrchestrator

/-! ## Decisions -/

namespace TokenStream

variable {P X : Type*} (s : TokenStream P X)

theorem messagesForLlm_some {context : RetrievedContext} (hchunks : context.chunks ≠ [])
    (history : List ChatMessage) (userText : String) :
    messagesForLlm history userText (some context) = history ++ [augmented context userText] := by
  rw [messagesForLlm]
  simp [hchunks]

theorem justConfirmed_augmented (context : RetrievedContext) (userText : String)
    (history : List ChatMessage) :
    s.justConfirmed (history ++ [augmented context userText]) = false := by
  rw [justConfirmed, callerJustConfirmedPhoneNumber_concat
    (isAffirmative_augmented _ context userText), Bool.and_false]

/-- A turn decides the same with the retrieved context as without exactly if the caller
    does not confirm the number in it, and the context says neither the day nor the time
    of a call for the caller. -/
theorem decisions_eq_iff (confirmed : Bool) (history : List ChatMessage) (userText : String)
    (context : RetrievedContext) (x : Tools.ToolCallOrchestrator.Resolution)
    (rounds : List (Tools.ToolCallOrchestrator.Round P)) :
    s.decisions confirmed (messagesForLlm history userText (some context)) x rounds =
        s.decisions confirmed (messagesForLlm history userText none) x rounds ↔
      context.chunks = [] ∨
        s.justConfirmed (messagesForLlm history userText none) = false ∧
          s.toolOrchestrator.Unmoved history.length (augmented context userText)
            (s.turn (messagesForLlm history userText none) x) rounds := by
  by_cases hchunks : context.chunks = []
  · have hsame : messagesForLlm history userText (some context) =
        messagesForLlm history userText none := by
      rw [messagesForLlm]
      simp [hchunks, messagesForLlm]
    rw [hsame]
    exact ⟨fun _ => .inl hchunks, fun _ => rfl⟩
  · rw [messagesForLlm_some hchunks, or_iff_right hchunks]
    have hforce : s.forceToolName (history ++ [augmented context userText]) = none := by
      rw [forceToolName, justConfirmed_augmented]
      rfl
    cases hjust : s.justConfirmed (messagesForLlm history userText none) with
    | true =>
      refine ⟨fun h => ?_, fun h => Bool.noConfusion h.1⟩
      have hne := congrArg Decisions.forceToolName h
      rw [decisions, decisions] at hne
      dsimp only at hne
      rw [hforce, forceToolName, hjust] at hne
      exact absurd hne nofun
    | false =>
      have hforce' : s.forceToolName (messagesForLlm history userText none) = none := by
        rw [forceToolName, hjust]
        rfl
      have hturn : s.turn (history ++ [augmented context userText]) x =
          (s.turn (messagesForLlm history userText none) x).withQuestion history.length
            (augmented context userText) := by
        have hset : (messagesForLlm history userText none).set history.length
            (augmented context userText) = history ++ [augmented context userText] := by
          simp [messagesForLlm]
        rw [turn, turn, hforce, hforce', ← hset]
        rfl
      have hrole : Messages.Role.user ≠ .tool := by decide
      have hsaid : (s.turn (messagesForLlm history userText none) x).history[history.length]? =
          some { role := .user, content := userText } :=
        List.getElem?_concat_length
      rw [decisions, decisions, justConfirmed_augmented, hjust, hforce, hforce', hturn,
        ← Tools.ToolCallOrchestrator.checks_withQuestion_eq_iff hsaid hrole hrole]
      simp

/-- An agent that books appointments, and reads dates of one form. -/
def calendarAgent : TokenStream Unit Unit where
  toolOrchestrator := { Tools.ToolCallOrchestrator.calendarOrchestrator with
    fromisoformat := fun text =>
      if text = "2026-09-14T14:00:00" then some ⟨⟨2026, 9, 14, by decide⟩, "14:00:00"⟩ else none }
  hasBookingTool := true
  callerNumber := "+15551234567"

def openingHours : RetrievedContext where
  chunks := ["From 9 am."]
  sources := []

/-- The number is read back, and confirmed. -/
def readBack : List ChatMessage :=
  [{ role := .assistant, content := "Is 555 123 4567 right?" }]

/-- The context hides that the caller says yes. -/
theorem not_decisions_eq : ¬ ∀ (P X : Type) (s : TokenStream P X) confirmed history userText
    context x rounds,
      s.decisions confirmed (messagesForLlm history userText (some context)) x rounds =
        s.decisions confirmed (messagesForLlm history userText none) x rounds := by
  intro h
  have heq := congrArg Decisions.forceToolName (h Unit Unit calendarAgent false readBack "Yes."
    openingHours Tools.ToolCallOrchestrator.booking [])
  rw [decisions, decisions] at heq
  dsimp only at heq
  have hwith : calendarAgent.forceToolName
      (messagesForLlm readBack "Yes." (some openingHours)) = none := by
    decide
  have hwithout : calendarAgent.forceToolName (messagesForLlm readBack "Yes." none) =
      some "book_appointment" := by
    decide
  rw [hwith, hwithout] at heq
  exact nomatch heq

end TokenStream

end Yuviz.Conversation
