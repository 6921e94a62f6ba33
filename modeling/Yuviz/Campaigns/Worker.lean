import Mathlib
import Yuviz.Distinct
import Yuviz.Python.Dict
import Yuviz.Python.Str
import Yuviz.System

/-!
# The campaign worker

`services/campaigns/worker.py`, with the statements of `campaign_contacts.py`
and `campaigns.py` it awaits, and with `originate_call` and the event listener
of `originate.py`.

A contact is claimed, looked up in the do-not-call list, and dialled; what has
become of the dial is in three places: the row of the contact, the worker's
`_job_to_contact`, filled once FreeSWITCH's reply has been read, and the events
on another connection, which the listener handles one by one.

A label is what happens between two `await`s of a task, or what the database,
FreeSWITCH or an operator does meanwhile. The ticks of a worker follow each
other; that is not used here, so any number of them may be under way. The
contacts of one upload have one `created_at`, so a claim may take any of them.

A contact that is claimed begins an *attempt*. The list of these is not in the
code: it is what the counter, the rows and the map are compared with. The
Job-UUID of an attempt is its place in the list.
-/

namespace Yuviz.Campaigns

open Python (Dict)

inductive ContactStatus
  | pending | calling | completed | failed | noAnswer | blocked
  deriving DecidableEq

/-- A row of `campaign_contacts`. -/
structure ContactRow where
  campaignId : ℕ
  phoneNumber : String
  status : ContactStatus
  attemptCount : ℕ
  callSessionId : Option String

inductive CampaignStatus
  | draft | running | paused | completed
  deriving DecidableEq

/-- What a tick reads of a row of `campaigns`, besides its status. -/
structure Campaign where
  callerId : Option String
  maxConcurrentCalls : ℕ
  pacingSeconds : ℤ
  maxAttempts : ℕ

/-- `_job_to_contact[job_uuid]`. -/
structure Entry where
  campaignId : ℕ
  contactId : ℕ
  maxAttempts : ℕ
  attemptCount : ℕ
  deriving DecidableEq

/-- What FreeSWITCH has made of the command of an attempt: nothing (it has not
    got it, or has rejected it), or a call, which has ended once its job has. -/
inductive Call
  | unplaced
  | up
  | ended (succeeded : Bool)
  deriving DecidableEq

/-- An attempt to reach a contact. -/
structure Attempt where
  entry : Entry
  /-- The dial, once the slot of it has been taken. -/
  call : Option Call
  /-- The contact has been given another status than `calling`. -/
  closed : Bool

/-- A `BACKGROUND_JOB` event. -/
structure Event where
  job : ℕ
  succeeded : Bool
  detail : String

/-- What `originate_call` makes of the reply to its command: the Job-UUID, the
    empty string or an `OriginateError`, which an end of the stream is too. -/
inductive Reply
  | jobUuid | noJobUuid | error
  deriving DecidableEq

/-- What a `_tick_campaign` is about to do, with its local variables. -/
inductive Pc
  /-- `_tick` has read the campaign as running. -/
  | fetched
  /-- `claim_next_pending`: the `SELECT`, -/
  | select (inFlight : ℕ) (now : ℤ)
  /-- and the `UPDATE` of the row it has locked. -/
  | claim (inFlight : ℕ) (now : ℤ) (contactId : ℕ)
  /-- `get_progress` -/
  | progress
  /-- and `set_status`, when there was no contact to claim. -/
  | complete
  /-- `dnc.is_blocked`, -/
  | isBlocked (inFlight : ℕ) (now : ℤ) (job : ℕ) (entry : Entry)
  /-- and `mark_contact_status` of a contact that is. -/
  | block (job : ℕ) (entry : Entry)
  /-- `originate_call`, before FreeSWITCH has got the command, -/
  | originate (job : ℕ) (entry : Entry)
  /-- and until the reply is read. -/
  | reply (job : ℕ) (entry : Entry)
  /-- `mark_contact_status` in `_resolve_with_retry`. -/
  | resolve (job : ℕ) (entry : Entry) (status : ContactStatus)
  | done

structure Task where
  campaignId : ℕ
  pc : Pc

/-- The event listener. -/
inductive Listener
  /-- Between two connections. -/
  | down
  /-- Reading. -/
  | idle
  /-- `mark_contact_status` in `_on_job_complete`. -/
  | resolve (job : ℕ) (entry : Entry) (status : ContactStatus) (callSessionId : Option String)
  /-- At the end of the stream a read returns at once, with no headers, and the
      loop goes on reading: nothing else in the process runs any more. -/
  | spinning
  deriving DecidableEq

structure State where
  contacts : List ContactRow
  status : Dict ℕ CampaignStatus
  tasks : List Task
  lastAttemptAt : Dict ℕ ℤ
  inFlight : Dict ℕ ℕ
  jobToContact : Dict ℕ Entry
  listener : Listener
  /-- What FreeSWITCH has sent the listener. -/
  events : List Event
  attempts : List Attempt

/-! ## What a contact becomes -/

/-- `_resolve_with_retry`. -/
def Entry.retry (entry : Entry) (status : ContactStatus) : ContactStatus :=
  if entry.attemptCount < entry.maxAttempts then .pending else status

/-- The status of `_on_job_complete`, after the retry. -/
def Entry.resolution (entry : Entry) (succeeded : Bool) (detail : String) : ContactStatus :=
  if succeeded then .completed
  else if "NO_ANSWER".toList <:+: detail.toList then entry.retry .noAnswer
  else entry.retry .failed

/-- `detail.removeprefix("+OK").strip() or None if succeeded else None`. -/
def callSessionId (succeeded : Bool) (detail : String) : Option String :=
  let rest := if "+OK".toList <+: detail.toList then String.ofList (detail.toList.drop 3) else detail
  if succeeded && Python.stripStr rest ≠ "" then some (Python.stripStr rest) else none

/-- `UPDATE campaign_contacts SET status = $2, call_session_id = COALESCE($3, call_session_id)`. -/
def ContactRow.mark (contact : ContactRow) (status : ContactStatus) (callSessionId : Option String) :
    ContactRow :=
  { contact with
    status := status
    callSessionId := callSessionId.or contact.callSessionId }

def ContactRow.claim (contact : ContactRow) : ContactRow :=
  { contact with
    status := .calling
    attemptCount := contact.attemptCount + 1 }

namespace State

variable (s : State)

def goto (t : ℕ) (task : Task) (pc : Pc) : State :=
  { s with tasks := s.tasks.set t { task with pc := pc } }

/-- `mark_contact_status`, which ends an attempt. -/
def mark (job : ℕ) (entry : Entry) (status : ContactStatus) (callSessionId : Option String) :
    State :=
  { s with
    contacts := s.contacts.modify entry.contactId fun contact => contact.mark status callSessionId
    attempts := s.attempts.modify job fun attempt => { attempt with closed := true } }

/-- `_in_flight[campaign_id] = max(0, _in_flight.get(campaign_id, 1) - 1)`. -/
def release (campaignId : ℕ) : State :=
  { s with inFlight := s.inFlight.set campaignId ((s.inFlight.get? campaignId).getD 1 - 1) }

def setCall (job : ℕ) (call : Call) : State :=
  { s with attempts := s.attempts.modify job fun attempt => { attempt with call := some call } }

/-- The row is locked by a claim. -/
def isLocked (contactId : ℕ) : Bool :=
  s.tasks.any fun task =>
    match task.pc with
    | .claim _ _ k => k = contactId
    | _ => false

/-- The contact is a pending one of the campaign. -/
def isPending (campaignId contactId : ℕ) : Bool :=
  (s.contacts[contactId]?).any fun contact =>
    contact.campaignId = campaignId && contact.status = .pending

/-- How many contacts of the campaign are `calling`. -/
def calling (campaignId : ℕ) : ℕ :=
  s.contacts.countP fun contact => contact.campaignId = campaignId && contact.status = .calling

/-- The task, if the process is not stuck. -/
def task? (t : ℕ) : Option Task := if s.listener = .spinning then none else s.tasks[t]?

variable (campaigns : ℕ → Campaign)

/-! ## A tick -/

/-- `_tick_campaign` up to the claim. `withinHours` is `_within_calling_hours`. -/
def start (t : ℕ) (task : Task) (now : ℤ) (withinHours : Bool) : Option State :=
  match task.pc with
  | .fetched =>
    let campaign := campaigns task.campaignId
    let last := (s.lastAttemptAt.get? task.campaignId).getD 0
    let inFlight := (s.inFlight.get? task.campaignId).getD 0
    if now - last < campaign.pacingSeconds * 1000000 then some (s.goto t task .done)
    else if inFlight ≥ campaign.maxConcurrentCalls then some (s.goto t task .done)
    else if campaign.callerId.getD "" = "" then some (s.goto t task .done)
    else if !withinHours then some (s.goto t task .done)
    else some (s.goto t task (.select inFlight now))
  | _ => none

/-- The `SELECT … FOR UPDATE SKIP LOCKED`, which finds a row `row`, or none. -/
def select (t : ℕ) (task : Task) (row : Option ℕ) : Option State :=
  match task.pc with
  | .select inFlight now =>
    match row with
    | some k =>
      if s.isPending task.campaignId k && !s.isLocked k then
        some (s.goto t task (.claim inFlight now k))
      else none
    | none =>
      if (List.range s.contacts.length).all fun k =>
        !(s.isPending task.campaignId k) || s.isLocked k then some (s.goto t task .progress)
      else none
  | _ => none

/-- The `UPDATE` of the claim, and the `COMMIT`. -/
def claim (t : ℕ) (task : Task) : Option State :=
  match task.pc with
  | .claim inFlight now k =>
    (s.contacts[k]?).map fun contact =>
      let entry : Entry := ⟨task.campaignId, k, (campaigns task.campaignId).maxAttempts,
        contact.attemptCount + 1⟩
      { s.goto t task (.isBlocked inFlight now s.attempts.length entry) with
        contacts := s.contacts.set k contact.claim
        attempts := s.attempts ++ [⟨entry, none, false⟩] }
  | _ => none

def progress (t : ℕ) (task : Task) : Option State :=
  match task.pc with
  | .progress =>
    some (if s.calling task.campaignId = 0 then s.goto t task .complete else s.goto t task .done)
  | _ => none

def complete (t : ℕ) (task : Task) : Option State :=
  match task.pc with
  | .complete => some
      { s.goto t task .done with status := s.status.set task.campaignId .completed }
  | _ => none

/-- The answer of `dnc.is_blocked`. The list changes at any time. -/
def isBlocked (t : ℕ) (task : Task) (blocked : Bool) : Option State :=
  match task.pc with
  | .isBlocked inFlight now job entry => some <|
      if blocked then s.goto t task (.block job entry)
      else
        { (s.setCall job .unplaced).goto t task (.originate job entry) with
          lastAttemptAt := s.lastAttemptAt.set task.campaignId now
          inFlight := s.inFlight.set task.campaignId (inFlight + 1) }
  | _ => none

def block (t : ℕ) (task : Task) : Option State :=
  match task.pc with
  | .block job entry => some ((s.mark job entry .blocked none).goto t task .done)
  | _ => none

/-- FreeSWITCH accepts the command; or it rejects it, or cannot be reached. -/
def originate (t : ℕ) (task : Task) (accepted : Bool) : Option State :=
  match task.pc with
  | .originate job entry =>
    some ((s.setCall job (if accepted then .up else .unplaced)).goto t task (.reply job entry))
  | _ => none

/-- FreeSWITCH has accepted the command of an attempt. -/
def isPlaced (job : ℕ) : Bool :=
  (s.attempts[job]?).any fun attempt => attempt.call.isSome && attempt.call ≠ some .unplaced

/-- The reply has been read. -/
def reply (t : ℕ) (task : Task) (r : Reply) : Option State :=
  match task.pc with
  | .reply job entry =>
    if r ≠ .error && !s.isPlaced job then none
    else if r = .jobUuid then some
      { s.goto t task .done with jobToContact := s.jobToContact.set job entry }
    else some (s.goto t task (.resolve job entry (entry.retry .failed)))
  | _ => none

def resolve (t : ℕ) (task : Task) : Option State :=
  match task.pc with
  | .resolve job entry status =>
    some (((s.mark job entry status none).release entry.campaignId).goto t task .done)
  | _ => none

/-- What the task awaits raises, and the tick ends. A claim is rolled back. -/
def fail (t : ℕ) (task : Task) : Option State :=
  match task.pc with
  | .fetched | .done => none
  | _ => some (s.goto t task .done)

/-! ## The listener -/

/-- The listener reads an event: `_on_job_complete` up to its `await`. -/
def event : Option State :=
  match s.listener, s.events with
  | .idle, e :: events => some <|
      match s.jobToContact.get? e.job with
      | none => { s with events := events }
      | some entry =>
        { s with
          events := events
          jobToContact := s.jobToContact.del e.job
          listener := .resolve e.job entry (entry.resolution e.succeeded e.detail)
            (callSessionId e.succeeded e.detail) }
  | _, _ => none

/-- The contact has been marked, and `_on_job_complete` returns. -/
def eventDone : Option State :=
  match s.listener with
  | .resolve job entry status callSessionId => some
      { (s.mark job entry status callSessionId).release entry.campaignId with listener := .idle }
  | _ => none

/-- `_listen_once` raises: the connection is lost, or `mark_contact_status` has raised. -/
def drop : Option State :=
  match s.listener with
  | .idle | .resolve _ _ _ _ => some
      { s with
        listener := .down
        events := [] }
  | _ => none

/-- FreeSWITCH closes the connection. -/
def endOfStream : Option State :=
  match s.listener with
  | .idle => some
      { s with
        listener := .spinning
        events := [] }
  | _ => none

/-! ## FreeSWITCH, the operators and the process -/

def isListening : Bool := s.listener ≠ .down && s.listener ≠ .spinning

/-- The job of a call ends, and its event is sent to who is listening. -/
def hangup (job : ℕ) (succeeded : Bool) (detail : String) : Option State :=
  match (s.attempts[job]?).bind Attempt.call with
  | some .up =>
    let ended := s.setCall job (.ended succeeded)
    some { ended with
      events := if s.isListening then s.events ++ [⟨job, succeeded, detail⟩] else s.events }
  | _ => none

end State

inductive Label
  | fetch (campaignId : ℕ)
  | start (t : ℕ) (now : ℤ) (withinHours : Bool)
  | select (t : ℕ) (row : Option ℕ)
  | claim (t : ℕ)
  | progress (t : ℕ)
  | complete (t : ℕ)
  | isBlocked (t : ℕ) (blocked : Bool)
  | block (t : ℕ)
  | originate (t : ℕ) (accepted : Bool)
  | reply (t : ℕ) (r : Reply)
  | resolve (t : ℕ)
  | fail (t : ℕ)
  | event
  | eventDone
  | drop
  | endOfStream
  | reconnect
  | hangup (job : ℕ) (succeeded : Bool) (detail : String)
  /-- `bulk_insert_contacts`. -/
  | upload (campaignId : ℕ) (phoneNumbers : List String)
  /-- `set_status` of the routes that start, pause and resume. -/
  | setStatus (campaignId : ℕ) (status : CampaignStatus)
  /-- The process of the worker ends, and another is started. -/
  | restart

def ContactRow.ofUpload (campaignId : ℕ) (phoneNumber : String) : ContactRow :=
  ⟨campaignId, phoneNumber, .pending, 0, none⟩

def State.step (campaigns : ℕ → Campaign) (s : State) : Label → Option State
  | .fetch c =>
    if s.listener ≠ .spinning ∧ s.status.get? c = some .running then
      some { s with tasks := s.tasks ++ [⟨c, .fetched⟩] }
    else none
  | .start t now withinHours => do s.start campaigns t (← s.task? t) now withinHours
  | .select t row => do s.select t (← s.task? t) row
  | .claim t => do s.claim campaigns t (← s.task? t)
  | .progress t => do s.progress t (← s.task? t)
  | .complete t => do s.complete t (← s.task? t)
  | .isBlocked t blocked => do s.isBlocked t (← s.task? t) blocked
  | .block t => do s.block t (← s.task? t)
  | .originate t accepted => do s.originate t (← s.task? t) accepted
  | .reply t r => do s.reply t (← s.task? t) r
  | .resolve t => do s.resolve t (← s.task? t)
  | .fail t => do s.fail t (← s.task? t)
  | .event => s.event
  | .eventDone => s.eventDone
  | .drop => s.drop
  | .endOfStream => s.endOfStream
  | .reconnect => if s.listener = .down then some { s with listener := .idle } else none
  | .hangup job succeeded detail => s.hangup job succeeded detail
  | .upload c phoneNumbers => some
      { s with contacts := s.contacts ++ phoneNumbers.map (ContactRow.ofUpload c) }
  | .setStatus c status => some { s with status := s.status.set c status }
  | .restart => some
      { s with
        tasks := []
        lastAttemptAt := []
        inFlight := []
        jobToContact := []
        listener := .down
        events := [] }

/-- The worker, on a database without contacts. -/
def Worker.system (campaigns : ℕ → Campaign) : System State Label where
  init := ⟨[], [], [], [], [], [], .down, [], []⟩
  step := State.step campaigns

end Yuviz.Campaigns
