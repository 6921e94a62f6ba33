import Yuviz.Campaigns.Worker
import Yuviz.Conversation.Tools.Providers.CalCom

/-!
# What guards a dial

The ticks of the worker, campaign by campaign: a tick reads all running campaigns at once,
and each is then dealt with as it was read, while operators pause and change campaigns and
put numbers on the do-not-call lists. The clock is in microseconds.

At every dial the campaign was running and within its hours when the contact was claimed,
the caller id is that of the campaign, and the number was not on the list when it was
looked up; no pause is overwritten, and no campaign is left out of a tick (`Guarded`). So it
is if nobody changes a campaign that the tick has read and not yet dealt with, in what a dial
depends on, if the hours do not end between their check and the claim, and if nothing raises
but at the end of a tick (`Undisturbed`).
-/

namespace Yuviz.Campaigns.DialGuard

open Conversation.Tools (Zone)
open Python (Dict intOfStr)

/-! ### Calling hours -/

/-- A row of `campaigns`. -/
structure Row where
  tenantId : ℕ
  status : CampaignStatus
  callerId : Option String
  maxConcurrentCalls : ℕ
  pacingSeconds : ℤ
  maxAttempts : ℕ
  callingHoursStart : Option String
  callingHoursEnd : Option String
  callingHoursTimezone : Option String
  deriving DecidableEq

def microsPerDay : ℤ := 86400 * 1000000

/-- `_parse_hhmm`, in microseconds, where `none` is a `ValueError`. -/
def parseHhmm (value : String) : Option ℤ := do
  let hour ← intOfStr (String.ofList (value.toList.takeWhile (· ≠ ':')))
  let minute ← intOfStr (String.ofList (value.toList.dropWhile (· ≠ ':')).tail)
  if 0 ≤ hour ∧ hour < 24 ∧ 0 ≤ minute ∧ minute < 60 then
    some ((hour * 60 + minute) * 60 * 1000000)
  else none

/-- The time of day in a zone. -/
def timeOfDay (zone : Zone) (clock : ℤ) : ℤ :=
  (clock + zone.utcoffset (clock / 1000000) * 1000000) % microsPerDay

/-- `_within_calling_hours`, where `none` is an exception. `zoneinfo` is `ZoneInfo`. -/
def withinCallingHours (zoneinfo : String → Option Zone) (row : Row) (clock : ℤ) : Option Bool :=
  let first := row.callingHoursStart.getD ""
  let last := row.callingHoursEnd.getD ""
  if first = "" ∨ last = "" then some true
  else do
    let zone ← zoneinfo (Python.orElse row.callingHoursTimezone "UTC")
    let now := timeOfDay zone clock
    let start ← parseHhmm first
    let finish ← parseHhmm last
    if start ≤ finish then some (decide (start ≤ now ∧ now ≤ finish))
    else some (decide (start ≤ now ∨ now ≤ finish))

/-! ### The worker -/

/-- The do-not-call lists: tenants and numbers. -/
abbrev Dnc := List (ℕ × String)

/-- `dnc.normalize_phone`, which is the calendar's. -/
def normalizePhone : String → List Char := Conversation.Tools.normalizePhone

/-- `dnc.is_blocked`. -/
def Dnc.isBlocked (dnc : Dnc) (tenantId : ℕ) (phoneNumber : String) : Bool :=
  dnc.any fun entry => entry.1 = tenantId ∧ normalizePhone entry.2 = normalizePhone phoneNumber

/-- A claim: the contact, and what was stored of the campaign then, at what time. -/
structure Claim where
  contactId : ℕ
  contact : ContactRow
  stored : Option Row
  clock : ℤ

/-- A call of `originate_call`: the number and the caller id it is given, what was stored of
    the campaign then, and the list when the number was looked up. -/
structure Dial where
  claim : Claim
  tenantId : ℕ
  callerId : String
  stored : Option Row
  dnc : Dnc

/-- What a `_tick_campaign` is about to do. -/
inductive Pc
  | begin
  | claim (inFlight : ℕ) (now : ℤ)
  | progress
  | complete
  | isBlocked (inFlight : ℕ) (now : ℤ) (claim : Claim)
  | block (contactId : ℕ)
  | originate (claim : Claim) (dnc : Dnc)
  | resolve (contactId : ℕ) (status : ContactStatus)

/-- A tick: the campaign that is dealt with, as it was read, and those that come after. -/
structure Tick where
  campaignId : ℕ
  campaign : Row
  pc : Pc
  rest : List (ℕ × Row)

/-- A tick of some campaigns, if there are any. -/
def Tick.ofRows : List (ℕ × Row) → Option Tick
  | [] => none
  | (campaignId, campaign) :: rest => some ⟨campaignId, campaign, .begin, rest⟩

structure State where
  campaigns : Dict ℕ Row
  contacts : List ContactRow
  dnc : Dnc
  clock : ℤ
  lastAttemptAt : Dict ℕ ℤ
  inFlight : Dict ℕ ℕ
  tick : Option Tick
  dials : List Dial
  /-- The campaigns that were paused when the worker set them to completed. -/
  overwritten : List ℕ
  /-- The campaigns that a tick has read and, as it failed, not dealt with. -/
  leftOut : List ℕ

/-- The fields of `CampaignUpdate` that are not null. -/
structure CampaignUpdate where
  callerId : Option String
  maxConcurrentCalls : Option ℕ
  pacingSeconds : Option ℤ
  maxAttempts : Option ℕ
  callingHoursStart : Option String
  callingHoursEnd : Option String
  callingHoursTimezone : Option String

def CampaignUpdate.apply (fields : CampaignUpdate) (row : Row) : Row :=
  { row with
    callerId := fields.callerId.or row.callerId
    maxConcurrentCalls := fields.maxConcurrentCalls.getD row.maxConcurrentCalls
    pacingSeconds := fields.pacingSeconds.getD row.pacingSeconds
    maxAttempts := fields.maxAttempts.getD row.maxAttempts
    callingHoursStart := fields.callingHoursStart.or row.callingHoursStart
    callingHoursEnd := fields.callingHoursEnd.or row.callingHoursEnd
    callingHoursTimezone := fields.callingHoursTimezone.or row.callingHoursTimezone }

namespace State

variable (s : State)

/-- The tick goes on with the same campaign, -/
def goto (tick : Tick) (pc : Pc) : State := { s with tick := some { tick with pc := pc } }

/-- or with the next, if there is one. -/
def next (tick : Tick) : State := { s with tick := Tick.ofRows tick.rest }

/-- An exception ends the tick. -/
def abort (tick : Tick) : State :=
  { s with tick := none, leftOut := s.leftOut ++ tick.rest.map Prod.fst }

def running : List (ℕ × Row) := s.campaigns.filter (·.2.status = .running)

/-- `SELECT * FROM campaigns WHERE status = 'running'`, in some order. -/
def fetch (rows : List (ℕ × Row)) : Option State :=
  if s.tick.isSome ∨ ¬ rows.Perm s.running then none
  else some { s with tick := Tick.ofRows rows }

/-- The campaign is not dialled for too often, and has a caller id. -/
def admits (tick : Tick) (now : ℤ) : Bool :=
  tick.campaign.pacingSeconds * 1000000 ≤ now - (s.lastAttemptAt.get? tick.campaignId).getD 0 &&
    (s.inFlight.get? tick.campaignId).getD 0 < tick.campaign.maxConcurrentCalls &&
      tick.campaign.callerId.getD "" ≠ ""

variable (zoneinfo : String → Option Zone)

/-- `_tick_campaign`, up to the claim. -/
def begin (tick : Tick) (now : ℤ) : State :=
  if !s.admits tick now then s.next tick
  else match withinCallingHours zoneinfo tick.campaign s.clock with
    | none => s.abort tick
    | some false => s.next tick
    | some true => s.goto tick (.claim ((s.inFlight.get? tick.campaignId).getD 0) now)

def isPending (campaignId : ℕ) (contact : ContactRow) : Bool :=
  contact.campaignId = campaignId && contact.status = .pending

/-- `claim_next_pending`, which finds a contact, if there is one. -/
def claim (tick : Tick) (inFlight : ℕ) (now : ℤ) (contactId : Option ℕ) : Option State :=
  match contactId with
  | none =>
    if s.contacts.any (isPending tick.campaignId) then none else some (s.goto tick .progress)
  | some k =>
    match s.contacts[k]? with
    | none => none
    | some contact =>
      if !isPending tick.campaignId contact then none
      else
        let claim : Claim := ⟨k, contact.claim, s.campaigns.get? tick.campaignId, s.clock⟩
        some { s.goto tick (.isBlocked inFlight now claim) with
               contacts := s.contacts.set k contact.claim }

def progress (tick : Tick) : State :=
  if s.contacts.any fun contact =>
      contact.campaignId = tick.campaignId && contact.status = .calling then s.next tick
  else s.goto tick .complete

/-- `set_status(campaign_id, "completed")`, whatever the status is. -/
def complete (tick : Tick) : State :=
  match s.campaigns.get? tick.campaignId with
  | none => s.abort tick
  | some stored =>
    { s.next tick with
      campaigns := s.campaigns.set tick.campaignId { stored with status := .completed }
      overwritten := if stored.status = .paused then tick.campaignId :: s.overwritten
        else s.overwritten }

def isBlocked (tick : Tick) (inFlight : ℕ) (now : ℤ) (claim : Claim) : State :=
  if s.dnc.isBlocked tick.campaign.tenantId claim.contact.phoneNumber then
    s.goto tick (.block claim.contactId)
  else
    { s.goto tick (.originate claim s.dnc) with
      lastAttemptAt := s.lastAttemptAt.set tick.campaignId now
      inFlight := s.inFlight.set tick.campaignId (inFlight + 1) }

/-- `mark_contact_status`. -/
def mark (contactId : ℕ) (status : ContactStatus) : State :=
  { s with contacts := s.contacts.modify contactId fun contact => contact.mark status none }

/-- `originate_call`. Without a Job-UUID the contact is given up, or tried again. -/
def originate (tick : Tick) (claim : Claim) (dnc : Dnc) (reply : Reply) : State :=
  let dial : Dial := ⟨claim, tick.campaign.tenantId, tick.campaign.callerId.getD "",
    s.campaigns.get? tick.campaignId, dnc⟩
  let dialled := { s with dials := s.dials ++ [dial] }
  if reply = .jobUuid then dialled.next tick
  else
    let entry : Entry := ⟨tick.campaignId, claim.contactId, tick.campaign.maxAttempts,
      claim.contact.attemptCount⟩
    dialled.goto tick (.resolve claim.contactId (entry.retry .failed))

def release (campaignId : ℕ) : State :=
  { s with inFlight := s.inFlight.set campaignId ((s.inFlight.get? campaignId).getD 1 - 1) }

end State

inductive Label
  /-- `create_campaign`, under a new id. -/
  | create (campaignId : ℕ) (row : Row)
  | setStatus (campaignId : ℕ) (status : CampaignStatus)
  | updateCampaign (campaignId : ℕ) (fields : CampaignUpdate)
  | upload (campaignId : ℕ) (phoneNumbers : List String)
  | addNumber (tenantId : ℕ) (phoneNumber : String)
  | removeNumbers (dnc : Dnc)
  /-- A job ends, and the listener marks its contact. -/
  | jobComplete (campaignId contactId : ℕ) (status : ContactStatus)
  | pass (micros : ℕ)
  | fetch (rows : List (ℕ × Row))
  | begin (now : ℤ)
  | claim (contactId : Option ℕ)
  | progress
  | complete
  | isBlocked
  | block
  | originate (reply : Reply)
  | resolve
  /-- What the tick awaits raises. -/
  | fail

namespace State

variable (zoneinfo : String → Option Zone)

/-- A change of a campaign that is there. -/
def change (s : State) (campaignId : ℕ) (f : Row → Row) : Option State :=
  (s.campaigns.get? campaignId).map fun row =>
    { s with campaigns := s.campaigns.set campaignId (f row) }

/-- What the tick does. -/
def tickStep (s : State) (tick : Tick) : Label → Option State
  | .begin now => match tick.pc with
    | .begin => some (s.begin zoneinfo tick now)
    | _ => none
  | .claim contactId => match tick.pc with
    | .claim inFlight now => s.claim tick inFlight now contactId
    | _ => none
  | .progress => match tick.pc with
    | .progress => some (s.progress tick)
    | _ => none
  | .complete => match tick.pc with
    | .complete => some (s.complete tick)
    | _ => none
  | .isBlocked => match tick.pc with
    | .isBlocked inFlight now claim => some (s.isBlocked tick inFlight now claim)
    | _ => none
  | .block => match tick.pc with
    | .block contactId => some ((s.mark contactId .blocked).next tick)
    | _ => none
  | .originate reply => match tick.pc with
    | .originate claim dnc => some (s.originate tick claim dnc reply)
    | _ => none
  | .resolve => match tick.pc with
    | .resolve contactId status =>
      some (((s.mark contactId status).release tick.campaignId).next tick)
    | _ => none
  | .fail => match tick.pc with
    | .begin => none
    | _ => some (s.abort tick)
  | _ => none

def step (s : State) : Label → Option State
  | .create campaignId row =>
    if (s.campaigns.get? campaignId).isSome then none
    else some { s with campaigns := s.campaigns.set campaignId row }
  | .setStatus campaignId status => s.change campaignId fun row => { row with status := status }
  | .updateCampaign campaignId fields => s.change campaignId fields.apply
  | .upload campaignId phoneNumbers =>
    some { s with contacts := s.contacts ++ phoneNumbers.map (ContactRow.ofUpload campaignId) }
  | .addNumber tenantId phoneNumber => some { s with dnc := (tenantId, phoneNumber) :: s.dnc }
  | .removeNumbers dnc => some { s with dnc := dnc }
  | .jobComplete campaignId contactId status =>
    some ((s.mark contactId status).release campaignId)
  | .pass micros => some { s with clock := s.clock + micros }
  | .fetch rows => s.fetch rows
  | l => s.tick.bind fun tick => s.tickStep zoneinfo tick l

end State

/-- The worker, on a database without campaigns, at some time. -/
def system (zoneinfo : String → Option Zone) (clock : ℤ) : System State Label where
  init := ⟨[], [], [], clock, [], [], none, [], [], []⟩
  step := State.step zoneinfo

/-! ### The promise -/

/-- The campaign was running and within its hours when the contact was claimed. -/
def Claim.InHours (zoneinfo : String → Option Zone) (claim : Claim) : Prop :=
  ∃ row, claim.stored = some row ∧ row.status = .running ∧
    withinCallingHours zoneinfo row claim.clock = some true

/-- The claim was in hours, the caller id is the stored one, and the number was not on the
    list of the tenant. -/
structure Dial.Allowed (zoneinfo : String → Option Zone) (dial : Dial) : Prop where
  claimed : dial.claim.InHours zoneinfo
  callerId : ∃ row, dial.stored = some row ∧ row.callerId = some dial.callerId ∧
    row.tenantId = dial.tenantId
  notBlocked : dial.dnc.isBlocked dial.tenantId dial.claim.contact.phoneNumber = false

structure Guarded (zoneinfo : String → Option Zone) (s : State) : Prop where
  dials : ∀ dial ∈ s.dials, dial.Allowed zoneinfo
  pauses : s.overwritten = []
  ticked : s.leftOut = []

/-! ### Undisturbed runs -/

/-- What the worker goes by when it dials for a campaign. -/
structure Terms where
  tenantId : ℕ
  status : CampaignStatus
  callerId : Option String
  callingHoursStart : Option String
  callingHoursEnd : Option String
  callingHoursTimezone : Option String
  deriving DecidableEq

def Row.terms (row : Row) : Terms :=
  ⟨row.tenantId, row.status, row.callerId, row.callingHoursStart, row.callingHoursEnd,
    row.callingHoursTimezone⟩

namespace Tick

variable (tick : Tick)

/-- The campaigns of which the tick may still claim a contact, or which it may complete. -/
def unclaimed : List ℕ :=
  match tick.pc with
  | .begin | .claim _ _ | .progress | .complete => tick.campaignId :: tick.rest.map Prod.fst
  | _ => tick.rest.map Prod.fst

/-- A contact has been claimed, and may yet be dialled. -/
def dialling : Bool :=
  match tick.pc with
  | .isBlocked _ _ _ | .originate _ _ => true
  | _ => false

/-- The hours have been checked, and no contact has been claimed. -/
def claiming : Bool :=
  match tick.pc with
  | .claim _ _ => true
  | _ => false

/-- The change of a campaign leaves alone what the tick goes by. -/
def LeftAlone (campaigns : Dict ℕ Row) (campaignId : ℕ) (f : Row → Row) : Prop :=
  ∀ row ∈ campaigns.get? campaignId,
    (campaignId ∈ tick.unclaimed → (f row).terms = row.terms) ∧
      (tick.dialling ∧ campaignId = tick.campaignId → (f row).callerId = row.callerId)

instance (campaigns : Dict ℕ Row) (campaignId : ℕ) (f : Row → Row) :
    Decidable (tick.LeftAlone campaigns campaignId f) := by
  unfold LeftAlone
  infer_instance

end Tick

/-- No change of what a tick goes by, the hours do not end before the claim, and an
    exception leaves no campaign out. -/
def Undisturbed (zoneinfo : String → Option Zone) (s : State) : Label → Prop
  | .setStatus campaignId status => ∀ tick ∈ s.tick,
    tick.LeftAlone s.campaigns campaignId fun row => { row with status := status }
  | .updateCampaign campaignId fields => ∀ tick ∈ s.tick,
    tick.LeftAlone s.campaigns campaignId fields.apply
  | .pass micros => ∀ tick ∈ s.tick, tick.claiming →
    withinCallingHours zoneinfo tick.campaign (s.clock + micros) = some true
  | .begin now => ∀ tick ∈ s.tick, s.admits tick now →
    withinCallingHours zoneinfo tick.campaign s.clock = none → tick.rest = []
  | .fail => ∀ tick ∈ s.tick, tick.rest = []
  | _ => True

instance (zoneinfo : String → Option Zone) (s : State) (l : Label) :
    Decidable (Undisturbed zoneinfo s l) := by
  cases l <;> unfold Undisturbed <;> infer_instance

/-! ### What a tick has read -/

variable {zoneinfo : String → Option Zone} {s s' : State} {tick : Tick}
  {campaigns : Dict ℕ Row} {campaignId : ℕ} {campaign row : Row} {clock : ℤ}

/-- Only the terms of a campaign say when it may call. -/
theorem withinCallingHours_congr (h : row.terms = campaign.terms) :
    withinCallingHours zoneinfo row clock = withinCallingHours zoneinfo campaign clock := by
  simp only [Row.terms, Terms.mk.injEq] at h
  obtain ⟨-, -, -, hstart, hend, hzone⟩ := h
  rw [withinCallingHours, withinCallingHours, hstart, hend, hzone]

/-- The campaign is stored as it was read. -/
def Held (campaigns : Dict ℕ Row) (campaignId : ℕ) (campaign : Row) : Prop :=
  campaign.status = .running ∧
    ∃ row, campaigns.get? campaignId = some row ∧ row.terms = campaign.terms

/-- A row that keeps the terms of a campaign leaves it held. -/
theorem Held.set (h : Held campaigns campaignId campaign) {k : ℕ}
    (hrow : k = campaignId → ∀ stored ∈ campaigns.get? k, row.terms = stored.terms) :
    Held (campaigns.set k row) campaignId campaign := by
  obtain ⟨hrunning, stored, hstored, hterms⟩ := h
  rcases eq_or_ne campaignId k with rfl | hne
  · exact ⟨hrunning, row, by rw [Dict.get?_set, if_pos rfl],
      (hrow rfl stored hstored).trans hterms⟩
  · exact ⟨hrunning, stored, by rwa [Dict.get?_set, if_neg hne], hterms⟩

namespace Tick

/-- The caller id of the tick is the stored one. -/
def Stored (tick : Tick) (campaigns : Dict ℕ Row) : Prop :=
  tick.campaign.callerId.getD "" ≠ "" ∧
    ∃ row, campaigns.get? tick.campaignId = some row ∧
      row.callerId = tick.campaign.callerId ∧ row.tenantId = tick.campaign.tenantId

def Ready (zoneinfo : String → Option Zone) (tick : Tick) (campaigns : Dict ℕ Row) (clock : ℤ) :
    Prop :=
  match tick.pc with
  | .begin | .progress | .complete => Held campaigns tick.campaignId tick.campaign
  | .claim _ _ => Held campaigns tick.campaignId tick.campaign ∧
    withinCallingHours zoneinfo tick.campaign clock = some true ∧
    tick.campaign.callerId.getD "" ≠ ""
  | .isBlocked _ _ claim => claim.InHours zoneinfo ∧ tick.Stored campaigns
  | .originate claim dnc => claim.InHours zoneinfo ∧ tick.Stored campaigns ∧
    dnc.isBlocked tick.campaign.tenantId claim.contact.phoneNumber = false
  | .block _ | .resolve _ _ => True

structure Sound (zoneinfo : String → Option Zone) (tick : Tick) (campaigns : Dict ℕ Row)
    (clock : ℤ) : Prop where
  ready : tick.Ready zoneinfo campaigns clock
  distinct : (tick.campaignId :: tick.rest.map Prod.fst).Nodup
  rest : ∀ e ∈ tick.rest, Held campaigns e.1 e.2

theorem Stored.change (h : tick.Stored campaigns) {f : Row → Row}
    (hf : ∀ row, (f row).tenantId = row.tenantId) (hrow : campaigns.get? campaignId = some row)
    (halone : campaignId = tick.campaignId → (f row).callerId = row.callerId) :
    tick.Stored (campaigns.set campaignId (f row)) := by
  obtain ⟨hne, stored, hstored, hcaller, htenant⟩ := h
  refine ⟨hne, ?_⟩
  rw [Dict.get?_set]
  by_cases hid : tick.campaignId = campaignId
  · obtain rfl := Option.some.inj (hrow.symm.trans (hid ▸ hstored))
    rw [if_pos hid]
    exact ⟨f row, rfl, (halone hid.symm).trans hcaller, (hf row).trans htenant⟩
  · rw [if_neg hid]
    exact ⟨stored, hstored, hcaller, htenant⟩

/-- The campaigns may change, if what the tick goes by does not. -/
theorem Sound.congr (h : tick.Sound zoneinfo campaigns clock) {campaigns' : Dict ℕ Row}
    (hheld : ∀ k c, k ∈ tick.unclaimed → Held campaigns k c → Held campaigns' k c)
    (hstored : tick.dialling → tick.Stored campaigns → tick.Stored campaigns') :
    tick.Sound zoneinfo campaigns' clock := by
  have hrest : ∀ e ∈ tick.rest, e.1 ∈ tick.unclaimed := by
    intro e he
    have hmem : e.1 ∈ tick.rest.map Prod.fst := List.mem_map_of_mem he
    rw [unclaimed]
    split
    all_goals first | exact List.mem_cons_of_mem _ hmem | exact hmem
  refine ⟨?_, h.distinct, fun e he => hheld _ _ (hrest e he) (h.rest e he)⟩
  have hready := h.ready
  cases hpc : tick.pc with
  | begin | progress | complete =>
    rw [Ready, hpc] at hready ⊢
    exact hheld _ _ (by simp [unclaimed, hpc]) hready
  | claim inFlight now =>
    rw [Ready, hpc] at hready ⊢
    exact ⟨hheld _ _ (by simp [unclaimed, hpc]) hready.1, hready.2⟩
  | isBlocked inFlight now claim =>
    rw [Ready, hpc] at hready ⊢
    exact ⟨hready.1, hstored (by rw [dialling, hpc]) hready.2⟩
  | originate claim dnc =>
    rw [Ready, hpc] at hready ⊢
    exact ⟨hready.1, hstored (by rw [dialling, hpc]) hready.2.1, hready.2.2⟩
  | block | resolve =>
    rw [Ready, hpc]
    trivial

theorem Sound.change (h : tick.Sound zoneinfo campaigns clock) {f : Row → Row}
    (hf : ∀ row, (f row).tenantId = row.tenantId) (hrow : campaigns.get? campaignId = some row)
    (halone : tick.LeftAlone campaigns campaignId f) :
    tick.Sound zoneinfo (campaigns.set campaignId (f row)) clock := by
  obtain ⟨hterms, hcaller⟩ := halone row hrow
  refine h.congr (fun k c hk hc => ?_) fun hdialling hstored => ?_
  · refine hc.set fun hid stored hstored => ?_
    obtain rfl := Option.some.inj (hrow.symm.trans hstored)
    exact hterms (hid ▸ hk)
  · exact hstored.change hf hrow fun hid => hcaller ⟨hdialling, hid⟩

/-- Time passes, if that does not end the calling hours of a claim. -/
theorem Sound.pass (h : tick.Sound zoneinfo campaigns clock) {clock' : ℤ}
    (hwithin : tick.claiming → withinCallingHours zoneinfo tick.campaign clock' = some true) :
    tick.Sound zoneinfo campaigns clock' := by
  refine ⟨?_, h.distinct, h.rest⟩
  have hready := h.ready
  cases hpc : tick.pc with
  | claim inFlight now =>
    rw [Ready, hpc] at hready ⊢
    exact ⟨hready.1, hwithin (by rw [claiming, hpc]), hready.2.2⟩
  | _ =>
    rw [Ready, hpc] at hready ⊢
    exact hready

theorem Sound.create (h : tick.Sound zoneinfo campaigns clock)
    (hnew : campaigns.get? campaignId = none) :
    tick.Sound zoneinfo (campaigns.set campaignId row) clock := by
  refine h.congr (fun k c _ hc => ?_) fun _ hstored => ?_
  · exact hc.set fun _ stored hstored => absurd hstored (by simp [hnew])
  · obtain ⟨hne, stored, hstored, hids⟩ := hstored
    have hid : tick.campaignId ≠ campaignId := fun hid => by
      cases hnew.symm.trans (hid ▸ hstored)
    exact ⟨hne, stored, by rwa [Dict.get?_set, if_neg hid], hids⟩

end Tick

/-! ### The invariant -/

structure Inv (zoneinfo : String → Option Zone) (s : State) : Prop where
  keys : (s.campaigns.map Prod.fst).Nodup
  tick : ∀ tick, s.tick = some tick → tick.Sound zoneinfo s.campaigns s.clock
  guarded : Guarded zoneinfo s

theorem Inv.goto (h : Inv zoneinfo s) (htick : s.tick = some tick) (pc : Pc)
    (hpc : Tick.Ready zoneinfo { tick with pc := pc } s.campaigns s.clock) :
    Inv zoneinfo (s.goto tick pc) := by
  have hsound := h.tick tick htick
  refine ⟨h.keys, ?_, { h.guarded with }⟩
  rintro _ ⟨⟩
  exact ⟨hpc, hsound.distinct, hsound.rest⟩

theorem Inv.ofRows (h : Inv zoneinfo s) {rows : List (ℕ × Row)}
    (hdistinct : (rows.map Prod.fst).Nodup) (hrows : ∀ e ∈ rows, Held s.campaigns e.1 e.2) :
    Inv zoneinfo { s with tick := Tick.ofRows rows } := by
  refine ⟨h.keys, ?_, { h.guarded with }⟩
  cases rows with
  | nil =>
    rintro _ ⟨⟩
  | cons e rows =>
    rw [List.forall_mem_cons] at hrows
    rintro _ ⟨⟩
    exact ⟨hrows.1, hdistinct, hrows.2⟩

theorem Inv.next (h : Inv zoneinfo s) (hsound : tick.Sound zoneinfo s.campaigns s.clock) :
    Inv zoneinfo (s.next tick) :=
  h.ofRows (List.nodup_cons.1 hsound.distinct).2 hsound.rest

theorem Inv.abort (h : Inv zoneinfo s) (hrest : tick.rest = []) :
    Inv zoneinfo (s.abort tick) := by
  refine ⟨h.keys, ?_, h.guarded.dials, h.guarded.pauses, ?_⟩
  · rintro _ ⟨⟩
  · rw [State.abort, h.guarded.ticked, hrest]
    rfl

/-- The rows that a tick fetches are held. -/
theorem Inv.fetch (h : Inv zoneinfo s) {rows : List (ℕ × Row)} (hst : s.fetch rows = some s') :
    Inv zoneinfo s' := by
  rw [State.fetch] at hst
  split_ifs at hst with hfetch
  obtain ⟨-, hperm⟩ := not_or.1 hfetch
  obtain rfl := Option.some.inj hst
  rw [not_not] at hperm
  refine h.ofRows ?_ fun e he => ?_
  · rw [(hperm.map Prod.fst).nodup_iff]
    exact h.keys.sublist (List.filter_sublist.map Prod.fst)
  · obtain ⟨hmem, hrunning⟩ := List.mem_filter.1 (hperm.mem_iff.1 he)
    exact ⟨of_decide_eq_true hrunning, e.2, Dict.get?_eq_some_of_mem h.keys hmem, rfl⟩

/-- A campaign may be changed, if what the tick goes by is left alone. -/
theorem Inv.change (h : Inv zoneinfo s) {f : Row → Row}
    (hf : ∀ row, (f row).tenantId = row.tenantId)
    (halone : ∀ tick ∈ s.tick, tick.LeftAlone s.campaigns campaignId f)
    (hst : s.change campaignId f = some s') : Inv zoneinfo s' := by
  obtain ⟨row, hrow, rfl⟩ := Option.map_eq_some_iff.1 hst
  exact ⟨Dict.nodup_keys_set h.keys,
    fun tick htick => (h.tick tick htick).change hf hrow (halone tick htick),
    { h.guarded with }⟩

/-! ### What the tick does -/

section Step

variable {inFlight : ℕ} {now : ℤ}

/-- The campaign is looked at once more when its turn comes, -/
theorem Inv.begin (h : Inv zoneinfo s) (htick : s.tick = some tick) (hpc : tick.pc = .begin)
    (hrest : s.admits tick now → withinCallingHours zoneinfo tick.campaign s.clock = none →
      tick.rest = []) :
    Inv zoneinfo (s.begin zoneinfo tick now) := by
  have hsound := h.tick tick htick
  have hheld := hsound.ready
  rw [Tick.Ready, hpc] at hheld
  rw [State.begin]
  by_cases hadmits : s.admits tick now
  · rw [if_neg (by simp [hadmits])]
    have hcaller : tick.campaign.callerId.getD "" ≠ "" := by
      simpa using (Bool.and_eq_true_iff.1 hadmits).2
    split
    · next hnone => exact h.abort (hrest hadmits hnone)
    · exact h.next hsound
    · next hwithin => exact h.goto htick _ ⟨hheld, hwithin, hcaller⟩
  · rw [if_pos (by simp [hadmits])]
    exact h.next hsound

/-- a contact of it is claimed, -/
theorem Inv.claim {contactId : Option ℕ} (h : Inv zoneinfo s) (htick : s.tick = some tick)
    (hpc : tick.pc = .claim inFlight now) (hst : s.claim tick inFlight now contactId = some s') :
    Inv zoneinfo s' := by
  have hready := (h.tick tick htick).ready
  rw [Tick.Ready, hpc] at hready
  obtain ⟨hheld, hwithin, hcaller⟩ := hready
  cases contactId with
  | none =>
    rw [State.claim] at hst
    split_ifs at hst
    obtain rfl := Option.some.inj hst
    exact h.goto htick _ hheld
  | some k =>
    rw [State.claim] at hst
    dsimp only at hst
    split at hst
    · cases hst
    · next contact hcontact =>
      split_ifs at hst
      obtain rfl := Option.some.inj hst
      obtain ⟨hrunning, row, hrow, hterms⟩ := hheld
      have hstatus : row.status = .running := (congrArg Terms.status hterms).trans hrunning
      have hinv := h.goto htick (.isBlocked inFlight now ⟨k, contact.claim,
        s.campaigns.get? tick.campaignId, s.clock⟩)
        ⟨⟨row, hrow, hstatus, by rwa [withinCallingHours_congr hterms]⟩,
          hcaller, row, hrow, congrArg Terms.callerId hterms, congrArg Terms.tenantId hterms⟩
      exact ⟨hinv.keys, hinv.tick, { hinv.guarded with }⟩

theorem Inv.progress (h : Inv zoneinfo s) (htick : s.tick = some tick)
    (hpc : tick.pc = .progress) : Inv zoneinfo (s.progress tick) := by
  have hsound := h.tick tick htick
  have hheld := hsound.ready
  rw [Tick.Ready, hpc] at hheld
  rw [State.progress]
  split_ifs
  · exact h.next hsound
  · exact h.goto htick _ hheld

/-- The campaign that is completed is running, so that no pause is overwritten. -/
theorem Inv.complete (h : Inv zoneinfo s) (htick : s.tick = some tick)
    (hpc : tick.pc = .complete) : Inv zoneinfo (s.complete tick) := by
  have hsound := h.tick tick htick
  have hheld := hsound.ready
  rw [Tick.Ready, hpc] at hheld
  obtain ⟨hrunning, row, hrow, hterms⟩ := hheld
  have hstatus : row.status = .running := (congrArg Terms.status hterms).trans hrunning
  obtain ⟨hnew, hdistinct⟩ := List.nodup_cons.1 hsound.distinct
  have hrest : ∀ e ∈ tick.rest, Held
      (s.campaigns.set tick.campaignId { row with status := .completed }) e.1 e.2 := fun e he =>
    (hsound.rest e he).set fun hid => absurd (List.mem_map_of_mem he) (hid ▸ hnew)
  have hset : Inv zoneinfo { s with
      campaigns := s.campaigns.set tick.campaignId { row with status := .completed }
      tick := none } :=
    ⟨Dict.nodup_keys_set h.keys, by simp, { h.guarded with }⟩
  have hnext := hset.ofRows hdistinct hrest
  rw [State.complete, hrow]
  dsimp only
  rw [if_neg (by simp [hstatus])]
  exact ⟨hnext.keys, hnext.tick, { h.guarded with }⟩

/-- its number is looked up, -/
theorem Inv.isBlocked {claim : Claim} (h : Inv zoneinfo s) (htick : s.tick = some tick)
    (hpc : tick.pc = .isBlocked inFlight now claim) :
    Inv zoneinfo (s.isBlocked tick inFlight now claim) := by
  have hready := (h.tick tick htick).ready
  rw [Tick.Ready, hpc] at hready
  rw [State.isBlocked]
  split_ifs with hblocked
  · exact h.goto htick _ trivial
  · have hinv := h.goto htick (.originate claim s.dnc)
      ⟨hready.1, hready.2, Bool.eq_false_of_not_eq_true hblocked⟩
    exact ⟨hinv.keys, hinv.tick, { hinv.guarded with }⟩

theorem Inv.mark (h : Inv zoneinfo s) (contactId : ℕ) (status : ContactStatus) :
    Inv zoneinfo (s.mark contactId status) :=
  ⟨h.keys, h.tick, { h.guarded with }⟩

theorem Inv.release (h : Inv zoneinfo s) (campaignId : ℕ) : Inv zoneinfo (s.release campaignId) :=
  ⟨h.keys, h.tick, { h.guarded with }⟩

/-- and then it is dialled. -/
theorem Inv.originate {claim : Claim} {dnc : Dnc} {reply : Reply} (h : Inv zoneinfo s)
    (htick : s.tick = some tick) (hpc : tick.pc = .originate claim dnc) :
    Inv zoneinfo (s.originate tick claim dnc reply) := by
  have hsound := h.tick tick htick
  have hready := hsound.ready
  rw [Tick.Ready, hpc] at hready
  obtain ⟨hclaimed, ⟨hcaller, row, hrow, hcallerId, htenantId⟩, hnotBlocked⟩ := hready
  have hsome : row.callerId = some (tick.campaign.callerId.getD "") := by
    rw [hcallerId]
    cases hid : tick.campaign.callerId with
    | none => exact absurd (by rw [hid]; rfl) hcaller
    | some callerId => rfl
  have hdialled : Inv zoneinfo { s with
      dials := s.dials ++ [⟨claim, tick.campaign.tenantId, tick.campaign.callerId.getD "",
        s.campaigns.get? tick.campaignId, dnc⟩] } := by
    refine ⟨h.keys, h.tick, fun dial hdial => ?_, h.guarded.pauses, h.guarded.ticked⟩
    rcases List.mem_append.1 hdial with hdial | hdial
    · exact h.guarded.dials dial hdial
    · obtain rfl := List.mem_singleton.1 hdial
      exact ⟨hclaimed, ⟨row, hrow, hsome, htenantId⟩, hnotBlocked⟩
  rw [State.originate]
  dsimp only
  split_ifs
  · exact hdialled.next hsound
  · exact hdialled.goto htick _ trivial

theorem Inv.tickStep {l : Label} (h : Inv zoneinfo s) (hg : Undisturbed zoneinfo s l)
    (htick : s.tick = some tick) (hst : s.tickStep zoneinfo tick l = some s') :
    Inv zoneinfo s' := by
  have hsound := h.tick tick htick
  cases l with
  | begin now =>
    rw [State.tickStep] at hst
    split at hst
    · next hpc =>
      obtain rfl := Option.some.inj hst
      exact h.begin htick hpc (hg tick htick)
    · cases hst
  | claim contactId =>
    rw [State.tickStep] at hst
    split at hst
    · next hpc => exact h.claim htick hpc hst
    · cases hst
  | progress =>
    rw [State.tickStep] at hst
    split at hst
    · next hpc =>
      obtain rfl := Option.some.inj hst
      exact h.progress htick hpc
    · cases hst
  | complete =>
    rw [State.tickStep] at hst
    split at hst
    · next hpc =>
      obtain rfl := Option.some.inj hst
      exact h.complete htick hpc
    · cases hst
  | isBlocked =>
    rw [State.tickStep] at hst
    split at hst
    · next hpc =>
      obtain rfl := Option.some.inj hst
      exact h.isBlocked htick hpc
    · cases hst
  | block =>
    rw [State.tickStep] at hst
    split at hst
    · next contactId hpc =>
      obtain rfl := Option.some.inj hst
      exact (h.mark contactId .blocked).next hsound
    · cases hst
  | originate reply =>
    rw [State.tickStep] at hst
    split at hst
    · next hpc =>
      obtain rfl := Option.some.inj hst
      exact h.originate htick hpc
    · cases hst
  | resolve =>
    rw [State.tickStep] at hst
    split at hst
    · next contactId status hpc =>
      obtain rfl := Option.some.inj hst
      exact ((h.mark contactId status).release tick.campaignId).next hsound
    · cases hst
  | fail =>
    rw [State.tickStep] at hst
    split at hst
    · cases hst
    · obtain rfl := Option.some.inj hst
      exact h.abort (hg tick htick)
  | _ => cases hst

end Step

theorem Inv.step {l : Label} (h : Inv zoneinfo s) (hg : Undisturbed zoneinfo s l)
    (hst : s.step zoneinfo l = some s') : Inv zoneinfo s' := by
  cases l with
  | create campaignId row =>
    rw [State.step] at hst
    split_ifs at hst with hnew
    obtain rfl := Option.some.inj hst
    rw [Option.not_isSome_iff_eq_none] at hnew
    exact ⟨Dict.nodup_keys_set h.keys, fun tick htick => (h.tick tick htick).create hnew,
      { h.guarded with }⟩
  | setStatus campaignId status =>
    exact h.change (f := fun row => { row with status := status }) (fun _ => rfl) hg hst
  | updateCampaign campaignId fields =>
    exact h.change (f := fields.apply) (fun _ => rfl) hg hst
  | upload | addNumber | removeNumbers =>
    obtain rfl := Option.some.inj hst
    exact ⟨h.keys, h.tick, { h.guarded with }⟩
  | jobComplete campaignId contactId status =>
    obtain rfl := Option.some.inj hst
    exact (h.mark contactId status).release campaignId
  | pass micros =>
    obtain rfl := Option.some.inj hst
    exact ⟨h.keys, fun tick htick => (h.tick tick htick).pass (hg tick htick),
      { h.guarded with }⟩
  | fetch rows => exact h.fetch hst
  | _ =>
    obtain ⟨tick, htick, hst⟩ := Option.bind_eq_some_iff.1 hst
    exact h.tickStep hg htick hst

/-! ### Runs -/

theorem guarded_of_undisturbed (hs : (system zoneinfo clock).ReachableIf (Undisturbed zoneinfo) s) :
    Guarded zoneinfo s :=
  (hs.invariant ⟨List.nodup_nil, by simp [system], by simp [system], rfl, rfl⟩
    fun _ _ _ h hg hst => h.step hg hst : Inv zoneinfo s).guarded

/-- Only UTC is known. -/
def utcOnly (key : String) : Option Zone := if key = "UTC" then some ⟨0, []⟩ else none

/-- A campaign from nine to five. -/
def officeHours : Row :=
  { tenantId := 1, status := .draft, callerId := some "+14155550199", maxConcurrentCalls := 1,
    pacingSeconds := 5, maxAttempts := 3, callingHoursStart := some "09:00",
    callingHoursEnd := some "17:00", callingHoursTimezone := some "UTC" }

def noon : ℤ := 12 * 3600 * 1000000

/-- The campaign is started, its number dialled, and, once the call is over, it is paused
    between two ticks. -/
theorem guarded_of_dial : ∃ s, (system utcOnly noon).ReachableIf (Undisturbed utcOnly) s ∧
    s.dials.length = 1 ∧ Guarded utcOnly s := by
  have hrun : ((system utcOnly noon).execIf (Undisturbed utcOnly) (system utcOnly noon).init
      ([.create 1 officeHours, .upload 1 ["+14155550100"], .addNumber 1 "+14155550111",
        .setStatus 1 .running, .fetch [(1, { officeHours with status := .running })],
        .begin 10000000, .pass 60000000, .claim (some 0), .isBlocked, .originate .jobUuid,
        .jobComplete 1 0 .completed, .setStatus 1 .paused, .fetch []] : List Label)).map
      (·.dials.length) = some 1 := by
    decide
  obtain ⟨s, hs, hlength⟩ := Option.map_eq_some_iff.1 hrun
  have hreach := System.ReachableIf.init.execIf hs
  exact ⟨s, hreach, hlength, guarded_of_undisturbed hreach⟩

/-- A campaign that is paused once the tick has read it is dialled for, a campaign that is
    paused after its last contact is completed, and one whose hours begin at 25:00 keeps the
    next from being dealt with. -/
theorem not_guarded :
    (¬ ∀ (zoneinfo : String → Option Zone) (clock : ℤ) (s : State),
      (system zoneinfo clock).Reachable s → ∀ dial ∈ s.dials, dial.Allowed zoneinfo) ∧
    (¬ ∀ (zoneinfo : String → Option Zone) (clock : ℤ) (s : State),
      (system zoneinfo clock).Reachable s → s.overwritten = []) ∧
    ¬ ∀ (zoneinfo : String → Option Zone) (clock : ℤ) (s : State),
      (system zoneinfo clock).Reachable s → s.leftOut = [] := by
  let running : Row := { officeHours with status := .running }
  let badHours : Row := { running with callingHoursStart := some "25:00" }
  refine ⟨fun h => ?_, fun h => ?_, fun h => ?_⟩
  · have hrun : ((system utcOnly noon).exec (system utcOnly noon).init
        ([.create 1 running, .upload 1 ["+14155550100"], .fetch [(1, running)],
          .begin 10000000, .setStatus 1 .paused, .claim (some 0), .isBlocked,
          .originate .jobUuid] : List Label)).map
        (·.dials.map fun dial => dial.claim.stored.map Row.status) = some [some .paused] := by
      decide
    obtain ⟨s, hs, hstatus⟩ := Option.map_eq_some_iff.1 hrun
    obtain ⟨dial, hdials, hpaused⟩ := List.map_eq_singleton_iff.1 hstatus
    obtain ⟨row, hrow, hrunning, -⟩ :=
      (h utcOnly noon s (System.Reachable.exec .init hs) dial (by simp [hdials])).claimed
    rw [hrow, Option.map_some, hrunning] at hpaused
    cases hpaused
  · have hrun : ((system utcOnly noon).exec (system utcOnly noon).init
        ([.create 1 running, .fetch [(1, running)], .begin 10000000, .claim none, .progress,
          .setStatus 1 .paused, .complete] : List Label)).map (·.overwritten) = some [1] := by
      decide
    obtain ⟨s, hs, hover⟩ := Option.map_eq_some_iff.1 hrun
    cases hover.symm.trans (h utcOnly noon s (System.Reachable.exec .init hs))
  · have hrun : ((system utcOnly noon).exec (system utcOnly noon).init
        ([.create 1 badHours, .create 2 running, .fetch [(1, badHours), (2, running)],
          .begin 10000000] : List Label)).map (·.leftOut) = some [2] := by
      decide
    obtain ⟨s, hs, hleft⟩ := Option.map_eq_some_iff.1 hrun
    cases hleft.symm.trans (h utcOnly noon s (System.Reachable.exec .init hs))

end Yuviz.Campaigns.DialGuard
