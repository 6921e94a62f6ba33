import Yuviz.Conversation.Messages
import Yuviz.Conversation.Tools.Providers.CalCom

/-!
# Booking an appointment

`CalendarExecutor`: the string that the model gives for the time is read three times, by
its first ten characters, as an instant, and as a wall clock. The calendar is asked for the
slots of the first, is sent the second, and the caller is told the third.

They are one time, and what is free is found (`Truthful`), if the first is the day of the
second where the business is, and the third is the time there (`Consistent`).
-/

namespace Yuviz.Conversation.Tools

open Messages (ToolResult ToolStatus)
open Python (Json stripStr orElse)

/-! ### Phone numbers -/

/-- `_to_e164`: a national number gets the country code of the caller's, if that is the same
    number with one. -/
def toE164 (phone callerNumber : String) : String :=
  let startsWithPlus := fun s : String => s.toList.head? = some '+'
  let own := digits phone
  let callers := digits callerNumber
  let prefixLength := callers.length - own.length
  if phone = "" ∨ startsWithPlus phone then phone
  else if own.length < 7 then phone
  else if ¬ startsWithPlus callerNumber then phone
  else if ¬ (own.length < callers.length ∧ prefixLength ≤ 3) ∨ ¬ own <:+ callers then phone
  else String.ofList ('+' :: callers.take prefixLength ++ own)

/-! ### What is said -/

def weekdays : List String :=
  ["Monday", "Tuesday", "Wednesday", "Thursday", "Friday", "Saturday", "Sunday"]

def months : List String :=
  ["January", "February", "March", "April", "May", "June", "July", "August", "September",
    "October", "November", "December"]

/-- `strftime("%A, %B %d at %I:%M %p").replace(" 0", " ")`. -/
def WallClock.said (w : WallClock) : String :=
  let hour := (w.hour + 11) % 12 + 1
  let minute := String.ofList (digitsOf 2 w.minute)
  let half := if w.hour < 12 then "AM" else "PM"
  let weekday := weekdays.getD ((w.date.toordinal + 6) % 7) ""
  let month := months.getD (w.date.month - 1) ""
  s!"{weekday}, {month} {w.date.day} at {hour}:{minute} {half}"

/-- What `_format_when` formats: a wall clock, or the string itself if it is none. -/
def whenSaid (requestedDatetime : String) : Option WallClock :=
  (fromisoformat requestedDatetime.toList).map Prod.fst

def formatWhen (requestedDatetime : String) : String :=
  (whenSaid requestedDatetime).elim requestedDatetime WallClock.said

def speakConfirmation (requestedDatetime : String) (smsAttempted : Bool) : String :=
  let base := s!"You're all set — I've booked your appointment for {formatWhen requestedDatetime}."
  if smsAttempted then base ++ " I'll also text you a confirmation." else base

/-- What the tenant has configured. The names of the offsets are by the time of the zone. -/
structure Business where
  zone : Zone
  tzname : ℤ → String
  defaultAttendeePhone : Option String
  hasSms : Bool

def Business.tzAbbreviation (business : Business) (requestedDatetime : String) : String :=
  (whenSaid requestedDatetime).elim "" fun w => business.tzname w.seconds

def Business.smsConfirmation (business : Business) (requestedDatetime : String) : String :=
  let time := formatWhen requestedDatetime
  let abbr := business.tzAbbreviation requestedDatetime
  let time := if abbr ≠ "" then s!"{time} {abbr}" else time
  s!"Your appointment is confirmed for {time}. See you then!"

example : speakConfirmation "2026-08-01T09:05:00" false =
    "You're all set — I've booked your appointment for Saturday, August 1 at 9:05 AM." := by
  decide

/-! ### The executor -/

structure BookArguments where
  requestedDatetime : Option String
  attendeePhone : Option String
  attendeeName : Option String
  notes : String

structure CallContext where
  callerNumber : String
  phoneNumberConfirmed : Bool

structure BookReplies where
  checkAvailability : Bool
  book : BookReply
  findAvailableSlots : Bool

/-- What the calendar is sent. -/
structure BookRequest where
  start : ℤ
  name : String
  phoneNumber : String
  notes : String

/-- The result, `none` being an exception that is not caught, and what has been sent. -/
structure Booked where
  result : Option ToolResult
  request : Option BookRequest
  sms : Option (String × String)
  confirmedDatetime : Option String

def refused (result : ToolResult) : Booked := ⟨result, none, none, none⟩

def missingPhone (reason : List (String × Json)) : ToolResult where
  status := .invalidArgument
  payload := ("missing_fields", .arr [.str "attendee_phone"]) :: reason

def failed : ToolResult where
  status := .failed
  error := some "calendar_error"

/-- The number of the attendee: what is given, or else that of the caller. -/
def BookArguments.phone (args : BookArguments) (context : CallContext) : String :=
  toE164 (stripStr (orElse args.attendeePhone context.callerNumber)) context.callerNumber

/-- The caller's number is used only when it has been confirmed. -/
def BookArguments.unconfirmed (args : BookArguments) (context : CallContext) : Bool :=
  orElse args.attendeePhone "" = "" && context.callerNumber ≠ "" && !context.phoneNumberConfirmed

/-- The answer when the time is not free. -/
def notBooked (slots : List String) : ToolResult where
  status := .success
  payload := [("booked", .bool false), ("available_slots", .arr (slots.map Json.str))]

def booked (booking : BookingResult) (said : String) : ToolResult where
  status := .success
  payload := [("booked", .bool true), ("booking_id", .str booking.bookingId),
    ("confirmed_slot", .str booking.confirmedSlot),
    ("meeting_url", booking.meetingUrl.elim .null .str)]
  deterministicResponse := some said

namespace Calendar

variable (calendar : Calendar)

/-- The alternatives, or none if they cannot be had. -/
def alternatives (zone : Zone) (requestedDatetime : String) (answered : Bool) : ToolResult :=
  match calendar.findAvailableSlots zone requestedDatetime answered with
  | .ok slots => notBooked slots
  | .error _ => notBooked []

/-- `execute`, once the arguments are found to be complete. -/
def bookFor (business : Business) (args : BookArguments) (requestedDatetime phone : String)
    (replies : BookReplies) : Booked :=
  let unavailable :=
    calendar.alternatives business.zone requestedDatetime replies.findAvailableSlots
  match calendar.checkAvailability business.zone requestedDatetime replies.checkAvailability,
      parseLocalIso business.zone requestedDatetime.toList with
  | .error .provider, _ => refused failed
  | .error _, _ => ⟨none, none, none, none⟩
  | .ok true, some start =>
    let request : BookRequest :=
      ⟨start, orElse args.attendeeName "Caller",
        orElse (some phone) (orElse business.defaultAttendeePhone ""), args.notes⟩
    match replies.book.result with
    | .ok booking =>
      let sms :=
        if business.hasSms ∧ phone ≠ "" then
          some (phone, business.smsConfirmation requestedDatetime)
        else none
      ⟨booked booking (speakConfirmation requestedDatetime sms.isSome), request, sms,
        requestedDatetime⟩
    | .error .slotUnavailable => ⟨unavailable, request, none, none⟩
    | .error .invalidAttendeePhone =>
      ⟨missingPhone [("reason", .str "invalid_phone_number")], request, none, none⟩
    | .error _ => ⟨failed, request, none, none⟩
  | .ok _, _ => refused unavailable

def book (business : Business) (args : BookArguments) (context : CallContext)
    (replies : BookReplies) : Booked :=
  let requestedDatetime := orElse args.requestedDatetime ""
  if requestedDatetime = "" then
    refused { status := .invalidArgument,
              payload := [("missing_fields", .arr [.str "requested_datetime"])] }
  else if args.unconfirmed context then
    refused (missingPhone [("reason", .str "phone_not_confirmed")])
  else if args.phone context = "" ∧ orElse business.defaultAttendeePhone "" = "" then
    refused (missingPhone [])
  else calendar.bookFor business args requestedDatetime (args.phone context) replies

end Calendar

/-! ### What the caller hears -/

/-- The wall clock shows the instant where the business is, to the minute. -/
def WallClock.Shows (w : WallClock) (zone : Zone) (instant : ℤ) : Prop :=
  (w.date.toordinal : ℤ) = zone.day instant ∧
    (w.hour * 60 + w.minute : ℤ) = zone.toLocal instant % 86400 / 60

namespace Calendar

variable (calendar : Calendar)

def HasFree (instant : ℤ) : Prop := ∃ slot ∈ calendar.free, slot.instant = instant

/-- What is said of a booking is the time that has been booked, and what the calendar has
    free is not said to be taken, unless it is by then. -/
structure Truthful (business : Business) (requestedDatetime : String) (replies : BookReplies)
    (outcome : Booked) : Prop where
  said : ∀ result response, outcome.result = some result →
    result.deterministicResponse = some response →
      ∃ request w, outcome.request = some request ∧ whenSaid requestedDatetime = some w ∧
        w.Shows business.zone request.start ∧
        response = speakConfirmation requestedDatetime outcome.sms.isSome ∧
        ∀ sms ∈ outcome.sms, sms.2 = business.smsConfirmation requestedDatetime
  found : ∀ instant, parseLocalIso business.zone requestedDatetime.toList = some instant →
    calendar.HasFree instant → (∃ slots, outcome.result = some (notBooked slots)) →
      replies.book = .conflict

/-- The request gets as far as the calendar. -/
def BookReaches (business : Business) (args : BookArguments) (context : CallContext)
    (requestedDatetime : String) : Prop :=
  requestedDatetime ≠ "" ∧ args.unconfirmed context = false ∧
    ¬ (args.phone context = "" ∧ orElse business.defaultAttendeePhone "" = "")

/-- If the instant is free, the string begins with its day where the business is, and is
    the time of it there. -/
def Consistent (zone : Zone) (requestedDatetime : String) : Prop :=
  ∀ instant, parseLocalIso zone requestedDatetime.toList = some instant →
    calendar.HasFree instant →
      dayIso (zone.day instant) = requestedDatetime.toList.take 10 ∧
        ∃ w, whenSaid requestedDatetime = some w ∧ w.Shows zone instant

variable {calendar} {business : Business} {args : BookArguments} {context : CallContext}
  {requestedDatetime : String} {replies : BookReplies}

/-- An instant is found if it is free, on the day that is asked for. -/
theorem checkAvailability_eq (calendar : Calendar) {zone : Zone} {instant : ℤ}
    (h : parseLocalIso zone requestedDatetime.toList = some instant) :
    ∃ free, calendar.checkAvailability zone requestedDatetime true = .ok free ∧
      (free = true ↔
        calendar.HasFree instant ∧ dayIso (zone.day instant) = requestedDatetime.toList.take 10) := by
  refine ⟨_, by rw [checkAvailability, h]; rfl, ?_⟩
  rw [List.any_eq_true]
  constructor
  · rintro ⟨slot, hslot, heq⟩
    obtain ⟨hfree, hday⟩ := calendar.slots_free _ _ _ _ slot hslot
    have heq : slot.instant = instant := of_decide_eq_true heq
    exact ⟨⟨slot, hfree, heq⟩, heq ▸ hday⟩
  · rintro ⟨⟨slot, hfree, rfl⟩, hday⟩
    exact ⟨slot, hday ▸ calendar.slots_day zone slot hfree, decide_eq_true rfl⟩

/-- Nothing is said of a booking, and nothing is said to be taken. -/
theorem truthful_of_silent {outcome : Booked}
    (h : ∀ result, outcome.result = some result →
      result.deterministicResponse = none ∧ result.status ≠ .success) :
    Truthful calendar business requestedDatetime replies outcome where
  said result response hresult hresponse := by
    rw [(h result hresult).1] at hresponse
    cases hresponse
  found _ _ _ := fun ⟨_, hresult⟩ => absurd rfl (h _ hresult).2

theorem alternatives_eq (calendar : Calendar) (zone : Zone) (requestedDatetime : String)
    (answered : Bool) :
    ∃ slots, calendar.alternatives zone requestedDatetime answered = notBooked slots := by
  rw [alternatives]
  split
  · exact ⟨_, rfl⟩
  · exact ⟨_, rfl⟩

/-- The time is said to be taken only if it is, or is by then. -/
theorem truthful_of_unavailable {request : Option BookRequest} {answered : Bool}
    (h : ∀ instant, parseLocalIso business.zone requestedDatetime.toList = some instant →
      calendar.HasFree instant → replies.book = .conflict) :
    Truthful calendar business requestedDatetime replies
      ⟨calendar.alternatives business.zone requestedDatetime answered, request, none, none⟩ where
  said result response hresult hresponse := by
    obtain ⟨slots, hslots⟩ := alternatives_eq calendar business.zone requestedDatetime answered
    obtain rfl := Option.some.inj hresult
    rw [hslots] at hresponse
    cases hresponse
  found instant hparse hfree _ := h instant hparse hfree

/-- What the calendar finds free is free, and is on the day that is asked for. -/
theorem free_of_checkAvailability {zone : Zone} {answered : Bool} {instant : ℤ}
    (hparse : parseLocalIso zone requestedDatetime.toList = some instant)
    (h : calendar.checkAvailability zone requestedDatetime answered = .ok true) :
    calendar.HasFree instant := by
  cases answered with
  | false => cases h
  | true =>
    obtain ⟨free, hcheck, hfree⟩ := checkAvailability_eq calendar hparse
    rw [hcheck] at h
    exact (hfree.1 (Except.ok.inj h)).1

theorem truthful_bookFor {phone : String} (h : calendar.Consistent business.zone requestedDatetime) :
    Truthful calendar business requestedDatetime replies
      (calendar.bookFor business args requestedDatetime phone replies) := by
  rw [bookFor]
  split
  · exact truthful_of_silent fun result hresult => Option.some.inj hresult ▸ ⟨rfl, nofun⟩
  · exact truthful_of_silent nofun
  · next start hcheck hparse =>
    obtain ⟨-, w, hw, hshows⟩ := h start hparse (free_of_checkAvailability hparse hcheck)
    cases hbook : replies.book with
    | ok uid confirmed meetingUrl =>
      refine ⟨fun result response hresult hresponse => ?_, ?_⟩
      · obtain rfl := Option.some.inj hresult
        refine ⟨_, w, rfl, hw, hshows, (Option.some.inj hresponse).symm, fun sms hsms => ?_⟩
        dsimp only at hsms
        split_ifs at hsms
        · exact Option.some.inj hsms ▸ rfl
        · cases hsms
      · rintro _ _ _ ⟨slots, hslots⟩
        cases hslots
    | conflict => exact truthful_of_unavailable fun _ _ _ => hbook
    | invalidPhone =>
      exact truthful_of_silent fun result hresult => Option.some.inj hresult ▸ ⟨rfl, nofun⟩
    | error =>
      exact truthful_of_silent fun result hresult => Option.some.inj hresult ▸ ⟨rfl, nofun⟩
  · next hcheck hnot =>
    refine truthful_of_unavailable fun instant hparse hfree => ?_
    cases hanswered : replies.checkAvailability with
    | false =>
      rw [hanswered] at hcheck
      cases hcheck
    | true =>
      obtain ⟨free', hcheck', hiff⟩ := checkAvailability_eq calendar hparse
      rw [hanswered, hcheck'] at hcheck
      have htrue : free' = true := hiff.2 ⟨hfree, (h instant hparse hfree).1⟩
      exact (hnot instant hparse (Except.ok.inj hcheck ▸ htrue)).elim

/-- The calendar answers, and books. -/
def bookable : BookReplies := ⟨true, .ok "" "" none, true⟩

theorem consistent_of_truthful {phone : String}
    (h : Truthful calendar business requestedDatetime bookable
      (calendar.bookFor business args requestedDatetime phone bookable)) :
    calendar.Consistent business.zone requestedDatetime := by
  intro instant hparse hfree
  obtain ⟨free, hcheck, hiff⟩ := checkAvailability_eq calendar hparse
  have hcheck' : calendar.checkAvailability business.zone requestedDatetime
    bookable.checkAvailability = .ok free := hcheck
  rw [bookFor, hcheck', hparse] at h
  cases free with
  | false =>
    obtain ⟨slots, hslots⟩ := alternatives_eq calendar business.zone requestedDatetime true
    have hconflict := h.found instant hparse hfree ⟨slots, congrArg some hslots⟩
    cases hconflict
  | true =>
    obtain ⟨request, w, hrequest, hw, hshows, -⟩ := h.said _ _ rfl rfl
    obtain rfl := Option.some.inj hrequest
    exact ⟨(hiff.1 rfl).2, w, hw, hshows⟩

theorem book_of_reaches (h : BookReaches business args context (orElse args.requestedDatetime "")) :
    calendar.book business args context replies =
      calendar.bookFor business args (orElse args.requestedDatetime "") (args.phone context)
        replies := by
  obtain ⟨hdatetime, hconfirmed, hphone⟩ := h
  rw [book, if_neg hdatetime, hconfirmed, if_neg Bool.false_ne_true, if_neg hphone]

/-- What the caller hears is true, whatever the calendar answers, if and only if the string
    is consistent, should the request get as far. -/
theorem truthful_iff (calendar : Calendar) (business : Business) (args : BookArguments)
    (context : CallContext) :
    (∀ replies, Truthful calendar business (orElse args.requestedDatetime "") replies
        (calendar.book business args context replies)) ↔
      (BookReaches business args context (orElse args.requestedDatetime "") →
        calendar.Consistent business.zone (orElse args.requestedDatetime "")) := by
  by_cases hreaches : BookReaches business args context (orElse args.requestedDatetime "")
  · simp only [book_of_reaches hreaches]
    exact ⟨fun h _ => consistent_of_truthful (h bookable), fun h _ => truthful_bookFor (h hreaches)⟩
  · refine ⟨fun _ h => absurd h hreaches, fun _ replies => ?_⟩
    rw [book]
    by_cases hdatetime : orElse args.requestedDatetime "" = ""
    · rw [if_pos hdatetime]
      exact truthful_of_silent fun result hresult => Option.some.inj hresult ▸ ⟨rfl, nofun⟩
    rw [if_neg hdatetime]
    by_cases hconfirmed : args.unconfirmed context
    · rw [if_pos hconfirmed]
      exact truthful_of_silent fun result hresult => Option.some.inj hresult ▸ ⟨rfl, nofun⟩
    rw [if_neg hconfirmed]
    by_cases hphone : args.phone context = "" ∧ orElse business.defaultAttendeePhone "" = ""
    · rw [if_pos hphone]
      exact truthful_of_silent fun result hresult => Option.some.inj hresult ▸ ⟨rfl, nofun⟩
    · exact absurd ⟨hdatetime, Bool.eq_false_of_not_eq_true hconfirmed, hphone⟩ hreaches

/-- One slot is free, at eleven in New York. -/
def oneSlot : Calendar :=
  .listing [⟨"2026-08-01T15:00:00.000Z", 63921279600, by decide⟩] [] List.nodup_nil

/-- The model gives the time of it with the offset of UTC, and the caller hears that it is
    at three. -/
theorem not_truthful : ¬ ∀ (calendar : Calendar) (business : Business) (args : BookArguments)
    (context : CallContext) (replies : BookReplies),
      Truthful calendar business (orElse args.requestedDatetime "") replies
        (calendar.book business args context replies) := by
  intro h
  let business : Business := ⟨⟨-14400, []⟩, fun _ => "EDT", none, false⟩
  let args : BookArguments := ⟨some "2026-08-01T15:00:00Z", some "+14155550100", none, ""⟩
  have hreaches : BookReaches business args ⟨"", false⟩ "2026-08-01T15:00:00Z" :=
    ⟨by decide, by decide, by decide⟩
  have htruthful := h oneSlot business args ⟨"", false⟩ bookable
  rw [book_of_reaches hreaches] at htruthful
  obtain ⟨-, w, hw, -, hshows⟩ := consistent_of_truthful htruthful 63921279600
    (by decide) ⟨_, List.mem_cons_self, rfl⟩
  have hhour : (whenSaid "2026-08-01T15:00:00Z").map (fun w => (w.hour, w.minute)) =
      some (15, 0) := by
    decide
  rw [show whenSaid "2026-08-01T15:00:00Z" = some w from hw, Option.map_some, Option.some_inj,
    Prod.mk.injEq] at hhour
  rw [hhour.1, hhour.2] at hshows
  revert hshows
  decide

end Calendar

end Yuviz.Conversation.Tools
