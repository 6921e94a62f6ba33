import Yuviz.Conversation.Messages
import Yuviz.Conversation.Tools.Providers.CalCom

/-!
# Cancelling and moving appointments

`CancelAppointmentExecutor` and `RescheduleAppointmentExecutor` look for the upcoming
bookings of a number that the caller states, and change one if it is the only one, or the
only one of a day that is given as a hint.

It is the booking of the caller, and the only one there is, if nothing that is left out of
consideration is another, and if the number that is stated has a digit (`Sound`).
-/

namespace Yuviz.Conversation.Tools

open Messages (ToolResult ToolStatus)
open Python (Json stripStr orElse)

/-- A change of a booking that the calendar is asked for. -/
inductive Change
  | cancel (bookingId : String)
  | reschedule (bookingId : String) (start : ℤ)
  deriving DecidableEq

def Change.bookingId : Change → String
  | cancel bookingId | reschedule bookingId _ => bookingId

structure CancelArguments where
  attendeePhone : Option String
  requestedDatetimeHint : Option String

structure RescheduleArguments where
  attendeePhone : Option String
  requestedDatetimeHint : Option String
  newRequestedDatetime : Option String

/-- Which of the requests to the calendar are answered, and how. -/
structure Replies where
  findUpcomingBookings : Bool
  cancel : Bool
  checkAvailability : Bool
  reschedule : BookReply
  findAvailableSlots : Bool

/-- The phone number that is stated, without blanks around it. -/
def statedPhone (attendeePhone : Option String) : String := stripStr (orElse attendeePhone "")

/-- The day that is given as a hint, if it is not empty. -/
def hintedDay (hint : Option String) : List Char := (orElse hint "").toList.take 10

def upcomingJson (bookings : List Booking) : Json :=
  .arr (bookings.map fun b => .obj [("booking_id", .str b.uid), ("start", .str b.start)])

def missing (field : String) : ToolResult where
  status := .invalidArgument
  payload := [("missing_fields", .arr [.str field])]

def calendarFailed : ToolResult where
  status := .failed
  error := some "calendar_error"

/-- A change that is not made, and why. -/
def unchanged (what reason : String) (more : List (String × Json)) : ToolResult where
  status := .success
  payload := (what, .bool false) :: ("reason", .str reason) :: more

namespace Calendar

variable (calendar : Calendar)

/-- `candidates`, of the bookings that have been found. -/
def candidates (bookings : List Booking) (hint : Option String) : List Booking :=
  if hintedDay hint = [] then bookings
  else bookings.filter fun b => b.start.toList.take 10 = hintedDay hint

/-- The result, and what the calendar is asked to change. -/
def cancel (args : CancelArguments) (replies : Replies) : ToolResult × List Change :=
  let attendeePhone := statedPhone args.attendeePhone
  if attendeePhone = "" then (missing "attendee_phone", [])
  else match calendar.findUpcomingBookings attendeePhone replies.findUpcomingBookings with
  | .error _ => (calendarFailed, [])
  | .ok [] => (unchanged "cancelled" "no_upcoming_booking" [], [])
  | .ok bookings =>
    match candidates bookings args.requestedDatetimeHint with
    | [target] =>
      if replies.cancel then
        ({ status := .success, payload := [("cancelled", .bool true),
            ("booking_id", .str target.uid), ("cancelled_slot", .str target.start)] },
          [.cancel target.uid])
      else (calendarFailed, [.cancel target.uid])
    | _ => (unchanged "cancelled" "multiple_bookings_found"
        [("upcoming_bookings", upcomingJson bookings)], [])

/-- The answer when the new time is not free. -/
def unavailable (zone : Zone) (newDatetime : String) (answered : Bool) : ToolResult :=
  let slots := match calendar.findAvailableSlots zone newDatetime answered with
    | .ok slots => slots
    | .error _ => []
  unchanged "rescheduled" "requested_time_unavailable"
    [("available_slots", .arr (slots.map Json.str))]

/-- An exception that is not caught is `none`. -/
def reschedule (zone : Zone) (args : RescheduleArguments) (replies : Replies) :
    Option ToolResult × List Change :=
  let attendeePhone := statedPhone args.attendeePhone
  if attendeePhone = "" then (missing "attendee_phone", [])
  else match args.newRequestedDatetime with
  | none | some "" => (missing "new_requested_datetime", [])
  | some newDatetime =>
    match calendar.findUpcomingBookings attendeePhone replies.findUpcomingBookings with
    | .error _ => (calendarFailed, [])
    | .ok [] => (unchanged "rescheduled" "no_upcoming_booking" [], [])
    | .ok bookings =>
      match candidates bookings args.requestedDatetimeHint with
      | [target] =>
        match calendar.checkAvailability zone newDatetime replies.checkAvailability,
            parseLocalIso zone newDatetime.toList with
        | .ok true, some start =>
          match replies.reschedule.result with
          | .ok booking =>
            (some { status := .success, payload := [("rescheduled", .bool true),
                ("old_slot", .str target.start), ("new_slot", .str booking.confirmedSlot),
                ("booking_id", .str booking.bookingId),
                ("meeting_url", booking.meetingUrl.elim .null .str)] },
              [.reschedule target.uid start])
          | .error .slotUnavailable =>
            (calendar.unavailable zone newDatetime replies.findAvailableSlots,
              [.reschedule target.uid start])
          | .error _ => (calendarFailed, [.reschedule target.uid start])
        | .ok _, _ => (calendar.unavailable zone newDatetime replies.findAvailableSlots, [])
        | .error .provider, _ => (calendarFailed, [])
        | .error _, _ => (none, [])
      | _ => (unchanged "rescheduled" "multiple_bookings_found"
          [("upcoming_bookings", upcomingJson bookings)], [])

end Calendar

/-! ### Whose booking it is -/

/-- An attendee has a number, and it is the one that is stated. -/
def Booking.IsOf (b : Booking) (phone : String) : Prop :=
  ∃ attendee ∈ b.attendees, ∃ number, attendee = some number ∧ number ≠ "" ∧ Agree number phone

/-- It is a booking of the number, on the day of the hint where the business is. -/
def Booking.IsMeant (b : Booking) (zone : Zone) (phone : String) (hint : Option String) : Prop :=
  b.IsOf phone ∧ (hintedDay hint ≠ [] → dayIso (zone.day b.instant) = hintedDay hint)

namespace Calendar

variable (calendar : Calendar) (zone : Zone) (phone : String) (hint : Option String)

/-- What is changed is meant, and nothing else is. -/
def Confined (changes : List Change) : Prop :=
  ∀ c ∈ changes, ∀ b ∈ calendar.upcoming, c.bookingId = b.uid →
    b.IsMeant zone phone hint ∧ ∀ b' ∈ calendar.upcoming, b'.IsMeant zone phone hint → b' = b

/-- The bookings of the number that the executors know of. -/
def considered : List Booking :=
  ((calendar.upcoming.take 100).filter (·.matches phone)).take 5

/-- The booking is left out: it is not among the first, or is of another day of UTC. -/
def LeftOut (b : Booking) : Prop :=
  b ∉ calendar.considered phone ∨
    hintedDay hint ≠ [] ∧ dayIso (b.instant / 86400) ≠ hintedDay hint

/-- If there is one candidate: the number that is stated has a digit, or an attendee of the
    candidate has a number without one; the candidate is on the same day of UTC and where
    the business is, if there is a hint; and no booking that is left out is meant. -/
def Sound : Prop :=
  ∀ b, candidates (calendar.considered phone) hint = [b] →
    (digits phone ≠ [] ∨ ∃ attendee ∈ b.attendees, ∃ number,
      attendee = some number ∧ number ≠ "" ∧ digits number = []) ∧
    (hintedDay hint ≠ [] → dayIso (zone.day b.instant) = dayIso (b.instant / 86400)) ∧
    ∀ b' ∈ calendar.upcoming, calendar.LeftOut phone hint b' → ¬ b'.IsMeant zone phone hint

variable {calendar zone phone hint} {b : Booking}

theorem mem_upcoming_of_mem_considered (h : b ∈ calendar.considered phone) :
    b ∈ calendar.upcoming ∧ b.matches phone :=
  have hfilter := List.mem_filter.1 (List.mem_of_mem_take h)
  ⟨List.mem_of_mem_take hfilter.1, hfilter.2⟩

theorem mem_candidates_iff {bookings : List Booking} : b ∈ candidates bookings hint ↔
    b ∈ bookings ∧ (hintedDay hint ≠ [] → dayIso (b.instant / 86400) = hintedDay hint) := by
  rw [candidates]
  split_ifs with hempty
  · simp [hempty]
  · simp [hempty, b.utc]

/-- What is left out is no candidate, and nothing else of the number is none. -/
theorem mem_candidates_iff_not_leftOut :
    b ∈ candidates (calendar.considered phone) hint ↔ ¬ calendar.LeftOut phone hint b := by
  rw [mem_candidates_iff, LeftOut, not_or, not_not, not_and, not_not]

theorem isOf_of_digits (h : b.matches phone) (hdigits : digits phone ≠ []) : b.IsOf phone := by
  obtain ⟨attendee, hmem, heq⟩ := List.any_eq_true.1 h
  have heq : normalizePhone (attendee.getD "") = normalizePhone phone := of_decide_eq_true heq
  have hne : attendee.getD "" ≠ "" := by
    intro hempty
    rw [hempty] at heq
    exact hdigits (normalizePhone_eq_nil.1 (heq.symm.trans rfl))
  cases attendee with
  | none => exact absurd rfl hne
  | some number => exact ⟨_, hmem, number, rfl, hne, normalizePhone_eq_iff.1 heq⟩

/-- A booking that matches is of the number if it matches by a digit, or by a number that
    has none. -/
theorem isOf_iff_of_matches (h : b.matches phone) :
    b.IsOf phone ↔ digits phone ≠ [] ∨ ∃ attendee ∈ b.attendees, ∃ number,
      attendee = some number ∧ number ≠ "" ∧ digits number = [] := by
  constructor
  · rintro ⟨attendee, hmem, number, hnumber, hne, hagree⟩
    by_cases hdigits : digits phone = []
    · refine .inr ⟨attendee, hmem, number, hnumber, hne, ?_⟩
      rwa [← normalizePhone_eq_nil, normalizePhone_eq_iff.2 hagree, normalizePhone_eq_nil]
    · exact .inl hdigits
  · rintro (hdigits | ⟨attendee, hmem, number, hnumber, hne, hnone⟩)
    · exact isOf_of_digits h hdigits
    · by_cases hdigits : digits phone = []
      · refine ⟨attendee, hmem, number, hnumber, hne, normalizePhone_eq_iff.1 ?_⟩
        rw [normalizePhone_eq_nil.2 hnone, normalizePhone_eq_nil.2 hdigits]
      · exact isOf_of_digits h hdigits

/-- A candidate is meant, and the only one that is, just if nothing is wrong with it. -/
theorem meant_iff (hb : candidates (calendar.considered phone) hint = [b]) :
    (b.IsMeant zone phone hint ∧
        ∀ b' ∈ calendar.upcoming, b'.IsMeant zone phone hint → b' = b) ↔
      (digits phone ≠ [] ∨ ∃ attendee ∈ b.attendees, ∃ number,
        attendee = some number ∧ number ≠ "" ∧ digits number = []) ∧
      (hintedDay hint ≠ [] → dayIso (zone.day b.instant) = dayIso (b.instant / 86400)) ∧
      ∀ b' ∈ calendar.upcoming, calendar.LeftOut phone hint b' → ¬ b'.IsMeant zone phone hint := by
  have hmem : b ∈ candidates (calendar.considered phone) hint := by simp [hb]
  obtain ⟨hconsidered, hday⟩ := mem_candidates_iff.1 hmem
  have hmatches := (mem_upcoming_of_mem_considered hconsidered).2
  have honly : (∀ b' ∈ calendar.upcoming, b'.IsMeant zone phone hint → b' = b) ↔
      ∀ b' ∈ calendar.upcoming, calendar.LeftOut phone hint b' →
        ¬ b'.IsMeant zone phone hint := by
    refine ⟨fun h b' hb' hout hmeant => ?_, fun h b' hb' hmeant => ?_⟩
    · rw [h b' hb' hmeant] at hout
      exact mem_candidates_iff_not_leftOut.1 hmem hout
    · have hcandidate := mem_candidates_iff_not_leftOut.2 fun hout => h b' hb' hout hmeant
      rw [hb] at hcandidate
      exact List.mem_singleton.1 hcandidate
  rw [honly, Booking.IsMeant, isOf_iff_of_matches hmatches, and_assoc]
  refine and_congr_right fun _ => and_congr_left fun _ => forall_congr' fun hne => ?_
  rw [hday hne]

/-- A change of the only candidate, whatever it is. -/
theorem confined_singleton_iff {c : Change}
    (hb : candidates (calendar.considered phone) hint = [b]) (hc : c.bookingId = b.uid) :
    calendar.Confined zone phone hint [c] ↔ calendar.Sound zone phone hint := by
  have hmem : b ∈ candidates (calendar.considered phone) hint := by simp [hb]
  have hup := (mem_upcoming_of_mem_considered (mem_candidates_iff.1 hmem).1).1
  have hsound : calendar.Sound zone phone hint ↔ (b.IsMeant zone phone hint ∧
      ∀ b' ∈ calendar.upcoming, b'.IsMeant zone phone hint → b' = b) := by
    rw [meant_iff hb, Sound, hb]
    exact ⟨fun h => h b rfl, fun h b' heq => List.singleton_inj.1 heq ▸ h⟩
  rw [hsound]
  refine ⟨fun h => h c List.mem_cons_self b hup hc, fun h c' hc' b' hb' heq => ?_⟩
  obtain rfl := List.mem_singleton.1 hc'
  have hsame : b' = b := List.inj_on_of_nodup_map calendar.nodup hb' hup (heq.symm.trans hc)
  rwa [hsame]

theorem confined_nil : calendar.Confined zone phone hint [] := nofun

/-- If there is not one candidate, nothing is wrong with it. -/
theorem sound_of_ne (h : ∀ b, candidates (calendar.considered phone) hint ≠ [b]) :
    calendar.Sound zone phone hint := fun b hb => absurd hb (h b)

/-! ### The executors -/

/-- An executor that changes the only candidate, if it gets as far. -/
theorem confined_iff {changes : List Change} {reached : Prop}
    (hchange : reached → ∀ b, candidates (calendar.considered phone) hint = [b] →
      ∃ c, changes = [c] ∧ c.bookingId = b.uid)
    (hnone : (reached → ∀ b, candidates (calendar.considered phone) hint ≠ [b]) → changes = []) :
    calendar.Confined zone phone hint changes ↔ (reached → calendar.Sound zone phone hint) := by
  by_cases hone : reached ∧ ∃ b, candidates (calendar.considered phone) hint = [b]
  · obtain ⟨hreached, b, hb⟩ := hone
    obtain ⟨c, rfl, hc⟩ := hchange hreached b hb
    rw [confined_singleton_iff hb hc]
    exact ⟨fun h _ => h, fun h => h hreached⟩
  · have hno : reached → ∀ b, candidates (calendar.considered phone) hint ≠ [b] :=
      fun hreached b hb => hone ⟨hreached, b, hb⟩
    rw [hnone hno]
    exact ⟨fun _ hreached => sound_of_ne (hno hreached), fun _ => confined_nil⟩

theorem findUpcomingBookings_eq (answered : Bool) : calendar.findUpcomingBookings phone answered =
    if answered then .ok (calendar.considered phone) else .error .provider := by
  cases answered
  · rfl
  · rfl

/-- Of no bookings there is no candidate. -/
theorem ne_nil_of_candidates {bookings : List Booking} (h : candidates bookings hint = [b]) :
    bookings ≠ [] := by
  rintro rfl
  rw [candidates] at h
  split_ifs at h
  cases h

/-- The executor of `cancel_appointment` gets as far as its candidates. -/
def CancelReaches (args : CancelArguments) (replies : Replies) : Prop :=
  statedPhone args.attendeePhone ≠ "" ∧ replies.findUpcomingBookings

theorem cancel_confined_iff {args : CancelArguments} {replies : Replies} :
    calendar.Confined zone (statedPhone args.attendeePhone) args.requestedDatetimeHint
        (calendar.cancel args replies).2 ↔
      (CancelReaches args replies →
        calendar.Sound zone (statedPhone args.attendeePhone) args.requestedDatetimeHint) := by
  refine confined_iff ?_ fun hno => ?_
  · rintro ⟨hphone, hfind⟩ b hb
    refine ⟨.cancel b.uid, ?_, rfl⟩
    have hne := ne_nil_of_candidates hb
    rw [cancel, if_neg hphone, findUpcomingBookings_eq, if_pos hfind]
    split
    · next h => cases h
    · next h => exact absurd (Except.ok.inj h) hne
    · next bookings _ h =>
      obtain rfl := Except.ok.inj h
      rw [hb]
      cases replies.cancel
      · rfl
      · rfl
  · rw [cancel]
    by_cases hphone : statedPhone args.attendeePhone = ""
    · rw [if_pos hphone]
    · rw [if_neg hphone, findUpcomingBookings_eq]
      split
      · rfl
      · rfl
      · next bookings _ h =>
        by_cases hfind : replies.findUpcomingBookings
        · rw [if_pos hfind] at h
          obtain rfl := Except.ok.inj h
          split
          · next b hb => exact absurd hb (hno ⟨hphone, hfind⟩ b)
          · rfl
        · rw [if_neg hfind] at h
          cases h

/-- The executor of `reschedule_appointment` gets as far as to move its only candidate: the
    new time is free. -/
def RescheduleReaches (zone : Zone) (args : RescheduleArguments) (replies : Replies) : Prop :=
  statedPhone args.attendeePhone ≠ "" ∧ replies.findUpcomingBookings ∧
    ∃ newDatetime, newDatetime ≠ "" ∧ args.newRequestedDatetime = some newDatetime ∧
      calendar.checkAvailability zone newDatetime replies.checkAvailability = .ok true

/-- What is free has an instant. -/
theorem exists_of_checkAvailability {requested : String} {answered free : Bool}
    (h : calendar.checkAvailability zone requested answered = .ok free) :
    ∃ start, parseLocalIso zone requested.toList = some start := by
  rw [checkAvailability] at h
  split_ifs at h
  split at h
  · cases h
  · next start hstart => exact ⟨start, hstart⟩

theorem reschedule_confined_iff {args : RescheduleArguments} {replies : Replies} :
    calendar.Confined zone (statedPhone args.attendeePhone) args.requestedDatetimeHint
        (calendar.reschedule zone args replies).2 ↔
      (calendar.RescheduleReaches zone args replies →
        calendar.Sound zone (statedPhone args.attendeePhone) args.requestedDatetimeHint) := by
  refine confined_iff ?_ fun hno => ?_
  · rintro ⟨hphone, hfind, newDatetime, hnew, hargs, hfree⟩ b hb
    obtain ⟨start, hstart⟩ := exists_of_checkAvailability hfree
    refine ⟨.reschedule b.uid start, ?_, rfl⟩
    have hne := ne_nil_of_candidates hb
    rw [reschedule, if_neg hphone, hargs, findUpcomingBookings_eq, if_pos hfind]
    split
    · next h => cases h
    · next h => exact absurd (Option.some.inj h) hnew
    · next h =>
      obtain rfl := Option.some.inj h
      split
      · next h => cases h
      · next h => exact absurd (Except.ok.inj h) hne
      · next bookings _ h =>
        obtain rfl := Except.ok.inj h
        rw [hb, hfree, hstart]
        dsimp only
        split
        · rfl
        · rfl
        · rfl
  · rw [reschedule]
    by_cases hphone : statedPhone args.attendeePhone = ""
    · rw [if_pos hphone]
    rw [if_neg hphone, findUpcomingBookings_eq]
    split
    · rfl
    · rfl
    · next newDatetime hnew hargs =>
      split
      · rfl
      · rfl
      · next bookings _ h =>
        by_cases hfind : replies.findUpcomingBookings
        · rw [if_pos hfind] at h
          obtain rfl := Except.ok.inj h
          split
          · next b hb =>
            split
            · next hfree _ =>
              exact absurd hb (hno ⟨hphone, hfind, newDatetime, hnew, hargs, hfree⟩ b)
            · rfl
            · rfl
            · rfl
          · rfl
        · rw [if_neg hfind] at h
          cases h

/-- What the executors ask the calendar to change is the only booking that is meant, if and
    only if nothing is wrong with their only candidate, should they get as far. -/
theorem only_meant_changed_iff (calendar : Calendar) (zone : Zone) (toCancel : CancelArguments)
    (toMove : RescheduleArguments) (replies : Replies) :
    (calendar.Confined zone (statedPhone toCancel.attendeePhone) toCancel.requestedDatetimeHint
        (calendar.cancel toCancel replies).2 ↔
      (CancelReaches toCancel replies →
        calendar.Sound zone (statedPhone toCancel.attendeePhone)
          toCancel.requestedDatetimeHint)) ∧
    (calendar.Confined zone (statedPhone toMove.attendeePhone) toMove.requestedDatetimeHint
        (calendar.reschedule zone toMove replies).2 ↔
      (calendar.RescheduleReaches zone toMove replies →
        calendar.Sound zone (statedPhone toMove.attendeePhone) toMove.requestedDatetimeHint)) :=
  ⟨cancel_confined_iff, reschedule_confined_iff⟩

/-- Nothing is wrong if a digit is stated, the calendar has at most a hundred upcoming
    bookings, at most five of them of the number, and each of these is on the same day of
    UTC and where the business is. -/
theorem sound_of_few (hdigits : digits phone ≠ []) (hall : calendar.upcoming.length ≤ 100)
    (hfew : (calendar.upcoming.filter (·.matches phone)).length ≤ 5)
    (hday : ∀ b ∈ calendar.upcoming, b.IsOf phone →
      dayIso (zone.day b.instant) = dayIso (b.instant / 86400)) :
    calendar.Sound zone phone hint := by
  have hconsidered : calendar.considered phone = calendar.upcoming.filter (·.matches phone) := by
    rw [considered, List.take_of_length_le hall, List.take_of_length_le hfew]
  intro b hb
  have hmem : b ∈ candidates (calendar.considered phone) hint := by simp [hb]
  obtain ⟨hup, hmatches⟩ := mem_upcoming_of_mem_considered (mem_candidates_iff.1 hmem).1
  refine ⟨.inl hdigits, fun _ => hday b hup (isOf_of_digits hmatches hdigits), ?_⟩
  rintro b' hb' hout ⟨hof, honday⟩
  rcases hout with hnot | ⟨hhint, hother⟩
  · refine hnot (hconsidered ▸ List.mem_filter.2 ⟨hb', ?_⟩)
    obtain ⟨attendee, hattendee, number, rfl, -, hagree⟩ := hof
    exact List.any_eq_true.2 ⟨_, hattendee, decide_eq_true (normalizePhone_eq_iff.2 hagree)⟩
  · exact hother (hday b' hb' hof ▸ honday hhint)

/-- Somebody has booked without a number. -/
def anonymous : Calendar :=
  .listing [] [⟨"uid", "2026-08-01T15:00:00.000Z", 63921279600, [none], by decide⟩]
    (List.nodup_singleton _)

/-- A caller has no number to state. -/
theorem not_only_meant_changed : ¬ ∀ (calendar : Calendar) (zone : Zone) (args : CancelArguments)
    (replies : Replies), calendar.Confined zone (statedPhone args.attendeePhone)
      args.requestedDatetimeHint (calendar.cancel args replies).2 := by
  intro h
  have hcancelled : .cancel "uid" ∈ (anonymous.cancel ⟨some "unknown", none⟩
      ⟨true, true, true, .error, true⟩).2 := by
    decide
  have hmeant := (h anonymous ⟨0, []⟩ ⟨some "unknown", none⟩ ⟨true, true, true, .error, true⟩ _
    hcancelled _ List.mem_cons_self rfl).1
  obtain ⟨attendee, hattendee, number, hnumber, -⟩ := hmeant.1
  rw [List.mem_singleton.1 hattendee] at hnumber
  cases hnumber

end Calendar

end Yuviz.Conversation.Tools
