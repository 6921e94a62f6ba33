import Yuviz.Conversation.Tools.Localtime

/-!
# The calendar

`CalComCalendarProvider`, against a calendar that has slots and upcoming bookings. Each
request to it is answered, or fails. Of the answer for slots it is known that they are
free, and are listed under their days (`Calendar`).

Numbers are compared by what is left of them when they are normalised, which is the same
as comparing their digits, up to what is before the last ten (`normalizePhone_eq_iff`).
-/

namespace Yuviz.Conversation.Tools

open Python (isdecimal)

/-! ### Phone numbers -/

/-- The digits that are not decimal: superscripts, subscripts and those in circles,
    brackets and the like. -/
def digitRanges : List (ℕ × ℕ) :=
  [(0xb2, 0xb3), (0xb9, 0xb9), (0x1369, 0x1371), (0x19da, 0x19da), (0x2070, 0x2070),
    (0x2074, 0x2079), (0x2080, 0x2089), (0x2460, 0x2468), (0x2474, 0x247c), (0x2488, 0x2490),
    (0x24ea, 0x24ea), (0x24f5, 0x24fd), (0x24ff, 0x24ff), (0x2776, 0x277e), (0x2780, 0x2788),
    (0x278a, 0x2792), (0x10a40, 0x10a43), (0x10e60, 0x10e68), (0x11052, 0x1105a),
    (0x1f100, 0x1f10a)]

/-- `str.isdigit` of one character. -/
def isdigit (c : Char) : Bool :=
  isdecimal c || digitRanges.any fun (first, last) => first ≤ c.toNat ∧ c.toNat ≤ last

def digits (phone : String) : List Char := phone.toList.filter isdigit

/-- `digits[-10:]`. -/
def lastTen (s : List Char) : List Char := s.drop (s.length - 10)

def normalizePhone (phone : String) : List Char :=
  if 10 ≤ (digits phone).length then lastTen (digits phone) else digits phone

/-- The digits are the same, or the last ten are, if both have as many. -/
def Agree (phone phone' : String) : Prop :=
  digits phone = digits phone' ∨
    10 ≤ (digits phone).length ∧ 10 ≤ (digits phone').length ∧
      lastTen (digits phone) = lastTen (digits phone')

theorem length_lastTen {s : List Char} (h : 10 ≤ s.length) : (lastTen s).length = 10 := by
  rw [lastTen, List.length_drop]
  omega

theorem normalizePhone_eq_iff {phone phone' : String} :
    normalizePhone phone = normalizePhone phone' ↔ Agree phone phone' := by
  rw [normalizePhone, normalizePhone, Agree]
  by_cases h : 10 ≤ (digits phone).length
  · by_cases h' : 10 ≤ (digits phone').length
    · rw [if_pos h, if_pos h']
      exact ⟨fun heq => .inr ⟨h, h', heq⟩, fun hagree => hagree.elim (· ▸ rfl) fun h => h.2.2⟩
    · -- one has ten digits left, the other has fewer
      rw [if_pos h, if_neg h']
      refine ⟨fun heq => absurd ?_ h', fun hagree => ?_⟩
      · rw [← heq, length_lastTen h]
      · rcases hagree with heq | ⟨-, hlong, -⟩
        · exact absurd (heq ▸ h) h'
        · exact absurd hlong h'
  · by_cases h' : 10 ≤ (digits phone').length
    · rw [if_neg h, if_pos h']
      refine ⟨fun heq => absurd ?_ h, fun hagree => ?_⟩
      · rw [heq, length_lastTen h']
      · rcases hagree with heq | ⟨hlong, -⟩
        · exact absurd (heq.symm ▸ h') h
        · exact absurd hlong h
    · rw [if_neg h, if_neg h']
      exact ⟨.inl, fun hagree => hagree.elim id fun hlong => absurd hlong.1 h⟩

theorem normalizePhone_eq_nil {phone : String} : normalizePhone phone = [] ↔ digits phone = [] := by
  rw [normalizePhone]
  split_ifs with h
  · have hne : digits phone ≠ [] := by
      intro hnil
      rw [hnil] at h
      cases h
    have hlast : lastTen (digits phone) ≠ [] := by
      intro hnil
      have hlength := length_lastTen h
      rw [hnil] at hlength
      cases hlength
    exact ⟨fun h => absurd h hlast, fun h => absurd h hne⟩
  · rfl

/-! ### The calendar -/

/-- A slot that is free, as the calendar lists it. -/
structure Slot where
  start : String
  instant : ℤ
  parses : parseIso start.toList = some instant

/-- An upcoming booking, with the number of each attendee. It begins with its day of UTC. -/
structure Booking where
  uid : String
  start : String
  instant : ℤ
  attendees : List (Option String)
  utc : start.toList.take 10 = dayIso (instant / 86400)

/-- An attendee has the number. One without a number has the empty one. -/
def Booking.matches (booking : Booking) (phone : String) : Bool :=
  booking.attendees.any fun attendee =>
    normalizePhone (attendee.getD "") = normalizePhone phone

structure Calendar where
  free : List Slot
  /-- What `/v2/slots` lists under a day, of those from one day to another. -/
  slots : Zone → List Char → List Char → List Char → List Slot
  /-- A slot is listed under its day in the zone that is asked for. -/
  slots_free : ∀ zone start stop day, ∀ slot ∈ slots zone start stop day,
    slot ∈ free ∧ dayIso (zone.day slot.instant) = day
  /-- All of a day are listed. -/
  slots_day : ∀ zone, ∀ slot ∈ free,
    slot ∈ slots zone (dayIso (zone.day slot.instant)) (dayIso (zone.day slot.instant))
      (dayIso (zone.day slot.instant))
  upcoming : List Booking
  nodup : (upcoming.map Booking.uid).Nodup

/-- The calendar that lists those of the days that are asked for. -/
def Calendar.listing (free : List Slot) (upcoming : List Booking)
    (nodup : (upcoming.map Booking.uid).Nodup) : Calendar where
  free := free
  slots zone start stop day :=
    free.filter fun slot => dayIso (zone.day slot.instant) = day ∧ start ≤ day ∧ day ≤ stop
  slots_free zone start stop day slot hslot := by
    rw [List.mem_filter, decide_eq_true_iff] at hslot
    exact ⟨hslot.1, hslot.2.1⟩
  slots_day zone slot hslot := by
    rw [List.mem_filter, decide_eq_true_iff]
    exact ⟨hslot, rfl, le_rfl, le_rfl⟩
  upcoming := upcoming
  nodup := nodup

inductive CalendarError
  | provider
  | slotUnavailable
  | invalidAttendeePhone
  /-- Any other exception, which no executor catches. -/
  | uncaught
  deriving DecidableEq

/-- What the calendar makes of a booking, or of a change of one. -/
inductive BookReply
  | ok (uid start : String) (meetingUrl : Option String)
  | conflict
  | invalidPhone
  | error

structure BookingResult where
  bookingId : String
  confirmedSlot : String
  meetingUrl : Option String

def BookReply.result : BookReply → Except CalendarError BookingResult
  | ok uid start meetingUrl => .ok ⟨uid, start, meetingUrl⟩
  | conflict => .error .slotUnavailable
  | invalidPhone => .error .invalidAttendeePhone
  | error => .error .provider

namespace Calendar

variable (calendar : Calendar)

/-- What is asked for by its first ten characters, and as an instant. -/
def checkAvailability (zone : Zone) (requestedDatetime : String) (answered : Bool) :
    Except CalendarError Bool :=
  let datePart := requestedDatetime.toList.take 10
  if !answered then .error .provider
  else match parseLocalIso zone requestedDatetime.toList with
    | none => .error .uncaught
    | some requested =>
      .ok ((calendar.slots zone datePart datePart datePart).any fun slot =>
        slot.instant = requested)

def findAvailableSlots (zone : Zone) (nearDatetime : String) (answered : Bool) :
    Except CalendarError (List String) :=
  let startDate := nearDatetime.toList.take 10
  if !answered then .error .provider
  else .ok (((calendar.slots zone startDate startDate startDate).take 50).map Slot.start)

/-- The upcoming bookings of a number: at most five of the first hundred. -/
def findUpcomingBookings (attendeePhone : String) (answered : Bool) :
    Except CalendarError (List Booking) :=
  if !answered then .error .provider
  else .ok (((calendar.upcoming.take 100).filter (·.matches attendeePhone)).take 5)

end Calendar

end Yuviz.Conversation.Tools
