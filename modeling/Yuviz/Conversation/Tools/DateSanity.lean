import Mathlib
import Yuviz.Python.Json
import Yuviz.Python.Regex

/-!
# Date sanity checks

What is checked of the date of an appointment before the calendar is asked.
-/

namespace Yuviz.Conversation.Tools

open Python

/-! ### Dates -/

def IsLeap (year : ℕ) : Prop := year % 4 = 0 ∧ (year % 100 ≠ 0 ∨ year % 400 = 0)

instance (year : ℕ) : Decidable (IsLeap year) := inferInstanceAs (Decidable (_ ∧ _))

def daysInMonth (year month : ℕ) : ℕ :=
  match month with
  | 2 => if IsLeap year then 29 else 28
  | 4 | 6 | 9 | 11 => 30
  | _ => 31

def ValidDate (year month day : ℕ) : Prop :=
  (1 ≤ year ∧ year ≤ 9999) ∧ (1 ≤ month ∧ month ≤ 12) ∧ 1 ≤ day ∧ day ≤ daysInMonth year month

instance (year month day : ℕ) : Decidable (ValidDate year month day) :=
  inferInstanceAs (Decidable (_ ∧ _))

/-- A day of the Gregorian calendar. -/
structure Date where
  year : ℕ
  month : ℕ
  day : ℕ
  valid : ValidDate year month day

namespace Date

/-- `date.toordinal`. -/
def toordinal (d : Date) : ℕ :=
  let y := d.year - 1
  y * 365 + y / 4 - y / 100 + y / 400 +
    ((List.range (d.month - 1)).map fun m => daysInMonth d.year (m + 1)).sum + d.day

def lt (d e : Date) : Bool :=
  d.year < e.year ||
    d.year = e.year && (d.month < e.month || d.month = e.month && d.day < e.day)

/-- `date.replace(year=year)`, where `none` is a `ValueError`. -/
def replaceYear (d : Date) (year : ℕ) : Option Date :=
  if h : ValidDate year d.month d.day then some ⟨year, d.month, d.day, h⟩ else none

end Date

/-- A time of a day, in the form it was given. -/
structure Datetime where
  date : Date
  time : String

/-! ### The checks -/

/-- `DATE_ARG_BY_TOOL`. -/
def dateFieldForTool (toolName : String) : Option String :=
  if toolName = "book_appointment" then some "requested_datetime"
  else if toolName = "reschedule_appointment" then some "new_requested_datetime"
  else none

section

open Regex

def digits12 : Regex := .seq digit (.optional digit)

/-- `_DAY_NUMERAL_RE`. -/
def dayNumeralRe : Regex :=
  all [.boundary, digits12,
    .optional (any (["st", "nd", "rd", "th"].map fun s => all (s.toList.map fun c => .char (· = c)))),
    .boundary]

/-- `_HOUR_WORD`. -/
def hourWord : Regex :=
  any (["one", "two", "three", "four", "five", "six", "seven", "eight", "nine", "ten", "eleven",
    "twelve"].map word)

/-- `(a\.?m\.?|p\.?m\.?)`. -/
def amPm : Regex :=
  let dot := Regex.optional (.char (· = '.'))
  any [all [word "a", dot, word "m", dot], all [word "p", dot, word "m", dot]]

/-- `o'?clock`. -/
def oclock : Regex := all [word "o", .optional (.char (· = '\'')), word "clock"]

/-- `_TIME_EXPRESSION_RE`. -/
def timeExpressionRe : Regex :=
  let point := Regex.char fun c => c = '.' || c = ':'
  any [
    all [.boundary, digits12, .optional (all [point, digit, digit]), spaces, amPm, .boundary],
    all [.boundary, hourWord, spaces, amPm, .boundary],
    all [.boundary,
      any [.seq (.optional (range '0' '1')) digit, .seq (.char (· = '2')) (range '0' '3')],
      point, range '0' '5', digit, .boundary],
    all [.boundary, digits12, spaces, oclock, .boundary],
    all [.boundary, hourWord, spaces, oclock, .boundary],
    all [.boundary,
      any (["morning", "afternoon", "evening", "noon", "midnight", "tonight"].map word), .boundary]]

end

/-- The value of a run of decimal digits. -/
def intOfDigits (s : List Char) : ℕ := s.foldl (fun n c => 10 * n + (digit? c).getD 0) 0

def statedDayMismatch (isWord : Char → Bool) (day : ℕ) (callerUtterance : String) : Bool :=
  let text := timeExpressionRe.sub isWord [' '] callerUtterance.toList
  let candidates := ((dayNumeralRe.findall isWord text).map fun m =>
    intOfDigits (m.takeWhile isdecimal)).filter fun n => 1 ≤ n ∧ n ≤ 31
  candidates ≠ [] && day ∉ candidates

def noTimeStated (isWord : Char → Bool) (conversationTexts : List String) : Bool :=
  !conversationTexts.any fun u => timeExpressionRe.search isWord u.toList

/-- Nothing but the day counts: `today` is that of the calendar. -/
def isInThePast (dt : Datetime) (today : Date) : Bool := dt.date.lt today

/-- `_MAX_DAYS_IN_FUTURE`. -/
def maxDaysInFuture : ℕ := 365

def isTooFarOut (dt : Datetime) (today : Date) : Bool :=
  maxDaysInFuture < (dt.date.toordinal : ℤ) - today.toordinal

/-- `_MAX_YEAR_CORRECTION_GAP`. -/
def maxYearCorrectionGap : ℕ := 5

def correctYearIfWrong (dt : Datetime) (today : Date) : Option Datetime :=
  if dt.date.year < today.year ∧ today.year - dt.date.year ≤ maxYearCorrectionGap then
    [today.year, today.year + 1].firstM fun year =>
      (dt.date.replaceYear year).bind fun date =>
        let candidate := { dt with date := date }
        if isInThePast candidate today then none else some candidate
  else none

/-- A date in the year before, on a day that is still to come this year, is taken for this year's. -/
example : (correctYearIfWrong ⟨⟨2025, 9, 14, by decide⟩, "T14:00:00"⟩ ⟨2026, 8, 1, by decide⟩).map
    (·.date.year) = some 2026 := by
  decide

end Yuviz.Conversation.Tools
