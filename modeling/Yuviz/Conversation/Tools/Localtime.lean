import Mathlib
import Yuviz.Conversation.Tools.DateSanity

/-!
# Local times

`datetime` and `zoneinfo`, as the executors of the calendar use them. Times are in
seconds since the day before 0001-01-01, so that a day is its ordinal, and an instant is
a time of UTC.
-/

namespace Yuviz.Conversation.Tools

/-- A `datetime` without its offset. -/
structure WallClock where
  date : Date
  hour : ℕ
  minute : ℕ
  second : ℕ
  microsecond : ℕ
  valid : hour < 24 ∧ minute < 60 ∧ second < 60 ∧ microsecond < 1000000

def WallClock.seconds (w : WallClock) : ℤ :=
  w.date.toordinal * 86400 + w.hour * 3600 + w.minute * 60 + w.second

/-! ### Days -/

/-- The decimal digits of a number of `k` digits. -/
def digitsOf : ℕ → ℕ → List Char
  | 0, _ => []
  | k + 1, n => digitsOf k (n / 10) ++ [Nat.digitChar (n % 10)]

@[simp] theorem length_digitsOf (k n : ℕ) : (digitsOf k n).length = k := by
  induction k generalizing n with
  | zero => rfl
  | succ k ih => simp [digitsOf, ih]

/-- `_ord2ymd`. -/
def ord2ymd (n : ℕ) : ℕ × ℕ × ℕ :=
  let n := n - 1
  let n400 := n / 146097
  let n := n % 146097
  let n100 := n / 36524
  let n := n % 36524
  let n4 := n / 1461
  let n := n % 1461
  let n1 := n / 365
  let n := n % 365
  let year := n400 * 400 + 1 + n100 * 100 + n4 * 4 + n1
  if n1 = 4 ∨ n100 = 4 then (year - 1, 12, 31)
  else
    let before := fun month => ((List.range (month - 1)).map fun m => daysInMonth year (m + 1)).sum
    -- the estimate is right, or one too large
    let month := (n + 50) / 32
    let month := if n < before month then month - 1 else month
    (year, month, n - before month + 1)

/-- `date.fromordinal(n).isoformat()`. -/
def dayIso (n : ℤ) : List Char :=
  let (year, month, day) := ord2ymd n.toNat
  digitsOf 4 year ++ '-' :: digitsOf 2 month ++ '-' :: digitsOf 2 day

@[simp] theorem length_dayIso (n : ℤ) : (dayIso n).length = 10 := by simp [dayIso]

example : dayIso 739829 = "2026-08-01".toList := by decide

/-! ### Zones -/

/-- A time zone: the offset it begins with, and each change of it, in order: when, and to
    what. -/
structure Zone where
  initial : ℤ
  transitions : List (ℤ × ℤ)

/-- The offset at an instant. -/
def Zone.utcoffset (zone : Zone) (instant : ℤ) : ℤ :=
  go zone.initial zone.transitions
where
  go (offset : ℤ) : List (ℤ × ℤ) → ℤ
    | [] => offset
    | (at', offset') :: rest => if at' ≤ instant then go offset' rest else offset

/-- The offset at a time of the zone, with `fold=0`: a time that is skipped, or is there
    twice, has that from before the change. -/
def Zone.localOffset (zone : Zone) (time : ℤ) : ℤ :=
  go zone.initial zone.transitions
where
  go (offset : ℤ) : List (ℤ × ℤ) → ℤ
    | [] => offset
    | (at', offset') :: rest => if at' + max offset offset' ≤ time then go offset' rest else offset

/-- `astimezone(zone)`. -/
def Zone.toLocal (zone : Zone) (instant : ℤ) : ℤ := instant + zone.utcoffset instant

/-- The calendar day of an instant. -/
def Zone.day (zone : Zone) (instant : ℤ) : ℤ := zone.toLocal instant / 86400

/-! ### `fromisoformat`

As CPython reads it, which takes more than the documentation says: a character in front of
the sign of an offset is passed over, as is all behind the sixth digit of a fraction. -/

def asciiDigit? (c : Char) : Option ℕ :=
  if '0' ≤ c ∧ c ≤ '9' then some (c.toNat - 48) else none

/-- `parse_digits`: the number of `k` digits, and the text behind them. -/
def parseDigits (k : ℕ) (s : List Char) : Option (ℕ × List Char) :=
  if s.length < k then none
  else ((s.take k).mapM asciiDigit?).map fun ds =>
    (ds.foldl (fun n d => 10 * n + d) 0, s.drop k)

/-- `_find_isoformat_datetime_separator`. -/
def findSeparator (s : List Char) : Option ℕ :=
  if s.length = 7 then some 7
  else if s[4]? = some '-' then
    if s[5]? = some 'W' then
      if s[8]? = some '-' then
        if s.length = 9 then none
        else if (s[10]?.bind asciiDigit?).isSome then some 8
        else some 10
      else some 8
    else some 10
  else if s[4]? = some 'W' then
    let pos := 7 + ((s.drop 7).takeWhile fun c => (asciiDigit? c).isSome).length
    if pos < 9 then some pos else if pos % 2 = 0 then some 7 else some 8
  else some 8

/-- `_isoweek_to_gregorian`. -/
def isoweekToGregorian (year week day : ℕ) : Option (ℕ × ℕ × ℕ) :=
  if 1 ≤ year ∧ year ≤ 9999 ∧ 1 ≤ day ∧ day ≤ 7 then
    let before := (year - 1) * 365 + (year - 1) / 4 - (year - 1) / 100 + (year - 1) / 400
    let firstDay := before + 1
    let long := firstDay % 7 = 4 ∨ firstDay % 7 = 3 ∧ IsLeap year
    if 1 ≤ week ∧ (week ≤ 52 ∨ week = 53 ∧ long) then
      -- the Monday of the week that has the first Thursday
      let firstWeekday := (firstDay + 6) % 7
      let monday := firstDay - firstWeekday + if 3 < firstWeekday then 7 else 0
      some (ord2ymd (monday + (week - 1) * 7 + (day - 1)))
    else none
  else none

/-- `parse_isoformat_date`, of a text with the separator at `pos`. -/
def parseDate (pos : ℕ) (s : List Char) : Option Date := do
  let (year, rest) ← parseDigits 4 s
  let usesSeparator := rest.head? = some '-'
  let skip := fun s : List Char =>
    if usesSeparator then if s.head? = some '-' then some s.tail else none else some s
  let rest := if usesSeparator then rest.tail else rest
  let (year, month, day) ←
    if rest.head? = some 'W' then do
      let (week, rest) ← parseDigits 2 rest.tail
      if s.length - rest.length < pos then
        let (day, _) ← parseDigits 1 (← skip rest)
        isoweekToGregorian year week day
      else isoweekToGregorian year week 1
    else do
      let (month, rest) ← parseDigits 2 rest
      let (day, _) ← parseDigits 2 (← skip rest)
      some (year, month, day)
  if h : ValidDate year month day then some ⟨year, month, day, h⟩ else none

/-- The digits behind the point, in microseconds, and whether there is more behind them.
    Digits behind the sixth are passed over. -/
def parseFraction (s : List Char) : Option (ℕ × Bool) := do
  let k := min 6 s.length
  let (n, rest) ← parseDigits k s
  let rest := rest.dropWhile fun c => (asciiDigit? c).isSome
  some (n * 10 ^ (6 - k), rest.head?.getD '\x00' ≠ '\x00')

/-- The rest of `parse_hh_mm_ss_ff` for `n` fields: those there are, the microseconds, and
    whether there is more behind. The first field decides whether there is a separator. -/
def parseFields : ℕ → Option Bool → List Char → Option (List ℕ × ℕ × Bool)
  | 0, _, s => (parseFraction s).map fun (us, more) => ([], us, more)
  | n + 1, hasSeparator, s => do
    let (value, rest) ← parseDigits 2 s
    match rest with
    | [] => some ([value], 0, false)
    | c :: rest =>
      let sep := hasSeparator.getD (c = ':')
      -- one byte more is not looked at
      if rest = [] then if c.toNat < 128 then some ([value], 0, c ≠ '\x00') else none
      else if sep ∧ c = ':' then
        (parseFields n (some sep) rest).map fun (values, us, more) => (value :: values, us, more)
      else if c = '.' ∨ c = ',' then
        (parseFraction rest).map fun (us, more) => ([value], us, more)
      else if sep then none
      else (parseFields n (some sep) (c :: rest)).map fun (values, us, more) =>
        (value :: values, us, more)

/-- `parse_hh_mm_ss_ff`: hours, minutes, seconds and microseconds. -/
def parseTime (s : List Char) : Option ((ℕ × ℕ × ℕ × ℕ) × Bool) :=
  (parseFields 3 none s).map fun (values, us, more) =>
    ((values.getD 0 0, values.getD 1 0, values.getD 2 0, us), more)

/-- The characters that an offset begins with. -/
def signs : List Char := ['+', '-', 'Z']

/-- `parse_isoformat_time`: a time of day, and an offset in microseconds. -/
def parseTimeAndOffset (s : List Char) : Option ((ℕ × ℕ × ℕ × ℕ) × Option ℤ) := do
  let (time, more) ← parseTime (s.takeWhile (· ∉ signs))
  match s.dropWhile (· ∉ signs) with
  | [] => if more then none else some (time, none)
  | sign :: rest =>
    if sign = 'Z' then
      if rest.head?.getD '\x00' = '\x00' then some (time, some 0) else none
    else do
      let ((hours, minutes, seconds, microseconds), more) ← parseTime rest
      let seconds := (hours * 60 + minutes) * 60 + seconds
      -- without a whole second, it is UTC
      let offset : ℤ := if seconds = 0 then 0 else seconds * 1000000 + microseconds
      if more = false ∧ offset < 86400 * 1000000 then
        some (time, some (if sign = '-' then -offset else offset))
      else none

/-- `datetime.fromisoformat`, where `none` is a `ValueError`. -/
def fromisoformat (s : List Char) : Option (WallClock × Option ℤ) := do
  if s.length < 7 then none else
  let pos ← findSeparator s
  let date ← parseDate pos s
  let ((hour, minute, second, microsecond), offset) ←
    if s.length ≤ pos then some ((0, 0, 0, 0), none)
    else parseTimeAndOffset (s.drop (pos + 1))
  if h : hour < 24 ∧ minute < 60 ∧ second < 60 ∧ microsecond < 1000000 then
    some (⟨date, hour, minute, second, microsecond, h⟩, offset)
  else none

/-! ### Instants -/

/-- `date.max.toordinal()`. -/
def maxOrdinal : ℤ := 3652059

/-- `astimezone(utc).replace(microsecond=0)`, where `none` is an `OverflowError`. The offset
    is in microseconds. -/
def WallClock.toUtc (w : WallClock) (offset : ℤ) : Option ℤ :=
  let instant := (w.seconds * 1000000 + w.microsecond - offset) / 1000000
  if 86400 ≤ instant ∧ instant < (maxOrdinal + 1) * 86400 then some instant else none

/-- `value.replace("Z", "+00:00")`. -/
def replaceZ (s : List Char) : List Char :=
  s.flatMap fun c => if c = 'Z' then "+00:00".toList else [c]

/-- `_parse_iso`: what has no offset is of UTC. -/
def parseIso (s : List Char) : Option ℤ :=
  (fromisoformat (replaceZ s)).bind fun (w, offset) => w.toUtc (offset.getD 0)

/-- `_parse_local_iso`: what has no offset is of the zone. -/
def parseLocalIso (zone : Zone) (s : List Char) : Option ℤ :=
  (fromisoformat (replaceZ s)).bind fun (w, offset) =>
    w.toUtc (offset.getD (zone.localOffset w.seconds * 1000000))

end Yuviz.Conversation.Tools
