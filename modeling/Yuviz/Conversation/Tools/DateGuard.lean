import Yuviz.Conversation.Tools.Calendar
import Yuviz.Conversation.Tools.IsoFormat
import Yuviz.Conversation.Tools.Orchestrator

/-!
# The window of bookings

What passes the checks has a date from today to 365 days ahead, as it is written. A
value with an offset may be on another day of the calendar, and the window is not
checked again for the 29 February that is found next year (`guarded_iff`).
-/

namespace Yuviz.Conversation.Tools

open Python
open Messages (ChatMessage)

variable {today d d' : Date} {w : WallClock} {offset : Option ℤ} {zone : Zone}

/-! ### The date that is settled on -/

/-- The date that is asked for is taken, if it is in the window. If it is past, but in one
    of the last five years, so is the same day of this year, unless it is past too or there
    is none, and then the same day of the next. -/
inductive Settles (today d : Date) : Date → Prop
  | asked (hpast : today.toordinal ≤ d.toordinal) (hfar : d.toordinal ≤ today.toordinal + 365) :
      Settles today d d
  | thisYear {d' : Date} (hgap : d.year < today.year ∧ today.year ≤ d.year + 5)
      (hsame : d.SameDay d') (hyear : d'.year = today.year)
      (hpast : today.toordinal ≤ d'.toordinal) : Settles today d d'
  | nextYear {d' : Date} (hgap : d.year < today.year ∧ today.year ≤ d.year + 5)
      (hsame : d.SameDay d') (hyear : d'.year = today.year + 1)
      (hmissed : ∀ e, d.SameDay e → e.year = today.year → e.toordinal < today.toordinal) :
      Settles today d d'

theorem Settles.sameDay (h : Settles today d d') : d.SameDay d' := by
  cases h with
  | asked => exact ⟨rfl, rfl⟩
  | thisYear _ hsame => exact hsame
  | nextYear _ hsame => exact hsame

theorem Settles.le (h : Settles today d d') : today.toordinal ≤ d'.toordinal := by
  cases h with
  | asked hpast => exact hpast
  | thisYear _ _ _ hpast => exact hpast
  | nextYear _ _ hyear =>
    have hday := d'.valid.2.2.1
    have hle := today.toordinal_le
    rw [← hyear] at hle
    rw [d'.toordinal_eq]
    omega

/-- A date that is not past is taken, or none. -/
theorem Settles.of_not_past (h : Settles today d d') (hpast : today.toordinal ≤ d.toordinal) :
    d' = d ∧ d.toordinal ≤ today.toordinal + 365 := by
  have hgap (hgap : d.year < today.year ∧ today.year ≤ d.year + 5) : False := by
    have hlt : d.lt today = true := by simp [Date.lt, hgap.1]
    exact absurd (Date.toordinal_lt hlt) hpast.not_gt
  cases h with
  | asked _ hfar => exact ⟨rfl, hfar⟩
  | thisYear h => exact (hgap h).elim
  | nextYear h => exact (hgap h).elim

/-- As it is written, the date is too far out in one case only. -/
theorem Settles.le_iff (h : Settles today d d') :
    d'.toordinal ≤ today.toordinal + 365 ↔ ¬ LeapSlip today d := by
  cases h with
  | asked hpast hfar =>
    refine iff_of_true hfar fun hslip => ?_
    have hle : ¬ d.lt today = true := fun hlt => absurd (Date.toordinal_lt hlt) hpast.not_gt
    have hyear : today.year < d.year := by
      have hne := hslip.ne_year (e := d) ⟨rfl, rfl⟩
      have hlt : ¬ d.year < today.year := fun hlt => hle (by simp [Date.lt, hlt])
      omega
    exact absurd (hslip.lt_toordinal ⟨rfl, rfl⟩ hyear) hfar.not_gt
  | thisYear hgap hsame hyear hpast =>
    exact iff_of_true (Date.toordinal_sameYear hyear) fun hslip => hslip.ne_year hsame hyear
  | nextYear hgap hsame hyear hmissed =>
    rcases hthis : d.replaceYear today.year with _ | e
    · obtain ⟨hfeb, hleap⟩ := Date.replaceYear_eq_none hthis hsame hyear
      have hnone : leapDay today.year = 0 := if_neg hleap.1
      have hmarch := Date.toordinal_lt_march hleap.1
      have hslip : LeapSlip today d ↔ today.month ≤ 2 := by
        rw [LeapSlip]
        tauto
      rw [hsame.toordinal_feb_succ hyear hfeb, hslip, ← hmarch, hnone]
      omega
    · obtain ⟨hsame', hyear'⟩ := Date.replaceYear_eq_some.mp hthis
      have hlt := hmissed e hsame' hyear'
      have hnext : e.SameDay d' := ⟨hsame.1.trans hsame'.1.symm, hsame.2.trans hsame'.2.symm⟩
      have hle := hnext.toordinal_le (by omega)
      exact iff_of_true (by omega) fun hslip => hslip.ne_year hsame' hyear'

variable {dt c : Datetime}

theorem isInThePast_iff : isInThePast dt today = true ↔ dt.date.toordinal < today.toordinal :=
  Date.lt_iff

/-- The candidate of a year. -/
theorem candidate_eq_some {year : ℕ} :
    ((dt.date.replaceYear year).bind fun date =>
      if isInThePast { dt with date := date } today then none
      else some { dt with date := date }) = some c ↔
      ∃ d', dt.date.SameDay d' ∧ d'.year = year ∧ today.toordinal ≤ d'.toordinal ∧
        c = { dt with date := d' } := by
  rw [Option.bind_eq_some_iff]
  refine exists_congr fun d' => ?_
  rw [Date.replaceYear_eq_some, and_assoc, Option.ite_none_left_eq_some, isInThePast_iff, not_lt,
    Option.some.injEq, eq_comm (a := c)]

/-- Nothing becomes of a year whose day is past, or missing. -/
theorem candidate_eq_none {year : ℕ} :
    ((dt.date.replaceYear year).bind fun date =>
      if isInThePast { dt with date := date } today then none
      else some { dt with date := date }) = none ↔
      ∀ e, dt.date.SameDay e → e.year = year → e.toordinal < today.toordinal := by
  rw [Option.eq_none_iff_forall_ne_some]
  constructor
  · intro h e hsame hyear
    by_contra hle
    exact h _ (candidate_eq_some.mpr ⟨e, hsame, hyear, not_lt.mp hle, rfl⟩)
  · intro h c hc
    obtain ⟨e, hsame, hyear, hle, -⟩ := candidate_eq_some.mp hc
    exact absurd (h e hsame hyear) hle.not_gt

theorem correctYearIfWrong_eq_some (hpast : dt.date.toordinal < today.toordinal) :
    correctYearIfWrong dt today = some c ↔
      ∃ d', Settles today dt.date d' ∧ c = { dt with date := d' } := by
  have hgap : dt.date.year < today.year ∧ today.year - dt.date.year ≤ maxYearCorrectionGap ↔
      dt.date.year < today.year ∧ today.year ≤ dt.date.year + 5 :=
    and_congr_right fun _ => Nat.sub_le_iff_le_add'
  rw [correctYearIfWrong]
  simp only [hgap, List.firstM]
  constructor
  · intro h
    split_ifs at h with hgap
    rw [Option.orElse_eq_orElse, Option.orElse_eq_or, Option.or_eq_some_iff] at h
    rcases h with h | ⟨hnone, h⟩
    · obtain ⟨d', hsame, hyear, hle, rfl⟩ := candidate_eq_some.mp h
      exact ⟨d', .thisYear hgap hsame hyear hle, rfl⟩
    · rw [Option.orElse_eq_or, Option.failure_eq_none, Option.or_none] at h
      obtain ⟨d', hsame, hyear, -, rfl⟩ := candidate_eq_some.mp h
      exact ⟨d', .nextYear hgap hsame hyear (candidate_eq_none.mp hnone), rfl⟩
  · rintro ⟨d', h, rfl⟩
    have hle := h.le
    cases h with
    | asked hle => exact absurd hpast hle.not_gt
    | thisYear hgap hsame hyear =>
      rw [if_pos hgap, candidate_eq_some.mpr ⟨d', hsame, hyear, hle, rfl⟩]
      rfl
    | nextYear hgap hsame hyear hmissed =>
      rw [if_pos hgap, candidate_eq_none.mpr hmissed,
        candidate_eq_some.mpr ⟨d', hsame, hyear, hle, rfl⟩]
      rfl

theorem isTooFarOut_iff : isTooFarOut dt today = true ↔
    today.toordinal + 365 < dt.date.toordinal := by
  rw [isTooFarOut, decide_eq_true_iff, maxDaysInFuture]
  omega

/-! ### The day in the calendar -/

/-- The day of the calendar on which a value is: what has no offset is of the calendar's
    zone. -/
def calendarDay (zone : Zone) (w : WallClock) : Option ℤ → ℤ
  | none => w.date.toordinal
  | some offset => zone.day ((w.seconds * 1000000 + w.microsecond - offset) / 1000000)

/-- The days by which that is later than the day that is written. -/
def drift (zone : Zone) (w : WallClock) (offset : Option ℤ) : ℤ :=
  calendarDay zone w offset - w.date.toordinal

/-- An offset moves a value by two days at most: inside the window, it changes nothing. -/
theorem drift_le {n : ℤ} (hzone : ∀ instant, |zone.utcoffset instant| < 86400)
    (hn : |n| < 86400000000) : |drift zone w (some n)| ≤ 2 := by
  have hvalid := w.valid
  have hzone := abs_lt.mp (hzone ((w.seconds * 1000000 + w.microsecond - n) / 1000000))
  rw [abs_lt] at hn
  rw [abs_le]
  simp only [drift, calendarDay, Zone.day, Zone.toLocal]
  generalize zone.utcoffset _ = z at *
  rw [WallClock.seconds]
  omega

/-- The date does not slip to 29 February of the next year, when this one has none, and in
    January and February; or there is an offset, and it moves the day that is written no
    further than to the ends of the window. -/
def Stays (today : Date) (zone : Zone) (w : WallClock) : Option ℤ → Prop
  | none => ∀ d', Settles today w.date d' → ¬ LeapSlip today w.date
  | some offset => ∀ d', Settles today w.date d' →
      let ahead : ℤ := d'.toordinal - today.toordinal
      let moved := drift zone { w with date := d' } (some offset)
      0 ≤ ahead + moved ∧ ahead + moved ≤ 365

/-! ### The guard -/

/-- The behaviour of `datetime`, as far as the checks see it. -/
def ofWallClock (w : WallClock) (offset : Option ℤ) : Datetime where
  date := w.date
  time := String.ofList ('T' :: (w.timeIso ++ offsetIso offset))

/-- The value of a tool call that is read as a date. -/
structure Requested (event : ToolCallEvent) (dateField : String) (w : WallClock)
    (offset : Option ℤ) : Prop where
  field : dateFieldForTool event.toolName = some dateField
  value : ∃ value, Json.get event.arguments dateField = .str value ∧
    fromisoformat value.toList = some (w, offset)

namespace ToolCallOrchestrator

variable {P X : Type*} (o : ToolCallOrchestrator P X)

/-- The orchestrator, with the functions of `datetime`. -/
def iso : ToolCallOrchestrator P X :=
  { o with
    fromisoformat := fun value =>
      (Tools.fromisoformat value.toList).map fun (w, offset) => ofWallClock w offset
    isoformat := fun dt => String.ofList dt.date.isoformat ++ dt.time }

/-- Whatever was said: if the call is let through, its date is that of the model, but for
    the year, and in the calendar it is in the window. -/
def Guarded (today : Date) (zone : Zone) (event : ToolCallEvent) : Prop :=
  ∀ (history : List ChatMessage) (event' : ToolCallEvent),
    o.iso.checkRequestedDate today event history = some (event', none) →
      ∀ dateField w offset, Requested event dateField w offset →
        ∃ d', w.date.SameDay d' ∧ Requested event' dateField { w with date := d' } offset ∧
          today.toordinal ≤ calendarDay zone { w with date := d' } offset ∧
            calendarDay zone { w with date := d' } offset ≤ today.toordinal + 365

end ToolCallOrchestrator

open ToolCallOrchestrator (iso parseRequestedDate isRejection recentRejectionCount rejections
  checkConfirmed calendarOrchestrator)

variable {P X : Type*} {o : ToolCallOrchestrator P X}
  {event event' : ToolCallEvent} {dateField : String} {history : List ChatMessage}

theorem Requested.unique {w' : WallClock} {offset' : Option ℤ}
    (h : Requested event dateField w offset) (h' : Requested event dateField w' offset') :
    w' = w ∧ offset' = offset := by
  obtain ⟨value, hvalue, hiso⟩ := h.value
  obtain ⟨value', hvalue', hiso'⟩ := h'.value
  obtain rfl := Json.str.inj (hvalue.symm.trans hvalue')
  exact Prod.mk.inj (Option.some.inj (hiso'.symm.trans hiso))

theorem Requested.parse (h : Requested event dateField w offset) :
    o.iso.parseRequestedDate (Json.get event.arguments dateField) =
      some (ofWallClock w offset) := by
  obtain ⟨value, hvalue, hiso⟩ := h.value
  have hne : value ≠ "" := by
    rintro rfl
    exact absurd hiso (by simp [Tools.fromisoformat])
  rw [hvalue, parseRequestedDate, if_neg hne]
  simp only [iso, hiso, Option.map_some]

/-- What is written of a date with another year is read back. -/
theorem Requested.corrected (h : Requested event dateField w offset) (d' : Date) :
    Requested
      { event with
        arguments := event.arguments.set dateField
          (.str (o.iso.isoformat { ofWallClock w offset with date := d' })) }
      dateField { w with date := d' } offset := by
  obtain ⟨value, -, hiso⟩ := h.value
  refine ⟨h.field, _, by rw [Json.get, Dict.get?_set, if_pos rfl]; rfl, ?_⟩
  have htext : (o.iso.isoformat { ofWallClock w offset with date := d' }).toList =
      Tools.isoformat { w with date := d' } offset := by
    simp [iso, ofWallClock, Tools.isoformat, WallClock.timeIso]
  rw [htext]
  exact fromisoformat_isoformat _ (isOffset_of_fromisoformat hiso)

/-- What is let through has been settled on. -/
theorem settles_of_checkRequestedDate (h : Requested event dateField w offset)
    (hpass : o.iso.checkRequestedDate today event history = some (event', none)) :
    ∃ d', Settles today w.date d' ∧ Requested event' dateField { w with date := d' } offset := by
  rw [ToolCallOrchestrator.checkRequestedDate, h.field] at hpass
  simp only [h.parse] at hpass
  split_ifs at hpass with hpast hfar
  · rw [isInThePast_iff] at hpast
    rcases hcorrected : correctYearIfWrong (ofWallClock w offset) today with _ | c
    · simp [hcorrected] at hpass
    · obtain ⟨d', hsettles, rfl⟩ := (correctYearIfWrong_eq_some hpast).mp hcorrected
      simp only [hcorrected] at hpass
      obtain ⟨result, -, hresult⟩ := Option.map_eq_some_iff.mp hpass
      obtain ⟨rfl, -⟩ := Prod.mk.inj hresult
      exact ⟨d', hsettles, h.corrected d'⟩
  · exact absurd hpass (by simp)
  · rw [isInThePast_iff, not_lt] at hpast
    rw [isTooFarOut_iff, not_lt] at hfar
    obtain ⟨result, -, hresult⟩ := Option.map_eq_some_iff.mp hpass
    obtain ⟨rfl, -⟩ := Prod.mk.inj hresult
    exact ⟨w.date, .asked hpast hfar, h⟩

/-- The result of a call that was rejected. -/
def rejected (dateField : String) : ChatMessage where
  role := .tool
  content := (rejection dateField "date_not_confirmed").json.dumps

/-- After two rejections, nothing is asked again. -/
theorem checkConfirmed_rejected (hfield : dateFieldForTool event.toolName = some dateField)
    (dt : Datetime) :
    o.iso.checkConfirmed dateField dt [rejected dateField, rejected dateField] = some none := by
  have hrejected : o.iso.isRejection (rejected dateField) = some true := by
    have hloads := o.loads_dumps event.toolName dateField hfield "date_not_confirmed" (by decide)
    have hrole : (rejected dateField).role = .tool := rfl
    rw [isRejection, if_pos hrole]
    simp only [iso, rejected, hloads]
    rfl
  have hcount : o.iso.recentRejectionCount [rejected dateField, rejected dateField] = some 2 := by
    rw [recentRejectionCount, if_pos (by simp [hrejected])]
    simp [rejections, hrejected]
  rw [checkConfirmed, hcount, Option.map_some, if_pos (by decide)]

/-- What is settled on may be let through. -/
theorem Settles.checkRequestedDate {d' : Date} (hsettles : Settles today w.date d')
    (h : Requested event dateField w offset) :
    ∃ history event', o.iso.checkRequestedDate today event history = some (event', none) ∧
      Requested event' dateField { w with date := d' } offset := by
  refine ⟨[rejected dateField, rejected dateField], ?_⟩
  rw [ToolCallOrchestrator.checkRequestedDate, h.field]
  simp only [h.parse]
  split_ifs with hpast hfar
  · rw [isInThePast_iff] at hpast
    have hcorrected := (correctYearIfWrong_eq_some hpast).mpr ⟨d', hsettles, rfl⟩
    simp only [hcorrected, checkConfirmed_rejected h.field, Option.map_some]
    exact ⟨_, rfl, h.corrected d'⟩
  · rw [isInThePast_iff, not_lt] at hpast
    rw [isTooFarOut_iff] at hfar
    exact absurd hfar (hsettles.of_not_past hpast).2.not_gt
  · rw [isInThePast_iff, not_lt] at hpast
    obtain ⟨rfl, -⟩ := hsettles.of_not_past hpast
    rw [checkConfirmed_rejected h.field, Option.map_some]
    exact ⟨event, rfl, h⟩

/-- The guard keeps the window exactly where the value stays in it. -/
theorem guarded_iff (o : ToolCallOrchestrator P X) (today : Date) (zone : Zone)
    (event : ToolCallEvent) :
    o.Guarded today zone event ↔
      ∀ dateField w offset, Requested event dateField w offset → Stays today zone w offset := by
  constructor
  · intro hguarded dateField w offset h
    have hwindow {d' : Date} (hsettles : Settles today w.date d') :
        today.toordinal ≤ calendarDay zone { w with date := d' } offset ∧
          calendarDay zone { w with date := d' } offset ≤ today.toordinal + 365 := by
      obtain ⟨history, event', hpass, h'⟩ := hsettles.checkRequestedDate (o := o) h
      obtain ⟨d'', -, h'', hwindow⟩ := hguarded history event' hpass dateField w offset h
      obtain ⟨heq, -⟩ := h'.unique h''
      rwa [heq] at hwindow
    cases offset with
    | none =>
      intro d' hsettles
      obtain ⟨-, hle⟩ := hwindow hsettles
      rw [calendarDay] at hle
      rw [← hsettles.le_iff]
      exact_mod_cast hle
    | some n =>
      intro d' hsettles
      obtain ⟨hle, hle'⟩ := hwindow hsettles
      simp only [drift]
      omega
  · intro hstays history event' hpass dateField w offset h
    obtain ⟨d', hsettles, h'⟩ := settles_of_checkRequestedDate h hpass
    refine ⟨d', hsettles.sameDay, h', ?_⟩
    have hstays := hstays dateField w offset h
    cases offset with
    | none =>
      have hle := hsettles.le
      have hle' := hsettles.le_iff.mpr (hstays d' hsettles)
      simp only [calendarDay]
      omega
    | some n =>
      obtain ⟨hle, hle'⟩ := hstays d' hsettles
      simp only [drift] at hle hle'
      omega

/-! ### Two values that stray -/

theorem not_guarded_of {w' : WallClock} (h : Requested event dateField w offset)
    (hpass : o.iso.checkRequestedDate today event history = some (event', none))
    (h' : Requested event' dateField w' offset)
    (hout : ¬ (today.toordinal ≤ calendarDay zone w' offset ∧
      calendarDay zone w' offset ≤ today.toordinal + 365)) :
    ¬ o.Guarded today zone event := by
  intro hguarded
  obtain ⟨d', -, hrequested, hwindow⟩ := hguarded history event' hpass dateField w offset h
  obtain ⟨heq, -⟩ := h'.unique hrequested
  exact hout (heq ▸ hwindow)

/-- A call for an appointment at the time. -/
def bookAt (requestedDatetime : String) : ToolCallEvent :=
  (ToolCallOrchestrator.book [("requested_datetime", .str requestedDatetime)]).event

/-- In January 2027, 29 February 2024 is taken for that of 2028, 410 days ahead. And at two
    o'clock of UTC, on 1 August, it is still 31 July in New York. -/
theorem not_dateGuarded :
    ¬ calendarOrchestrator.Guarded ⟨2027, 1, 15, by decide⟩ ⟨0, []⟩
        (bookAt "2024-02-29T10:00:00") ∧
      ¬ calendarOrchestrator.Guarded ⟨2026, 8, 1, by decide⟩ ⟨-14400, []⟩
        (bookAt "2026-08-01T02:00Z") := by
  constructor
  · let asked : WallClock := ⟨⟨2024, 2, 29, by decide⟩, 10, 0, 0, 0, by decide⟩
    let booked : WallClock := ⟨⟨2028, 2, 29, by decide⟩, 10, 0, 0, 0, by decide⟩
    have hasked : Requested (bookAt "2024-02-29T10:00:00") "requested_datetime" asked none :=
      ⟨rfl, _, rfl, rfl⟩
    have hbooked : Requested (bookAt "2028-02-29T10:00:00") "requested_datetime" booked none :=
      ⟨rfl, _, rfl, rfl⟩
    have hpass : calendarOrchestrator.iso.checkRequestedDate ⟨2027, 1, 15, by decide⟩
        (bookAt "2024-02-29T10:00:00") [⟨.user, "the 29th of February at 10 AM", [], none⟩] =
        some (bookAt "2028-02-29T10:00:00", none) := by rfl
    exact not_guarded_of hasked hpass hbooked (by decide)
  · let asked : WallClock := ⟨⟨2026, 8, 1, by decide⟩, 2, 0, 0, 0, by decide⟩
    have hasked : Requested (bookAt "2026-08-01T02:00Z") "requested_datetime" asked
        (some 0) := ⟨rfl, _, rfl, rfl⟩
    have hsettles : Settles ⟨2026, 8, 1, by decide⟩ asked.date asked.date :=
      .asked le_rfl (Nat.le_add_right _ _)
    obtain ⟨history, event', hpass, hbooked⟩ :=
      hsettles.checkRequestedDate (o := calendarOrchestrator) hasked
    exact not_guarded_of hasked hpass hbooked (by decide)

end Yuviz.Conversation.Tools
