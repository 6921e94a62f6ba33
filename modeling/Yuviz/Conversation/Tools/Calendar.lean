import Mathlib.Tactic.IntervalCases
import Yuviz.Conversation.Tools.DateSanity

/-!
# Days of the calendar

The days are numbered in their order (`Date.lt_iff`), and a year later is at most 366
days later (`Date.toordinal_le_of_replaceYear`).
-/

namespace Yuviz.Conversation.Tools

variable {d e d' today : Date} {year month day : ℕ}

/-- The days before a year. -/
def daysBeforeYear (year : ℕ) : ℕ :=
  let y := year - 1
  y * 365 + y / 4 - y / 100 + y / 400

/-- The days of a year before a month. -/
def daysBeforeMonth (year month : ℕ) : ℕ :=
  ((List.range (month - 1)).map fun m => daysInMonth year (m + 1)).sum

/-- The day that is added to a leap year. -/
def leapDay (year : ℕ) : ℕ := if IsLeap year then 1 else 0

theorem leapDay_le (year : ℕ) : leapDay year ≤ 1 := by
  rw [leapDay]
  split_ifs <;> omega

theorem daysInMonth_le (year month : ℕ) : daysInMonth year month ≤ 31 := by
  rw [daysInMonth.eq_def]
  split
  · split_ifs <;> omega
  all_goals omega

theorem Date.toordinal_eq (d : Date) :
    d.toordinal = daysBeforeYear d.year + daysBeforeMonth d.year d.month + d.day := rfl

theorem daysBeforeYear_succ (h : 1 ≤ year) :
    daysBeforeYear (year + 1) = daysBeforeYear year + 365 + leapDay year := by
  obtain ⟨y, rfl⟩ := Nat.exists_eq_add_of_le' h
  have hle : y / 100 ≤ y / 4 := Nat.div_le_div_left (by omega) (by omega)
  have h100 : 100 ∣ y + 1 → 4 ∣ y + 1 := (show 4 ∣ 100 by decide).trans
  have h400 : 400 ∣ y + 1 → 100 ∣ y + 1 := (show 100 ∣ 400 by decide).trans
  simp only [daysBeforeYear, leapDay, IsLeap, Nat.add_sub_cancel, Nat.succ_div, ne_eq,
    ← Nat.dvd_iff_mod_eq_zero]
  generalize y / 4 = a at *
  generalize y / 100 = b at *
  generalize y / 400 = c
  by_cases d4 : 4 ∣ y + 1 <;> by_cases d100 : 100 ∣ y + 1 <;> by_cases d400 : 400 ∣ y + 1 <;>
    simp only [d4, d100, d400, forall_const, imp_false] at h100 h400 <;>
    simp [d4, d100, d400] <;> omega

theorem daysBeforeYear_mono {year' : ℕ} (h : 1 ≤ year) (hle : year ≤ year') :
    daysBeforeYear year ≤ daysBeforeYear year' := by
  induction year', hle using Nat.le_induction with
  | base => exact le_rfl
  | succ year' hle ih =>
    rw [daysBeforeYear_succ (h.trans hle)]
    omega

theorem daysBeforeMonth_succ (h : 1 ≤ month) :
    daysBeforeMonth year (month + 1) = daysBeforeMonth year month + daysInMonth year month := by
  obtain ⟨m, rfl⟩ := Nat.exists_eq_add_of_le' h
  rw [daysBeforeMonth, daysBeforeMonth, Nat.add_sub_cancel, Nat.add_sub_cancel, List.range_succ]
  simp

theorem daysBeforeMonth_mono (year : ℕ) {month' : ℕ} (h : 1 ≤ month) (hle : month ≤ month') :
    daysBeforeMonth year month ≤ daysBeforeMonth year month' := by
  induction month', hle using Nat.le_induction with
  | base => exact le_rfl
  | succ month' hle ih =>
    rw [daysBeforeMonth_succ (h.trans hle)]
    omega

theorem daysInMonth_eq (year month : ℕ) :
    daysInMonth year month = daysInMonth 1 month + if month = 2 then leapDay year else 0 := by
  rcases eq_or_ne month 2 with rfl | hne
  · rw [if_pos rfl, daysInMonth, leapDay]
    split_ifs <;> rfl
  · rw [if_neg hne, add_zero, daysInMonth.eq_def, daysInMonth.eq_def]
    split <;> trivial

/-- The years differ in the days after February only. -/
theorem daysBeforeMonth_eq (h : 1 ≤ month) (year : ℕ) :
    daysBeforeMonth year month =
      daysBeforeMonth 1 month + if 3 ≤ month then leapDay year else 0 := by
  induction month, h using Nat.le_induction with
  | base => rfl
  | succ month h ih =>
    rw [daysBeforeMonth_succ h, daysBeforeMonth_succ h, ih, daysInMonth_eq year]
    split_ifs <;> omega

theorem daysBeforeMonth_year (year : ℕ) : daysBeforeMonth year 13 = 365 + leapDay year := by
  rw [daysBeforeMonth_eq (by omega), if_pos (by omega)]
  rfl

theorem Date.le_daysBeforeMonth_succ (d : Date) :
    daysBeforeMonth d.year d.month + d.day ≤ daysBeforeMonth d.year (d.month + 1) := by
  obtain ⟨-, ⟨hmonth, -⟩, -, hday⟩ := d.valid
  rw [daysBeforeMonth_succ hmonth]
  omega

theorem Date.toordinal_le (d : Date) : d.toordinal ≤ daysBeforeYear (d.year + 1) := by
  have hle := d.le_daysBeforeMonth_succ
  have hmono := daysBeforeMonth_mono d.year (Nat.le_add_left 1 d.month)
    (Nat.succ_le_succ d.valid.2.1.2)
  rw [daysBeforeMonth_year] at hmono
  rw [d.toordinal_eq, daysBeforeYear_succ d.valid.1.1]
  omega

theorem Date.toordinal_lt (h : d.lt e = true) : d.toordinal < e.toordinal := by
  have hday := d.valid.2.2.1
  have hday' := e.valid.2.2.1
  simp only [Date.lt, Bool.or_eq_true, Bool.and_eq_true, decide_eq_true_eq] at h
  rcases h with hyear | ⟨hyear, hmonth | ⟨hmonth, hday⟩⟩
  · have hle := d.toordinal_le
    have hmono := daysBeforeYear_mono (Nat.le_add_left 1 d.year) hyear
    rw [e.toordinal_eq]
    omega
  · have hle := d.le_daysBeforeMonth_succ
    have hmono := daysBeforeMonth_mono d.year (Nat.le_add_left 1 d.month) hmonth
    rw [d.toordinal_eq, e.toordinal_eq, ← hyear]
    omega
  · rw [d.toordinal_eq, e.toordinal_eq, hyear, hmonth]
    omega

/-- The days are numbered in their order. -/
theorem Date.lt_iff : d.lt e = true ↔ d.toordinal < e.toordinal := by
  refine ⟨Date.toordinal_lt, fun hlt => ?_⟩
  by_contra hd
  have he : ¬ e.lt d = true := fun he => absurd (Date.toordinal_lt he) hlt.not_gt
  simp only [Date.lt, Bool.or_eq_true, Bool.and_eq_true, decide_eq_true_eq] at hd he
  have hyear : d.year = e.year := by omega
  have hmonth : d.month = e.month := by omega
  have hday : d.day = e.day := by omega
  rw [d.toordinal_eq, e.toordinal_eq, hyear, hmonth, hday] at hlt
  exact hlt.false

/-! ### The same day of another year -/

/-- `e` is the day that is written like `d`, but for the year. -/
def Date.SameDay (d e : Date) : Prop := e.month = d.month ∧ e.day = d.day

theorem Date.replaceYear_eq_some : d.replaceYear year = some e ↔ d.SameDay e ∧ e.year = year := by
  rw [replaceYear]
  split_ifs with hvalid
  · constructor
    · rintro ⟨⟩
      exact ⟨⟨rfl, rfl⟩, rfl⟩
    · obtain ⟨year', month', day', hvalid'⟩ := e
      rintro ⟨⟨rfl, rfl⟩, rfl⟩
      rfl
  · refine ⟨False.elim, ?_⟩
    obtain ⟨year', month', day', hvalid'⟩ := e
    rintro ⟨⟨rfl, rfl⟩, rfl⟩
    exact absurd hvalid' hvalid

theorem Date.toordinal_sameYear (h : d.year = today.year) :
    d.toordinal ≤ today.toordinal + 365 := by
  have hday := today.valid.2.2.1
  have hle := d.toordinal_le
  have hleap := leapDay_le d.year
  rw [daysBeforeYear_succ d.valid.1.1, h] at hle
  rw [h] at hleap
  rw [today.toordinal_eq]
  omega

/-- A year later is at most 366 days later. -/
theorem Date.SameDay.toordinal_le (h : d.SameDay e) (hyear : e.year = d.year + 1) :
    e.toordinal ≤ d.toordinal + 366 := by
  have hleap := leapDay_le d.year
  have hleap' := leapDay_le e.year
  have hmonth := d.valid.2.1.1
  rw [e.toordinal_eq, d.toordinal_eq, h.1, h.2, hyear, daysBeforeYear_succ d.valid.1.1,
    daysBeforeMonth_eq hmonth, daysBeforeMonth_eq hmonth d.year, ← hyear]
  split_ifs <;> omega

/-- It is 29 February, which there is next year, but not this one, and it is January or
    February. -/
def LeapSlip (today d : Date) : Prop :=
  (d.month = 2 ∧ d.day = 29) ∧ (¬ IsLeap today.year ∧ IsLeap (today.year + 1)) ∧ today.month ≤ 2

instance (today d : Date) : Decidable (LeapSlip today d) := inferInstanceAs (Decidable (_ ∧ _))

/-- What is missing in a year, but not in the next, is 29 February. -/
theorem Date.replaceYear_eq_none (h : d.replaceYear today.year = none)
    (he : d.SameDay e) (hyear : e.year = today.year + 1) :
    (d.month = 2 ∧ d.day = 29) ∧ ¬ IsLeap today.year ∧ IsLeap (today.year + 1) := by
  rw [replaceYear] at h
  split_ifs at h with hvalid
  have hday : e.day ≤ daysInMonth e.year e.month := e.valid.2.2.2
  have hmissing : ¬ d.day ≤ daysInMonth today.year d.month := fun hle =>
    hvalid ⟨today.valid.1, d.valid.2.1, d.valid.2.2.1, hle⟩
  rw [he.1, he.2, hyear, daysInMonth_eq] at hday
  rw [daysInMonth_eq] at hmissing
  by_cases hmonth : d.month = 2
  · rw [if_pos hmonth, hmonth, leapDay] at hday hmissing
    have hfeb : daysInMonth 1 2 = 28 := by decide
    split_ifs at hday hmissing with hnext hthis
    all_goals first
      | omega
      | exact ⟨⟨hmonth, by omega⟩, hthis, hnext⟩
  · rw [if_neg hmonth] at hday hmissing
    exact absurd hday hmissing

/-- 29 February of a later year is more than 60 days into it. -/
theorem Date.SameDay.toordinal_feb (h : d.SameDay e) (hyear : today.year < e.year)
    (hfeb : d.month = 2 ∧ d.day = 29) :
    daysBeforeYear today.year + 365 + leapDay today.year + 60 ≤ e.toordinal := by
  have hmono := daysBeforeYear_mono (Nat.le_add_left 1 today.year) hyear
  have hdays : daysBeforeMonth 1 2 = 31 := by decide
  rw [daysBeforeYear_succ today.valid.1.1] at hmono
  rw [e.toordinal_eq, h.1, h.2, hfeb.1, hfeb.2, daysBeforeMonth_eq (by omega), hdays,
    if_neg (by omega)]
  omega

theorem Date.SameDay.toordinal_feb_succ (h : d.SameDay e) (hyear : e.year = today.year + 1)
    (hfeb : d.month = 2 ∧ d.day = 29) :
    e.toordinal = daysBeforeYear today.year + 365 + leapDay today.year + 60 := by
  have hdays : daysBeforeMonth 1 2 = 31 := by decide
  rw [e.toordinal_eq, h.1, h.2, hfeb.1, hfeb.2, hyear, daysBeforeYear_succ today.valid.1.1,
    daysBeforeMonth_eq (by omega), hdays, if_neg (by omega)]

/-- The first two months of a year that is no leap year have 59 days. -/
theorem Date.toordinal_lt_march (hleap : ¬ IsLeap today.year) :
    today.toordinal < daysBeforeYear today.year + 60 ↔ today.month ≤ 2 := by
  have hthis : leapDay today.year = 0 := if_neg hleap
  have hmarch : daysBeforeMonth today.year 3 = 59 := by
    rw [daysBeforeMonth_eq (by omega), hthis]
    decide
  have hday := today.valid.2.2.1
  rw [today.toordinal_eq]
  constructor
  · intro hlt
    by_contra hlate
    have hmono := daysBeforeMonth_mono today.year (by omega : 1 ≤ 3) (not_le.mp hlate)
    omega
  · intro hearly
    have hle := today.le_daysBeforeMonth_succ
    have hmono := daysBeforeMonth_mono today.year (Nat.le_add_left 1 today.month)
      (by omega : today.month + 1 ≤ 3)
    omega

theorem LeapSlip.ne_year (h : LeapSlip today d) (hsame : d.SameDay e) : e.year ≠ today.year := by
  intro hyear
  have hday : e.day ≤ daysInMonth e.year e.month := e.valid.2.2.2
  rw [hsame.1, hsame.2, h.1.1, h.1.2, hyear, daysInMonth, if_neg h.2.1.1] at hday
  omega

theorem LeapSlip.lt_toordinal (h : LeapSlip today d) (hsame : d.SameDay e)
    (hyear : today.year < e.year) : today.toordinal + 365 < e.toordinal := by
  have hle := hsame.toordinal_feb hyear h.1
  have hlt := (Date.toordinal_lt_march h.2.1.1).mpr h.2.2
  omega

end Yuviz.Conversation.Tools
