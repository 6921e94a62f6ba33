import Mathlib.Tactic.IntervalCases
import Yuviz.Conversation.Tools.Calendar
import Yuviz.Conversation.Tools.Localtime

/-!
# ISO 8601

`datetime.isoformat`. What it writes is read back (`fromisoformat_isoformat`), and what
is read has an offset of less than a day (`isOffset_of_fromisoformat`).
-/

namespace Yuviz.Conversation.Tools

variable {w : WallClock} {offset : Option ℤ} {s : List Char} {c : Char} {k n : ℕ}

/-! ### Writing -/

/-- `date.isoformat`. -/
def Date.isoformat (d : Date) : List Char :=
  digitsOf 4 d.year ++ '-' :: digitsOf 2 d.month ++ '-' :: digitsOf 2 d.day

/-- The microseconds, if there are any. -/
def fractionIso (microseconds : ℕ) : List Char :=
  if microseconds = 0 then [] else '.' :: digitsOf 6 microseconds

/-- `time.isoformat`. -/
def WallClock.timeIso (w : WallClock) : List Char :=
  digitsOf 2 w.hour ++ ':' :: (digitsOf 2 w.minute ++ ':' :: (digitsOf 2 w.second ++
    fractionIso w.microsecond))

/-- The hours and minutes, and the seconds, if there are any. -/
def spanIso (seconds microseconds : ℕ) : List Char :=
  digitsOf 2 (seconds / 3600) ++ ':' :: (digitsOf 2 (seconds / 60 % 60) ++
    if seconds % 60 = 0 ∧ microseconds = 0 then []
    else ':' :: (digitsOf 2 (seconds % 60) ++ fractionIso microseconds))

/-- `_format_offset`. -/
def offsetIso : Option ℤ → List Char
  | none => []
  | some offset => (if offset < 0 then '-' else '+') ::
      spanIso (offset.natAbs / 1000000) (offset.natAbs % 1000000)

/-- `datetime.isoformat`. -/
def isoformat (w : WallClock) (offset : Option ℤ) : List Char :=
  w.date.isoformat ++ 'T' :: (w.timeIso ++ offsetIso offset)

/-! ### Digits -/

theorem asciiDigit?_digitChar (h : n < 10) : asciiDigit? (Nat.digitChar n) = some n := by
  interval_cases n <;> rfl

theorem exists_mapM_digitsOf (h : n < 10 ^ k) :
    ∃ ds, (digitsOf k n).mapM asciiDigit? = some ds ∧ ds.foldl (fun n d => 10 * n + d) 0 = n := by
  induction k generalizing n with
  | zero => exact ⟨[], rfl, (Nat.lt_one_iff.mp h).symm⟩
  | succ k ih =>
    obtain ⟨ds, hds, hfold⟩ := @ih (n / 10) (by omega)
    refine ⟨ds ++ [n % 10], ?_, ?_⟩
    · rw [digitsOf, List.mapM_append, hds]
      simp [asciiDigit?_digitChar (Nat.mod_lt n (by omega : 0 < 10))]
    · rw [List.foldl_append, hfold, List.foldl_cons, List.foldl_nil]
      omega

/-- A number is read back, whatever comes after it. -/
theorem parseDigits_digitsOf (h : n < 10 ^ k) (t : List Char) :
    parseDigits k (digitsOf k n ++ t) = some (n, t) := by
  obtain ⟨ds, hds, hfold⟩ := exists_mapM_digitsOf h
  have hlength : ¬ (digitsOf k n ++ t).length < k := by
    rw [List.length_append, length_digitsOf]
    omega
  rw [parseDigits, if_neg hlength, List.take_left' (length_digitsOf k n),
    List.drop_left' (length_digitsOf k n), hds, Option.map_some, hfold]

theorem exists_of_mem_digitsOf (h : c ∈ digitsOf k n) : ∃ m < 10, c = Nat.digitChar m := by
  induction k generalizing n with
  | zero => exact absurd h List.not_mem_nil
  | succ k ih =>
    rw [digitsOf, List.mem_append, List.mem_singleton] at h
    rcases h with h | rfl
    · exact ih h
    · exact ⟨n % 10, Nat.mod_lt n (by omega), rfl⟩

/-! ### Reading a time -/

/-- Six digits are all of a fraction. -/
theorem parseFraction_digitsOf (h : n < 1000000) :
    parseFraction (digitsOf 6 n) = some (n, false) := by
  have hdigits := parseDigits_digitsOf (k := 6) h []
  rw [List.append_nil] at hdigits
  rw [parseFraction]
  simp [hdigits]

/-- A field that a colon and more follow. -/
theorem parseFields_cons {hasSeparator : Option Bool} (hsep : hasSeparator.getD true = true)
    (h : n < 100) (hs : s ≠ []) (fields : ℕ) :
    parseFields (fields + 1) hasSeparator (digitsOf 2 n ++ ':' :: s) =
      (parseFields fields (some true) s).map fun (values, us, more) =>
        (n :: values, us, more) := by
  rw [parseFields, parseDigits_digitsOf (k := 2) h]
  simp [hs, hsep]

/-- The last field of all. -/
theorem parseFields_last {hasSeparator : Option Bool} (h : n < 100) (fields : ℕ) :
    parseFields (fields + 1) hasSeparator (digitsOf 2 n) = some ([n], 0, false) := by
  have hdigits := parseDigits_digitsOf (k := 2) h []
  rw [List.append_nil] at hdigits
  rw [parseFields, hdigits]
  rfl

/-- Hours and minutes, and the rest behind another colon. -/
theorem parseTime_minutes {hour minute : ℕ} (hh : hour < 100) (hm : minute < 100) :
    parseTime (digitsOf 2 hour ++ ':' :: digitsOf 2 minute) =
      some ((hour, minute, 0, 0), false) := by
  rw [parseTime, parseFields_cons rfl hh (by simp [digitsOf]), parseFields_last hm]
  rfl

theorem parseTime_seconds {hour minute second microsecond : ℕ} (hh : hour < 100)
    (hm : minute < 100) (hs : second < 100) (hus : microsecond < 1000000) :
    parseTime (digitsOf 2 hour ++ ':' :: (digitsOf 2 minute ++ ':' :: (digitsOf 2 second ++
      fractionIso microsecond))) = some ((hour, minute, second, microsecond), false) := by
  rw [parseTime, parseFields_cons rfl hh (by simp [digitsOf]),
    parseFields_cons rfl hm (by simp [digitsOf])]
  rcases eq_or_ne microsecond 0 with rfl | hne
  · rw [fractionIso, if_pos rfl, List.append_nil, parseFields_last hs]
    rfl
  · have hdigits : digitsOf 6 microsecond ≠ [] := by simp [digitsOf]
    rw [fractionIso, if_neg hne, parseFields, parseDigits_digitsOf (k := 2) hs]
    simp [parseFraction_digitsOf hus, hdigits]

/-- A time of day is read back. -/
theorem parseTime_timeIso (w : WallClock) :
    parseTime w.timeIso = some ((w.hour, w.minute, w.second, w.microsecond), false) := by
  obtain ⟨hhour, hminute, hsecond, hmicrosecond⟩ := w.valid
  exact parseTime_seconds (by omega) (by omega) (by omega) hmicrosecond

/-- So is the time of an offset. -/
theorem parseTime_spanIso {seconds microseconds : ℕ} (h : seconds < 86400)
    (hmicroseconds : microseconds < 1000000) :
    parseTime (spanIso seconds microseconds) =
      some ((seconds / 3600, seconds / 60 % 60, seconds % 60, microseconds), false) := by
  have hhour : seconds / 3600 < 100 := by omega
  have hminute : seconds / 60 % 60 < 100 := by omega
  rw [spanIso]
  split_ifs with hwhole
  · rw [List.append_nil, parseTime_minutes hhour hminute, hwhole.1, hwhole.2]
  · exact parseTime_seconds hhour hminute (by omega) hmicroseconds

/-! ### Reading an offset -/

/-- Less than a day, and not less than a second, unless it is nothing. -/
def IsOffset (n : ℤ) : Prop := |n| < 86400000000 ∧ (n = 0 ∨ 1000000 ≤ |n|)

theorem not_mem_signs_of_mem_digitsOf (h : c ∈ digitsOf k n) : c ∉ signs := by
  obtain ⟨m, hm, rfl⟩ := exists_of_mem_digitsOf h
  interval_cases m <;> decide

theorem not_mem_signs_of_mem_fractionIso (h : c ∈ fractionIso n) : c ∉ signs := by
  rw [fractionIso] at h
  split_ifs at h
  · exact absurd h List.not_mem_nil
  · rcases List.mem_cons.mp h with rfl | h
    · decide
    · exact not_mem_signs_of_mem_digitsOf h

/-- There is no sign in a time, and so the first one is of the offset. -/
theorem not_mem_signs_of_mem_timeIso (h : c ∈ w.timeIso) : c ∉ signs := by
  simp only [WallClock.timeIso, List.mem_append, List.mem_cons] at h
  rcases h with h | rfl | h | rfl | h | h
  · exact not_mem_signs_of_mem_digitsOf h
  · decide
  · exact not_mem_signs_of_mem_digitsOf h
  · decide
  · exact not_mem_signs_of_mem_digitsOf h
  · exact not_mem_signs_of_mem_fractionIso h

/-- What is in front of the sign is the time, and what is behind it the offset. -/
theorem parseTimeAndOffset_sign {sign : Char} {seconds microseconds : ℕ}
    (hsign : sign ∈ ['-', '+']) (hs : seconds < 86400) (hus : microseconds < 1000000)
    (hzero : seconds = 0 → microseconds = 0) :
    parseTimeAndOffset (w.timeIso ++ sign :: spanIso seconds microseconds) =
      some ((w.hour, w.minute, w.second, w.microsecond),
        some (if sign = '-' then -(seconds * 1000000 + microseconds : ℤ)
          else seconds * 1000000 + microseconds)) := by
  have hmem : sign ∈ signs := by
    simp only [signs, List.mem_cons, List.not_mem_nil, or_false] at hsign ⊢
    tauto
  have hZ : sign ≠ 'Z' := by
    rintro rfl
    exact absurd hsign (by decide)
  have hne : ∀ c ∈ w.timeIso, decide (c ∉ signs) = true := fun c hc =>
    decide_eq_true (not_mem_signs_of_mem_timeIso hc)
  have hseconds : (seconds / 3600 * 60 + seconds / 60 % 60) * 60 + seconds % 60 = seconds := by
    omega
  have hoffset : (if seconds = 0 then 0 else (seconds * 1000000 + microseconds : ℤ)) =
      seconds * 1000000 + microseconds := by
    split_ifs with h
    · simp [h, hzero h]
    · rfl
  have htime : (w.timeIso ++ sign :: spanIso seconds microseconds).takeWhile (· ∉ signs) =
      w.timeIso := by
    rw [List.takeWhile_append_of_pos hne, List.takeWhile_cons_of_neg (by simpa using hmem),
      List.append_nil]
  have hspan : (w.timeIso ++ sign :: spanIso seconds microseconds).dropWhile (· ∉ signs) =
      sign :: spanIso seconds microseconds := by
    rw [List.dropWhile_append_of_pos hne, List.dropWhile_cons_of_neg (by simpa using hmem)]
  rw [parseTimeAndOffset, htime, hspan, parseTime_timeIso]
  change (if sign = 'Z' then _ else (parseTime (spanIso seconds microseconds)).bind _) = _
  rw [if_neg hZ, parseTime_spanIso hs hus, Option.bind_some]
  dsimp only
  rw [hseconds, hoffset]
  exact if_pos ⟨rfl, by omega⟩

theorem parseTimeAndOffset_isoformat (w : WallClock) (hoffset : ∀ n, offset = some n → IsOffset n) :
    parseTimeAndOffset (w.timeIso ++ offsetIso offset) =
      some ((w.hour, w.minute, w.second, w.microsecond), offset) := by
  cases offset with
  | none =>
    have hall : ∀ c ∈ w.timeIso, decide (c ∉ signs) = true := fun c hc =>
      decide_eq_true (not_mem_signs_of_mem_timeIso hc)
    rw [offsetIso, List.append_nil, parseTimeAndOffset, List.takeWhile_eq_self_iff.2 hall,
      List.dropWhile_eq_nil_iff.2 hall, parseTime_timeIso]
    rfl
  | some n =>
    obtain ⟨hlt, hzero⟩ := hoffset n rfl
    rw [abs_lt] at hlt
    rw [le_abs] at hzero
    have hs : n.natAbs / 1000000 < 86400 := by omega
    have hus : n.natAbs % 1000000 < 1000000 := by omega
    have hwhole : n.natAbs / 1000000 = 0 → n.natAbs % 1000000 = 0 := by omega
    rw [offsetIso]
    split_ifs with hneg
    · rw [parseTimeAndOffset_sign (by decide) hs hus hwhole, if_pos rfl]
      simp only [Option.some.injEq, Prod.mk.injEq, true_and]
      omega
    · rw [parseTimeAndOffset_sign (by decide) hs hus hwhole, if_neg (by decide)]
      simp only [Option.some.injEq, Prod.mk.injEq, true_and]
      omega

/-! ### The round trip -/

theorem digitsOf_two (n : ℕ) :
    digitsOf 2 n = [Nat.digitChar (n / 10 % 10), Nat.digitChar (n % 10)] := rfl

theorem digitChar_ne {m : ℕ} (h : m < 10) : Nat.digitChar m ≠ 'W' := by
  interval_cases m <;> decide

theorem parseDate_isoformat (d : Date) (s : List Char) :
    parseDate 10 (d.isoformat ++ s) = some d := by
  obtain ⟨⟨-, hyear⟩, ⟨-, hmonth⟩, -, hday⟩ := d.valid
  have hle := daysInMonth_le d.year d.month
  have hW : ¬ (digitsOf 2 d.month ++ '-' :: (digitsOf 2 d.day ++ s)).head? = some 'W' := by
    rw [digitsOf_two]
    exact fun h => digitChar_ne (Nat.mod_lt _ (by omega)) (Option.some.inj h)
  have htext : d.isoformat ++ s = digitsOf 4 d.year ++ ('-' :: (digitsOf 2 d.month ++
      '-' :: (digitsOf 2 d.day ++ s))) := by
    simp [Date.isoformat]
  rw [htext, parseDate, parseDigits_digitsOf (k := 4) (by omega)]
  simp only [Option.bind_eq_bind, Option.bind_some, List.head?_cons, if_true, List.tail_cons,
    if_neg hW, parseDigits_digitsOf (k := 2) (by omega : d.month < 10 ^ 2),
    parseDigits_digitsOf (k := 2) (by omega : d.day < 10 ^ 2), dif_pos d.valid]

/-- What is written has its separator after ten characters. -/
theorem findSeparator_isoformat (w : WallClock) (offset : Option ℤ) :
    19 ≤ (isoformat w offset).length ∧ findSeparator (isoformat w offset) = some 10 := by
  have hlength : 19 ≤ (isoformat w offset).length := by
    simp only [isoformat, Date.isoformat, WallClock.timeIso, List.length_append, List.length_cons,
      length_digitsOf]
    omega
  have hdash : (isoformat w offset)[4]? = some '-' := rfl
  have hmonth : (isoformat w offset)[5]? = some (Nat.digitChar (w.date.month / 10 % 10)) := rfl
  have hW : ¬ some (Nat.digitChar (w.date.month / 10 % 10)) = some 'W' := by
    rw [Option.some.injEq]
    exact digitChar_ne (Nat.mod_lt _ (by omega))
  refine ⟨hlength, ?_⟩
  rw [findSeparator, if_neg (by omega), if_pos hdash, hmonth, if_neg hW]

theorem fromisoformat_isoformat (w : WallClock) (hoffset : ∀ n, offset = some n → IsOffset n) :
    fromisoformat (isoformat w offset) = some (w, offset) := by
  have hdate : parseDate 10 (isoformat w offset) = some w.date := parseDate_isoformat _ _
  have htime : (isoformat w offset).drop 11 = w.timeIso ++ offsetIso offset := rfl
  obtain ⟨hlength, hpos⟩ := findSeparator_isoformat w offset
  rw [fromisoformat, if_neg (by omega)]
  simp only [hpos, hdate, Option.bind_eq_bind, Option.bind_some]
  rw [if_neg (by omega), htime, parseTimeAndOffset_isoformat w hoffset, Option.bind_some]
  exact dif_pos w.valid

theorem isOffset_of_parseTimeAndOffset {time : ℕ × ℕ × ℕ × ℕ} {n : ℤ}
    (h : parseTimeAndOffset s = some (time, some n)) : IsOffset n := by
  rw [parseTimeAndOffset] at h
  obtain ⟨⟨time', more⟩, -, h⟩ := Option.bind_eq_some_iff.1 h
  dsimp only at h
  split at h
  · split_ifs at h
    obtain ⟨-, h⟩ := Prod.mk.inj (Option.some.inj h)
    exact absurd h.symm (Option.some_ne_none n)
  · next sign rest hrest =>
    by_cases hZ : sign = 'Z'
    · rw [if_pos hZ] at h
      obtain ⟨-, h⟩ := Option.ite_none_right_eq_some.1 h
      obtain ⟨-, h⟩ := Prod.mk.inj (Option.some.inj h)
      rw [← Option.some.inj h]
      exact ⟨by decide, .inl rfl⟩
    · rw [if_neg hZ] at h
      obtain ⟨⟨⟨hours, minutes, seconds, microseconds⟩, more'⟩, -, h⟩ :=
        Option.bind_eq_some_iff.1 h
      dsimp only at h
      generalize (hours * 60 + minutes) * 60 + seconds = total at h
      obtain ⟨⟨-, hlt⟩, h⟩ := Option.ite_none_right_eq_some.1 h
      obtain ⟨-, h⟩ := Prod.mk.inj (Option.some.inj h)
      obtain rfl := Option.some.inj h
      rw [IsOffset, abs_lt, le_abs]
      split_ifs at hlt ⊢ <;> omega

/-- An offset is less than a day, and not less than a second. -/
theorem isOffset_of_fromisoformat (h : fromisoformat s = some (w, offset)) :
    ∀ n, offset = some n → IsOffset n := by
  rintro n rfl
  rw [fromisoformat] at h
  split_ifs at h
  simp only [Option.bind_eq_bind, Option.bind_eq_some_iff] at h
  obtain ⟨pos, -, date, -, h⟩ := h
  split_ifs at h
  · rw [Option.bind_some] at h
    split_ifs at h
    obtain ⟨-, h⟩ := Prod.mk.inj (Option.some.inj h)
    exact absurd h.symm (Option.some_ne_none n)
  · obtain ⟨⟨time, offset⟩, htime, h⟩ := Option.bind_eq_some_iff.1 h
    dsimp only at h
    split_ifs at h
    obtain ⟨-, rfl⟩ := Prod.mk.inj (Option.some.inj h)
    exact isOffset_of_parseTimeAndOffset htime

end Yuviz.Conversation.Tools
