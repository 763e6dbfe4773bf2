import Mathlib.Data.List.Forall2
import Mathlib.Data.String.Basic
import Mathlib.Order.Monotone.Basic
import DocStore.Timestamp
/-!
# Timestamps are in the order of time

A timestamp is a row of numbers of fixed widths, from the year down to the millisecond, so comparing
two texts compares the first numbers in which they differ. The calendar hands out its days in the
same order. Both together make the text of a later reading of the clock the greater one, up to the
year 9999.

* `Date.yearStart_marchYear`: the year in which a day falls.
* `Date.ofEpochDays_before`: later days have later dates.
* `Timestamp.text_le_text`: later readings have later texts.
-/

namespace DocStore

namespace Date

-- ---------------------------------------------------------------------------
-- The year of a day
-- ---------------------------------------------------------------------------

/-- How many days lie before 1 March of a year: every fourth year has a leap day, of the centuries
only every fourth. -/
def yearStart (year : Nat) : Nat := 365 * year + year / 4 - year / 100 + year / 400

/-- The year, counted from March, in which a day falls. -/
def marchYear (days : Nat) : Nat :=
  let dayOfEra := days % 146097
  days / 146097 * 400 +
    (dayOfEra - dayOfEra / 1460 + dayOfEra / 36524 - dayOfEra / 146096) / 365

/-- A day of four centuries, taken apart: centuries of 36524 days, four years of 1461, years of 365.
Only the last year of four has a day more, and only the last century a last such year. -/
theorem exists_dayOfEra {day : Nat} (h : day < 146097) :
    ∃ century fourth year dayOfYear,
      day = 36524 * century + 1461 * fourth + 365 * year + dayOfYear ∧
        century ≤ 3 ∧ fourth ≤ 24 ∧ year ≤ 3 ∧ (dayOfYear ≤ 364 ∨ dayOfYear = 365 ∧ year = 3) ∧
        (fourth = 24 → year = 3 → dayOfYear = 365 → century = 3) := by
  -- the last day of the era would start a fifth century, and that of a leap year a fifth year
  obtain ⟨century, hcentury⟩ : ∃ century, century = min (day / 36524) 3 := ⟨_, rfl⟩
  obtain ⟨fourth, hfourth⟩ : ∃ fourth, fourth = (day - 36524 * century) / 1461 := ⟨_, rfl⟩
  obtain ⟨rest, hrest⟩ : ∃ rest, rest = day - 36524 * century - 1461 * fourth := ⟨_, rfl⟩
  refine ⟨century, fourth, min (rest / 365) 3, rest - 365 * min (rest / 365) 3, ?_⟩
  omega

/-- The year of four centuries is read off its day by leaving out the leap days. -/
theorem yearOfEra_eq {century fourth year dayOfYear day : Nat}
    (hday : day = 36524 * century + 1461 * fourth + 365 * year + dayOfYear)
    (hcentury : century ≤ 3) (hfourth : fourth ≤ 24) (hyear : year ≤ 3)
    (hdayOfYear : dayOfYear ≤ 364 ∨ dayOfYear = 365 ∧ year = 3)
    (hlast : fourth = 24 → year = 3 → dayOfYear = 365 → century = 3) :
    (day - day / 1460 + day / 36524 - day / 146096) / 365 = 100 * century + 4 * fourth + year := by
  have hcenturies : day / 36524 = day / 146096 + century := by
    have hquarter : day / 146096 = day / 36524 / 4 := by omega
    have hlastDay : day / 36524 = century ∨ day / 36524 = 4 ∧ century = 3 := by omega
    omega
  have hfourths : day / 1460 = 25 * century + fourth ∨ day / 1460 = 25 * century + fourth + 1 := by
    omega
  -- what is left of the days of its year is less than 365 either way
  have hrest : day - day / 1460 + century =
        365 * (100 * century + 4 * fourth + year) + dayOfYear ∧ dayOfYear ≤ 364 ∨
      day - day / 1460 + century + 1 =
        365 * (100 * century + 4 * fourth + year) + dayOfYear ∧ 1 ≤ dayOfYear := by
    omega
  -- the quotient by 365 is decided by what is left; the rest only slows the search down
  clear hday hlast hfourths
  omega

/-- The days before a year of an era. -/
theorem yearStart_year (era : Nat) {century fourth year : Nat} (hcentury : century ≤ 3)
    (hfourth : fourth ≤ 24) (hyear : year ≤ 3) :
    yearStart (era * 400 + (100 * century + 4 * fourth + year)) =
      146097 * era + 36524 * century + 1461 * fourth + 365 * year := by
  have hfours : (era * 400 + (100 * century + 4 * fourth + year)) / 4 =
      era * 100 + 25 * century + fourth := by omega
  have hcenturies : (era * 400 + (100 * century + 4 * fourth + year)) / 100 =
      era * 4 + century := by omega
  have heras : (era * 400 + (100 * century + 4 * fourth + year)) / 400 = era := by omega
  rw [yearStart, hfours, hcenturies, heras]
  omega

/-- How many days a year has, counted from March: the leap day is at its end. -/
theorem yearStart_succ (year : Nat) :
    yearStart (year + 1) = yearStart year + 365 +
      if (year + 1) % 4 = 0 ∧ ((year + 1) % 100 = 0 → (year + 1) % 400 = 0) then 1 else 0 := by
  have hfours : (year + 1) / 4 = year / 4 + if (year + 1) % 4 = 0 then 1 else 0 := by
    split <;> omega
  have hcenturies : (year + 1) / 100 = year / 100 + if (year + 1) % 100 = 0 then 1 else 0 := by
    split <;> omega
  have heras : (year + 1) / 400 = year / 400 + if (year + 1) % 400 = 0 then 1 else 0 := by
    split <;> omega
  have hfewer : year / 100 ≤ year / 4 := by omega
  rw [yearStart, yearStart, hfours, hcenturies, heras]
  by_cases hera : (year + 1) % 400 = 0
  · have hcentury : (year + 1) % 100 = 0 := by omega
    have hfourth : (year + 1) % 4 = 0 := by omega
    rw [if_pos hera, if_pos hcentury, if_pos hfourth, if_pos ⟨hfourth, fun _ => hera⟩]
    omega
  · by_cases hcentury : (year + 1) % 100 = 0
    · have hfourth : (year + 1) % 4 = 0 := by omega
      rw [if_neg hera, if_pos hcentury, if_pos hfourth, if_neg fun h => hera (h.2 hcentury)]
      omega
    · by_cases hfourth : (year + 1) % 4 = 0
      · rw [if_neg hera, if_neg hcentury, if_pos hfourth,
          if_pos ⟨hfourth, fun h => absurd h hcentury⟩]
        omega
      · rw [if_neg hera, if_neg hcentury, if_neg hfourth, if_neg fun h => hfourth h.1]
        omega

/-- **A day falls in the year that has begun and whose next has not.** -/
theorem yearStart_marchYear (days : Nat) :
    yearStart (marchYear days) ≤ days ∧ days < yearStart (marchYear days + 1) := by
  obtain ⟨century, fourth, year, dayOfYear, hday, hcentury, hfourth, hyear, hdayOfYear, hlast⟩ :=
    exists_dayOfEra (Nat.mod_lt days (by decide : 146097 > 0))
  have hera := Nat.div_add_mod days 146097
  have hstart := yearStart_year (days / 146097) hcentury hfourth hyear
  have hyearOfEra := yearOfEra_eq hday hcentury hfourth hyear hdayOfYear hlast
  rw [marchYear, hyearOfEra, yearStart_succ, hstart]
  refine ⟨by omega, ?_⟩
  rcases hdayOfYear with hshort | ⟨hlong, hthird⟩
  · omega
  · -- the last day of a leap year
    have hfourthYear : (days / 146097 * 400 + (100 * century + 4 * fourth + year) + 1) % 4 = 0 := by
      omega
    have hcenturies : (days / 146097 * 400 + (100 * century + 4 * fourth + year) + 1) % 100 = 0 →
        (days / 146097 * 400 + (100 * century + 4 * fourth + year) + 1) % 400 = 0 := by
      intro hwhole
      have hlastFourth : fourth = 24 := by omega
      have hlastCentury := hlast hlastFourth hthird hlong
      omega
    rw [if_pos ⟨hfourthYear, hcenturies⟩]
    omega

/-- Later years start on later days. -/
theorem yearStart_mono {a b : Nat} (h : a ≤ b) : yearStart a ≤ yearStart b := by
  have hstep : ∀ year, yearStart year ≤ yearStart (year + 1) := by
    intro year
    rw [yearStart_succ]
    omega
  exact monotone_nat_of_le_succ hstep h

/-- Later days fall in later years. -/
theorem marchYear_mono {a b : Nat} (h : a ≤ b) : marchYear a ≤ marchYear b := by
  by_contra hlater
  -- otherwise the year after the later one would start no later than the earlier day
  have hnext : yearStart (marchYear b + 1) ≤ yearStart (marchYear a) :=
    yearStart_mono (Nat.lt_of_not_le hlater)
  have ha := (yearStart_marchYear a).1
  have hb := (yearStart_marchYear b).2
  omega

-- ---------------------------------------------------------------------------
-- The order of dates
-- ---------------------------------------------------------------------------

/-- A date lies before another: the first number in which they differ is smaller. -/
def Before (a b : Date) : Prop :=
  a.year < b.year ∨
    a.year = b.year ∧ (a.month < b.month ∨ a.month = b.month ∧ a.day < b.day)

/-- The date of a day of a year that starts in March, where day 0 is 1 March. -/
def ofYearDay (year dayOfYear : Nat) : Date :=
  let fromMarch := (5 * dayOfYear + 2) / 153
  let month := if fromMarch < 10 then fromMarch + 3 else fromMarch - 9
  ⟨year + (if month ≤ 2 then 1 else 0), month, dayOfYear - (153 * fromMarch + 2) / 5 + 1⟩

/-- Months counted from the year 0 go on from February to March without a gap, and all numbers of
a date but its year have at most two digits. -/
theorem ofYearDay_spec (year : Nat) {dayOfYear : Nat} (h : dayOfYear ≤ 365) :
    12 * (ofYearDay year dayOfYear).year + (ofYearDay year dayOfYear).month =
        12 * year + (5 * dayOfYear + 2) / 153 + 3 ∧
      1 ≤ (ofYearDay year dayOfYear).month ∧ (ofYearDay year dayOfYear).month ≤ 12 ∧
      (ofYearDay year dayOfYear).day ≤ 31 := by
  have hmonths : (5 * dayOfYear + 2) / 153 ≤ 11 := by omega
  simp only [ofYearDay]
  refine ⟨?_, ?_, ?_, by omega⟩ <;> split <;> first | omega | (split <;> omega)

/-- The day's date, by the year in which it falls. -/
theorem ofMarchDays_eq (days : Nat) :
    ofMarchDays days = ofYearDay (marchYear days) (days - yearStart (marchYear days)) := by
  obtain ⟨year, hyear⟩ : ∃ year, year =
    (days % 146097 - days % 146097 / 1460 + days % 146097 / 36524 - days % 146097 / 146096) / 365 :=
    ⟨_, rfl⟩
  have hfew : year < 400 := by omega
  have hmarchYear : marchYear days = days / 146097 * 400 + year := by rw [marchYear, hyear]
  have hdayOfYear : days - yearStart (marchYear days) =
      days % 146097 - (365 * year + year / 4 - year / 100) := by
    have hfours : (days / 146097 * 400 + year) / 4 = days / 146097 * 100 + year / 4 := by omega
    have hcenturies : (days / 146097 * 400 + year) / 100 = days / 146097 * 4 + year / 100 := by
      omega
    have heras : (days / 146097 * 400 + year) / 400 = days / 146097 := by omega
    rw [hmarchYear, yearStart, hfours, hcenturies, heras]
    clear hyear hmarchYear hfours hcenturies heras
    omega
  rw [hdayOfYear, hmarchYear, hyear]
  simp only [ofMarchDays, ofYearDay]
  congr 1
  omega

/-- Dates of one year are in the order of its days, and dates of different years in that of the
years. -/
theorem ofYearDay_before {year year' day day' : Nat} (hday : day ≤ 365) (hday' : day' ≤ 365)
    (h : year < year' ∨ year = year' ∧ day < day') :
    (ofYearDay year day).Before (ofYearDay year' day') := by
  obtain ⟨hmonths, hfirst, hlast, -⟩ := ofYearDay_spec year hday
  obtain ⟨hmonths', hfirst', hlast', -⟩ := ofYearDay_spec year' hday'
  rw [Before]
  rcases h with hyear | ⟨rfl, hless⟩
  · omega
  · -- months count from March, so a later day is in the same month or in a later one
    by_cases hsame : (5 * day + 2) / 153 = (5 * day' + 2) / 153
    · -- in one month the days decide
      have hdays : (ofYearDay year day).day < (ofYearDay year day').day := by
        simp only [ofYearDay]
        omega
      omega
    · omega

/-- A day's number within its year, counted from March. -/
theorem sub_yearStart_le (days : Nat) : days - yearStart (marchYear days) ≤ 365 := by
  have hnext := (yearStart_marchYear days).2
  rw [yearStart_succ] at hnext
  split at hnext <;> omega

/-- **Later days have later dates.** -/
theorem ofEpochDays_before {a b : Nat} (h : a < b) : (ofEpochDays a).Before (ofEpochDays b) := by
  have hless : a + 719468 < b + 719468 := by omega
  rw [ofEpochDays, ofEpochDays, ofMarchDays_eq, ofMarchDays_eq]
  apply ofYearDay_before (sub_yearStart_le _) (sub_yearStart_le _)
  rcases Nat.lt_or_eq_of_le (marchYear_mono hless.le) with hyear | hyear
  · exact .inl hyear
  · have hbegun := (yearStart_marchYear (a + 719468)).1
    rw [hyear] at hbegun ⊢
    exact .inr ⟨rfl, by omega⟩

/-- The numbers of a date up to the year 9999 fit their widths. -/
theorem ofEpochDays_bounds {days : Nat} (h : days ≤ 2932896) :
    (ofEpochDays days).year ≤ 9999 ∧ (ofEpochDays days).month ≤ 12 ∧
      (ofEpochDays days).day ≤ 31 := by
  have hlastDay : ofEpochDays 2932896 = ⟨9999, 12, 31⟩ := by decide
  have hyear : (ofEpochDays days).year ≤ 9999 := by
    rcases Nat.lt_or_eq_of_le h with hless | rfl
    · have hbefore := ofEpochDays_before hless
      simp only [Before, hlastDay] at hbefore
      omega
    · rw [hlastDay]
  obtain ⟨-, -, hmonth, hday⟩ := ofYearDay_spec (marchYear (days + 719468)) (sub_yearStart_le _)
  rw [← ofMarchDays_eq] at hmonth hday
  exact ⟨hyear, hmonth, hday⟩

end Date

namespace Timestamp

-- ---------------------------------------------------------------------------
-- Numbers of a fixed width
-- ---------------------------------------------------------------------------

/-- The last digits of a number, as many as the width. -/
def lastDigits : Nat → Nat → List Char
  | 0, _ => []
  | width + 1, n => lastDigits width (n / 10) ++ [Nat.digitChar (n % 10)]

theorem lastDigits_zero (width : Nat) : lastDigits width 0 = List.replicate width '0' := by
  induction width with
  | zero => rfl
  | succ width ih => rw [lastDigits, Nat.zero_div, ih, List.replicate_succ']; rfl

/-- A number that fits its width is padded to its last digits. -/
theorem zeroPadded_eq_lastDigits {width n : Nat} (hwidth : 0 < width) (h : n < 10 ^ width) :
    zeroPadded width n = lastDigits width n := by
  induction width generalizing n with
  | zero => omega
  | succ width ih =>
    rw [zeroPadded, Nat.toDigits_eq_if (by decide), lastDigits]
    split
    case isTrue hsmall =>
      rw [Nat.div_eq_of_lt hsmall, Nat.mod_eq_of_lt hsmall, List.length_singleton,
        Nat.add_sub_cancel, lastDigits_zero]
    -- the last digit apart, the number fits a field that is one digit narrower
    case isFalse hlarge =>
      have hfits : n / 10 < 10 ^ width := by
        rw [Nat.pow_succ] at h
        omega
      have hwide : 0 < width := by
        rcases Nat.eq_zero_or_pos width with rfl | hpos
        · omega
        · exact hpos
      rw [← ih hwide hfits, zeroPadded, List.length_append, List.length_singleton,
        Nat.add_sub_add_right, List.append_assoc]

/-- Of two numbers of one width the greater has the greater text, whatever follows. -/
theorem lastDigits_append_lt {width a b : Nat} (x y : List Char) (h : a < b)
    (hb : b < 10 ^ width) : lastDigits width a ++ x < lastDigits width b ++ y := by
  have hdigit : ∀ e < 10, ∀ d < e, Nat.digitChar d < Nat.digitChar e := by decide
  induction width generalizing a b x y with
  | zero => omega
  | succ width ih =>
    rw [lastDigits, lastDigits, List.append_assoc, List.append_assoc]
    rw [Nat.pow_succ] at hb
    -- the digits before the last one decide, unless they are equal
    by_cases hsame : a / 10 = b / 10
    · rw [hsame]
      apply List.append_left_lt
      exact List.cons_lt_cons_iff.mpr (.inl (hdigit _ (by omega) _ (by omega)))
    · exact ih _ _ (by omega) (by omega)

-- ---------------------------------------------------------------------------
-- The order of timestamps
-- ---------------------------------------------------------------------------

/-- The numbers of a timestamp, from the year down to the millisecond. -/
def numbers (micros : Nat) : List Nat :=
  let millis := micros / 1000
  let seconds := millis / 1000
  let date := Date.ofEpochDays (seconds / 86400)
  [date.year, date.month, date.day, seconds / 3600 % 24, seconds / 60 % 60, seconds % 60,
    millis % 1000]

theorem length_numbers (micros : Nat) : (numbers micros).length = 7 := rfl

/-- The width of each number and the character after it. -/
def layout : List (Nat × Char) :=
  [(4, '-'), (2, '-'), (2, 'T'), (2, ':'), (2, ':'), (2, '.'), (3, 'Z')]

/-- Numbers written in a layout. -/
def written : List (Nat × Char) → List Nat → List Char
  | (width, after) :: fields, n :: ns => lastDigits width n ++ after :: written fields ns
  | _, _ => []

/-- A number has at most as many digits as its field. -/
def Fits (field : Nat × Char) (n : Nat) : Prop := n < 10 ^ field.1

/-- Written numbers are in the order of their lists. -/
theorem written_lt {fields : List (Nat × Char)} {a b : List Nat} (hb : List.Forall₂ Fits fields b)
    (hlength : a.length = b.length) (h : a < b) : written fields a < written fields b := by
  induction hb generalizing a with
  | nil => exact absurd h (List.not_lt_nil _)
  | @cons field n fields b hn hb ih =>
    obtain _ | ⟨m, a⟩ := a
    · exact absurd hlength (Nat.succ_ne_zero _).symm
    rw [written, written]
    rcases List.cons_lt_cons_iff.mp h with hless | ⟨rfl, hrest⟩
    · exact lastDigits_append_lt _ _ hless hn
    · apply List.append_left_lt
      exact List.cons_lt_cons_iff.mpr (.inr ⟨rfl, ih (Nat.succ.inj hlength) hrest⟩)

/-- A reading of a later millisecond has later numbers. -/
theorem numbers_lt {m n : Nat} (h : m / 1000 < n / 1000) : numbers m < numbers n := by
  simp only [numbers, List.cons_lt_cons_iff]
  rcases Nat.lt_or_eq_of_le (by omega : m / 1000 / 1000 / 86400 ≤ n / 1000 / 1000 / 86400)
    with hless | hsame
  · have hbefore := Date.ofEpochDays_before hless
    rw [Date.Before] at hbefore
    omega
  · -- on one day the time of day decides
    rw [hsame]
    generalize m / 1000 = m' at *
    generalize n / 1000 = n' at *
    omega

/-- Up to the year 9999 the numbers fit their fields. -/
theorem fits_numbers {micros : Nat} (h : micros < 253402300800000000) :
    List.Forall₂ Fits layout (numbers micros) := by
  obtain ⟨hyear, hmonth, hday⟩ :=
    Date.ofEpochDays_bounds (by omega : micros / 1000 / 1000 / 86400 ≤ 2932896)
  -- all but the year are remainders, or numbers of a date
  simp only [layout, numbers, Fits, List.forall₂_cons]
  exact ⟨by omega, by omega, by omega, by omega, by omega, by omega, by omega, .nil⟩

/-- Numbers that fit, in the layout of a timestamp. -/
theorem written_layout {year month day hour minute second milli : Nat}
    (h : List.Forall₂ Fits layout [year, month, day, hour, minute, second, milli]) :
    zeroPadded 4 year ++ '-' :: zeroPadded 2 month ++ '-' :: zeroPadded 2 day ++
        'T' :: zeroPadded 2 hour ++ ':' :: zeroPadded 2 minute ++ ':' :: zeroPadded 2 second ++
        '.' :: zeroPadded 3 milli ++ ['Z'] =
      written layout [year, month, day, hour, minute, second, milli] := by
  simp only [layout, Fits, List.forall₂_cons] at h
  obtain ⟨hyear, hmonth, hday, hhour, hminute, hsecond, hmilli, -⟩ := h
  rw [zeroPadded_eq_lastDigits (by decide) hyear, zeroPadded_eq_lastDigits (by decide) hmonth,
    zeroPadded_eq_lastDigits (by decide) hday, zeroPadded_eq_lastDigits (by decide) hhour,
    zeroPadded_eq_lastDigits (by decide) hminute, zeroPadded_eq_lastDigits (by decide) hsecond,
    zeroPadded_eq_lastDigits (by decide) hmilli]
  simp only [written, layout, List.append_assoc, List.cons_append]

/-- Up to the year 9999 a timestamp is its numbers, each in its field. -/
theorem textChars_eq_written {micros : Nat} (h : micros < 253402300800000000) :
    textChars micros = written layout (numbers micros) := by
  have hfits := fits_numbers h
  have hyear := (Date.ofEpochDays_bounds
    (by omega : micros / 1000 / 1000 / 86400 ≤ 2932896)).1
  rw [numbers] at hfits ⊢
  rw [textChars, if_neg (Nat.not_lt.mpr hyear), List.nil_append, written_layout hfits]

/-- A text stops at the millisecond. -/
theorem text_eq_of_millis {m n : Nat} (h : m / 1000 = n / 1000) : text m = text n := by
  unfold text textChars
  rw [h]

/-- **Later readings of the clock have later texts,** up to the year 9999. -/
theorem text_le_text {m n : Nat} (h : m ≤ n) (hn : n < 253402300800000000) : text m ≤ text n := by
  rcases Nat.lt_or_eq_of_le (Nat.div_le_div_right h : m / 1000 ≤ n / 1000) with hless | hsame
  · have hchars : textChars m < textChars n := by
      rw [textChars_eq_written (h.trans_lt hn), textChars_eq_written hn]
      exact written_lt (fits_numbers hn) (by rw [length_numbers, length_numbers]) (numbers_lt hless)
    rw [String.le_iff_toList_le, text, text, String.toList_ofList, String.toList_ofList]
    exact le_of_lt hchars
  · exact le_of_eq (text_eq_of_millis hsame)

end Timestamp
end DocStore
