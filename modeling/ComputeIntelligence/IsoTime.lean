import ComputeIntelligence.FixedDigits
import ComputeIntelligence.PyValue
import Mathlib.Data.Int.ConditionallyCompleteOrder
import Mathlib.Data.String.Basic
import Mathlib.Order.Monotone.Basic

/-! # Times as ISO texts

`datetime.isoformat()` of a UTC time, as a text that is compared and read back.  Within
the years that `datetime` has, texts compare as the times do (`isoText_lt_iff`): the
date of a day number is strictly increasing from year to year, month to month and day to
day, the fields are of fixed width, and a fraction of a second that is left out
is smaller than one that is written, since `+` comes before `.`.
-/
namespace PyDateTime
open FixedDigits

/-! ### Days and dates

`civil` counts years from March, in eras of 400 years. -/

/-- The first day of a year, within its era. -/
def yearStart (year : Nat) : Nat := 365 * year + year / 4 - year / 100

/-- The year of a day, within its era. -/
def yearOf (doe : Nat) : Nat := (doe - doe / 1460 + doe / 36524 - doe / 146096) / 365

theorem yearOf_mono {a b : Nat} (h : a ≤ b) : yearOf a ≤ yearOf b := by
  unfold yearOf
  refine Nat.div_le_div_right ?_
  have ha : a / 146096 = a / 36524 / 4 := (Nat.div_div_eq_div_mul a 36524 4).symm
  have hb : b / 146096 = b / 36524 / 4 := (Nat.div_div_eq_div_mul b 36524 4).symm
  have hc : a / 36524 ≤ b / 36524 := Nat.div_le_div_right h
  have hfour : a - a / 1460 ≤ b - b / 1460 := by omega
  have hcentury : a / 36524 - a / 36524 / 4 ≤ b / 36524 - b / 36524 / 4 := by omega
  have hquarter : a / 36524 / 4 ≤ a / 36524 ∧ b / 36524 / 4 ≤ b / 36524 :=
    ⟨Nat.div_le_self _ _, Nat.div_le_self _ _⟩
  rw [ha, hb, Nat.add_sub_assoc hquarter.1, Nat.add_sub_assoc hquarter.2]
  exact Nat.add_le_add hfour hcentury

/-- A year begins with its first day, and the day before is in the year before. -/
theorem yearOf_yearStart : ∀ year < 400, yearOf (yearStart year) = year ∧
    (year ≠ 0 → yearOf (yearStart year - 1) = year - 1) := by
  decide +kernel

theorem yearOf_lt {doe : Nat} (h : doe < 146097) : yearOf doe < 400 := by
  have hlast : yearOf doe ≤ yearOf 146096 := yearOf_mono (by omega)
  have : yearOf 146096 = 399 := by decide +kernel
  omega

theorem yearStart_yearOf_le {doe : Nat} (h : doe < 146097) : yearStart (yearOf doe) ≤ doe := by
  by_contra hlt
  obtain ⟨-, hbefore⟩ := yearOf_yearStart (yearOf doe) (yearOf_lt h)
  have hpos : yearOf doe ≠ 0 := by
    intro hzero
    rw [hzero] at hlt
    exact hlt (Nat.zero_le _)
  have hmono : yearOf doe ≤ yearOf (yearStart (yearOf doe) - 1) := yearOf_mono (by omega)
  rw [hbefore hpos] at hmono
  omega

theorem lt_yearStart_succ {doe : Nat} (h : doe < 146097) : doe < yearStart (yearOf doe) + 366 := by
  have hlt := yearOf_lt h
  by_cases hlast : yearOf doe = 399
  · rw [hlast]
    unfold yearStart
    omega
  · by_contra hge
    obtain ⟨hnext, -⟩ := yearOf_yearStart (yearOf doe + 1) (by omega)
    have hstart : yearStart (yearOf doe + 1) ≤ yearStart (yearOf doe) + 366 := by
      unfold yearStart
      omega
    have hmono : yearOf (yearStart (yearOf doe + 1)) ≤ yearOf doe := yearOf_mono (by omega)
    omega

/-- The era of a day, and the day within it. -/
def era (days : Int) : Int := (days + 719468) / 146097

def dayOfEra (days : Int) : Nat := (days + 719468 - era days * 146097).toNat

/-- The year of a day, counted from March. -/
def marchYear (days : Int) : Int := (yearOf (dayOfEra days) : Int) + era days * 400

def dayOfYear (days : Int) : Nat := dayOfEra days - yearStart (yearOf (dayOfEra days))

/-- The month of a day: March is 0. -/
def marchMonth (days : Int) : Nat := (5 * dayOfYear days + 2) / 153

def dayOfMonth (days : Int) : Nat := dayOfYear days - (153 * marchMonth days + 2) / 5 + 1

theorem dayOfEra_lt (days : Int) : dayOfEra days < 146097 := by
  unfold dayOfEra era
  omega

theorem days_eq (days : Int) : days = era days * 146097 + dayOfEra days - 719468 := by
  unfold dayOfEra era
  omega

theorem dayOfYear_lt (days : Int) : dayOfYear days < 366 := by
  have := lt_yearStart_succ (dayOfEra_lt days)
  unfold dayOfYear
  omega

theorem civil_eq (days : Int) :
    civil days = (marchYear days + (if (if marchMonth days < 10 then marchMonth days + 3
      else marchMonth days - 9) ≤ 2 then 1 else 0),
      (if marchMonth days < 10 then marchMonth days + 3 else marchMonth days - 9),
      dayOfMonth days) := rfl

/-- Later days have later dates, counted from March. -/
theorem march_lt {a b : Int} (h : a < b) :
    marchYear a < marchYear b ∨
      marchYear a = marchYear b ∧ (marchMonth a < marchMonth b ∨
        marchMonth a = marchMonth b ∧ dayOfMonth a < dayOfMonth b) := by
  have ha := days_eq a
  have hb := days_eq b
  have hla := yearOf_lt (dayOfEra_lt a)
  have hlb := yearOf_lt (dayOfEra_lt b)
  have hera : era a ≤ era b := by
    unfold era
    omega
  unfold marchYear
  rcases lt_or_eq_of_le hera with hlt | heq
  · left
    omega
  · have hdoe : dayOfEra a < dayOfEra b := by omega
    have hyear := yearOf_mono hdoe.le
    rcases Nat.lt_or_eq_of_le hyear with hlt | hsame
    · left
      omega
    · right
      refine ⟨by rw [hsame, heq], ?_⟩
      have hstarta := yearStart_yearOf_le (dayOfEra_lt a)
      have hstartb := yearStart_yearOf_le (dayOfEra_lt b)
      have hdoy : dayOfYear a < dayOfYear b := by
        unfold dayOfYear
        rw [hsame] at hstarta ⊢
        omega
      have hmonth : marchMonth a ≤ marchMonth b := by
        unfold marchMonth
        omega
      rcases Nat.lt_or_eq_of_le hmonth with hlt | hsame'
      · exact .inl hlt
      · refine .inr ⟨hsame', ?_⟩
        have hfirsta : (153 * marchMonth a + 2) / 5 ≤ dayOfYear a := by
          unfold marchMonth
          omega
        unfold dayOfMonth
        rw [← hsame']
        omega

/-- A date: the year, the month and the day of the month. -/
structure Date where
  year : Int
  month : Nat
  day : Nat

/-- `civil`, as a date. -/
def dateOf (days : Int) : Date := ⟨(civil days).1, (civil days).2.1, (civil days).2.2⟩

/-- Months are counted from January again. -/
theorem dateOf_month (days : Int) :
    (dateOf days).year * 12 + (dateOf days).month = marchYear days * 12 + marchMonth days + 3 ∧
      1 ≤ (dateOf days).month ∧ (dateOf days).month ≤ 12 := by
  have hmonth : marchMonth days < 12 := by
    have := dayOfYear_lt days
    unfold marchMonth
    omega
  unfold dateOf
  rw [civil_eq]
  dsimp only
  split <;> split <;> omega

theorem dateOf_day (days : Int) :
    (dateOf days).day = dayOfMonth days ∧ 1 ≤ dayOfMonth days ∧ dayOfMonth days ≤ 31 := by
  refine ⟨rfl, ?_⟩
  unfold dayOfMonth marchMonth
  omega

/-- The earlier date, field by field. -/
def Date.Before (a b : Date) : Prop :=
  a.year < b.year ∨ a.year = b.year ∧ (a.month < b.month ∨ a.month = b.month ∧ a.day < b.day)

/-- **Later days have later dates.** -/
theorem dateOf_before {a b : Int} (h : a < b) : (dateOf a).Before (dateOf b) := by
  obtain ⟨hma, ha1, ha12⟩ := dateOf_month a
  obtain ⟨hmb, hb1, hb12⟩ := dateOf_month b
  obtain ⟨hda, -, -⟩ := dateOf_day a
  obtain ⟨hdb, -, -⟩ := dateOf_day b
  unfold Date.Before
  rcases march_lt h with hyear | ⟨hyear, hmonth | ⟨hmonth, hday⟩⟩
  · have := dayOfYear_lt a
    have hmarch : marchMonth a < 12 := by
      unfold marchMonth
      omega
    omega
  · omega
  · rw [hda, hdb]
    omega

/-! ### Texts -/

/-- `datetime.min` and `datetime.max`, in UTC. -/
def minInstant : Int := -62135596800000000

def maxInstant : Int := 253402300799999999

/-- The instants that a UTC `datetime` can hold: years 1 to 9999. -/
def InRange (t : Int) : Prop := minInstant ≤ t ∧ t ≤ maxInstant

instance (t : Int) : Decidable (InRange t) := inferInstanceAs (Decidable (_ ∧ _))

/-- `isoformat()` of an instant in UTC. -/
def isoText (t : Int) : String := isoformat ⟨t, some 0⟩

/-- The day of an instant, and the microseconds since its midnight. -/
def dayOf (t : Int) : Int := t / 86400000000

def microsOf (t : Int) : Nat := (t % 86400000000).toNat

theorem year_bounds {t : Int} (h : InRange t) :
    1 ≤ (dateOf (dayOf t)).year ∧ (dateOf (dayOf t)).year ≤ 9999 := by
  have hfirst : (dateOf (-719162)).year = 1 := by decide +kernel
  have hlast : (dateOf 2932896).year = 9999 := by decide +kernel
  obtain ⟨hmin, hmax⟩ := h
  unfold minInstant at hmin
  unfold maxInstant at hmax
  have hlow : -719162 ≤ dayOf t := by
    unfold dayOf
    omega
  have hhigh : dayOf t ≤ 2932896 := by
    unfold dayOf
    omega
  constructor
  · rcases lt_or_eq_of_le hlow with hlt | heq
    · have hbefore := dateOf_before hlt
      unfold Date.Before at hbefore
      omega
    · rw [← heq, hfirst]
  · rcases lt_or_eq_of_le hhigh with hlt | heq
    · have hbefore := dateOf_before hlt
      unfold Date.Before at hbefore
      omega
    · rw [heq, hlast]

/-- The fraction of a second, left out if it is zero, and the offset. -/
def fractionChars (frac : Nat) : List Char :=
  (if frac = 0 then [] else '.' :: digits 6 frac) ++ ['+', '0', '0', ':', '0', '0']

/-- The time of day. -/
def clockChars (micros : Nat) : List Char :=
  digits 2 (micros / 1000000 / 3600) ++ (':' :: (digits 2 (micros / 1000000 / 60 % 60) ++
    (':' :: (digits 2 (micros / 1000000 % 60) ++ fractionChars (micros % 1000000)))))

/-- The text of an instant, field by field. -/
def isoChars (t : Int) : List Char :=
  digits 4 (dateOf (dayOf t)).year.toNat ++ ('-' :: (digits 2 (dateOf (dayOf t)).month ++
    ('-' :: (digits 2 (dateOf (dayOf t)).day ++ ('T' :: clockChars (microsOf t))))))

theorem zeroPad_toList {w x : Nat} (hx : x < 10 ^ (w + 1)) :
    (PyText.zeroPad (w + 1) x).toList = digits (w + 1) x := by
  have htext : toString x = String.ofList (Nat.toDigits 10 x) := rfl
  rw [← replicate_toDigits hx]
  unfold PyText.zeroPad
  rw [htext]
  simp only [String.toList_append, String.toList_ofList, String.length_ofList]

theorem microsOf_lt (t : Int) : microsOf t < 86400000000 := by
  unfold microsOf
  omega

/-- The fields of the date have room in their digits. -/
theorem dateFields_lt {t : Int} (h : InRange t) : (dateOf (dayOf t)).year.toNat < 10 ^ 4 ∧
    (dateOf (dayOf t)).month < 10 ^ 2 ∧ (dateOf (dayOf t)).day < 10 ^ 2 := by
  have hyear := year_bounds h
  obtain ⟨-, -, hmonth⟩ := dateOf_month (dayOf t)
  obtain ⟨hday, -, hday'⟩ := dateOf_day (dayOf t)
  refine ⟨?_, ?_, ?_⟩ <;> omega

/-- And so have those of the clock. -/
theorem clockFields_lt (t : Int) : microsOf t / 1000000 / 3600 < 10 ^ 2 ∧
    microsOf t / 1000000 / 60 % 60 < 10 ^ 2 ∧ microsOf t / 1000000 % 60 < 10 ^ 2 ∧
    microsOf t % 1000000 < 1000000 := by
  have hmicros := microsOf_lt t
  refine ⟨?_, ?_, ?_, ?_⟩ <;> omega

theorem fraction_toList {frac : Nat} (h : frac < 1000000) :
    ((if frac = 0 then "" else "." ++ PyText.zeroPad 6 frac) ++ offsetText 0).toList =
      fractionChars frac := by
  have hoffset : (offsetText 0).toList = ['+', '0', '0', ':', '0', '0'] := by decide +kernel
  unfold fractionChars
  rw [String.toList_append, hoffset]
  split
  · rfl
  · rw [String.toList_append, zeroPad_toList h]
    rfl

theorem isoText_toList {t : Int} (h : InRange t) : (isoText t).toList = isoChars t := by
  obtain ⟨hyear, hmonth, hday⟩ := dateFields_lt h
  obtain ⟨hhour, hminute, hsecond, hmicros⟩ := clockFields_lt t
  have htext : isoText t = PyText.zeroPad 4 (dateOf (dayOf t)).year.toNat ++ "-" ++
      PyText.zeroPad 2 (dateOf (dayOf t)).month ++ "-" ++ PyText.zeroPad 2 (dateOf (dayOf t)).day ++
      "T" ++ PyText.zeroPad 2 (microsOf t / 1000000 / 3600) ++ ":" ++
      PyText.zeroPad 2 (microsOf t / 1000000 / 60 % 60) ++ ":" ++
      PyText.zeroPad 2 (microsOf t / 1000000 % 60) ++
      (if microsOf t % 1000000 = 0 then "" else "." ++ PyText.zeroPad 6 (microsOf t % 1000000)) ++
      offsetText 0 := rfl
  rw [htext, String.append_assoc, String.toList_append, fraction_toList hmicros]
  simp only [String.toList_append]
  rw [zeroPad_toList hyear, zeroPad_toList hmonth, zeroPad_toList hday, zeroPad_toList hhour,
    zeroPad_toList hminute, zeroPad_toList hsecond]
  unfold isoChars clockChars
  simp only [List.append_assoc]
  rfl

/-! ### Texts compare as times do -/

/-- Equal fields leave the decision to what follows. -/
theorem field_lt {w x y : Nat} {c : Char} {rest rest' : List Char} (hy : y < 10 ^ w)
    (h : x < y ∨ x = y ∧ rest < rest') :
    digits w x ++ (c :: rest) < digits w y ++ (c :: rest') := by
  rcases h with hlt | ⟨rfl, hrest⟩
  · refine append_lt_of_lt _ _ ?_ (digits_lt hy hlt)
    rw [length_digits, length_digits]
  · refine List.append_left_lt ?_
    rw [List.cons_lt_cons_iff]
    exact .inr ⟨rfl, hrest⟩

theorem fractionChars_lt {f g : Nat} (hg : g < 1000000) (h : f < g) :
    fractionChars f < fractionChars g := by
  unfold fractionChars
  rw [if_neg (by omega : ¬ g = 0)]
  split
  · rw [List.nil_append, List.cons_append, List.cons_lt_cons_iff]
    exact .inl (by decide)
  · rw [List.cons_append, List.cons_append, List.cons_lt_cons_iff]
    refine .inr ⟨rfl, append_lt_of_lt _ _ ?_ (digits_lt hg h)⟩
    rw [length_digits, length_digits]

theorem clockChars_lt {a b : Nat} (hb : b < 86400000000) (h : a < b) :
    clockChars a < clockChars b := by
  unfold clockChars
  by_cases hsecs : a / 1000000 = b / 1000000
  · rw [hsecs]
    refine field_lt (by omega) (.inr ⟨rfl, field_lt (by omega) (.inr ⟨rfl, ?_⟩)⟩)
    exact List.append_left_lt (fractionChars_lt (by omega) (by omega))
  · refine field_lt (by omega) ?_
    by_cases hhour : a / 1000000 / 3600 = b / 1000000 / 3600
    · refine .inr ⟨hhour, field_lt (by omega) ?_⟩
      by_cases hminute : a / 1000000 / 60 % 60 = b / 1000000 / 60 % 60
      · refine .inr ⟨hminute, append_lt_of_lt _ _ ?_ (digits_lt (by omega) (by omega))⟩
        rw [length_digits, length_digits]
      · exact .inl (by omega)
    · exact .inl (by omega)

theorem isoChars_lt {a b : Int} (ha : InRange a) (hb : InRange b) (h : a < b) :
    isoChars a < isoChars b := by
  have hyear' := year_bounds ha
  obtain ⟨hyear, hmonth, hday⟩ := dateFields_lt hb
  have hdays : dayOf a ≤ dayOf b := by
    unfold dayOf
    omega
  unfold isoChars
  rcases lt_or_eq_of_le hdays with hlt | heq
  · refine field_lt hyear ?_
    rcases dateOf_before hlt with hy | ⟨hy, hm | ⟨hm, hd⟩⟩
    · exact .inl (by omega)
    · exact .inr ⟨by rw [hy], field_lt hmonth (.inl hm)⟩
    · exact .inr ⟨by rw [hy], field_lt hmonth (.inr ⟨hm, field_lt hday (.inl hd)⟩)⟩
  · have hmicros : microsOf a < microsOf b := by
      unfold dayOf at heq
      unfold microsOf
      omega
    rw [heq]
    refine field_lt hyear (.inr ⟨rfl, field_lt hmonth (.inr ⟨rfl, ?_⟩)⟩)
    exact field_lt hday (.inr ⟨rfl, clockChars_lt (microsOf_lt b) hmicros⟩)

/-- **Within the years of `datetime`, texts compare as times do.** -/
theorem isoText_strictMonoOn : StrictMonoOn isoText {t | InRange t} := by
  intro a ha b hb h
  rw [String.lt_iff_toList_lt, isoText_toList ha, isoText_toList hb]
  exact isoChars_lt ha hb h

/-! ### Reading a text back -/

/-- The day number of a date. -/
def daysFromCivil (date : Date) : Int :=
  let year := if date.month ≤ 2 then date.year - 1 else date.year
  let era := year / 400
  let mp := if date.month ≤ 2 then date.month + 9 else date.month - 3
  let doy := (153 * mp + 2) / 5 + (date.day - 1)
  era * 146097 + ((yearStart (year - era * 400).toNat + doy : Nat) : Int) - 719468

theorem daysFromCivil_dateOf (days : Int) : daysFromCivil (dateOf days) = days := by
  obtain ⟨hmonth, hm1, hm12⟩ := dateOf_month days
  obtain ⟨hday, -, -⟩ := dateOf_day days
  have hlt := yearOf_lt (dayOfEra_lt days)
  have hstart := yearStart_yearOf_le (dayOfEra_lt days)
  have hdays := days_eq days
  have hmarch : marchMonth days < 12 := by
    have := dayOfYear_lt days
    unfold marchMonth
    omega
  have hfirst : (153 * marchMonth days + 2) / 5 ≤ dayOfYear days := by
    unfold marchMonth
    omega
  have hyear : (if (dateOf days).month ≤ 2 then (dateOf days).year - 1 else (dateOf days).year) =
      marchYear days := by
    split <;> omega
  have hmp : (if (dateOf days).month ≤ 2 then (dateOf days).month + 9
      else (dateOf days).month - 3) =
      marchMonth days := by
    split <;> omega
  have hera : marchYear days / 400 = era days := by
    unfold marchYear
    omega
  have hyoe : (marchYear days - era days * 400).toNat = yearOf (dayOfEra days) := by
    unfold marchYear
    omega
  unfold daysFromCivil
  dsimp only
  rw [hyear, hmp, hera, hyoe, hday]
  unfold dayOfMonth
  unfold dayOfYear at hfirst ⊢
  omega

/-- Read past a character. -/
def past (c : Char) : List Char → Option (List Char)
  | c' :: cs => if c' = c then some cs else none
  | [] => none

/-- A field of digits with a character after it. -/
def readField (w : Nat) (c : Char) (cs : List Char) : Option (Nat × List Char) := do
  let (x, cs) ← read w 0 cs
  some (x, ← past c cs)

/-- A UTC offset `+HH:MM`, in microseconds. -/
def readOffset : List Char → Option Int
  | sign :: cs => do
      let (hours, cs) ← readField 2 ':' cs
      let (minutes, _) ← read 2 0 cs
      let offset : Int := (hours * 60 + minutes) * 60000000
      if sign = '+' then some offset else if sign = '-' then some (-offset) else none
  | [] => none

/-- The fraction of a second, in microseconds: zero if there is none. -/
def readFraction : List Char → Option (Nat × List Char)
  | [] => some (0, [])
  | c :: cs => if c = '.' then read 6 0 cs else some (0, c :: cs)

/-- `datetime.fromisoformat(text)`, of an aware time in the format that `isoformat`
writes, as an instant. -/
def fromisoformat (text : String) : Option Int := do
  let (year, cs) ← readField 4 '-' text.toList
  let (month, cs) ← readField 2 '-' cs
  let (day, cs) ← readField 2 'T' cs
  let (hour, cs) ← readField 2 ':' cs
  let (minute, cs) ← readField 2 ':' cs
  let (second, cs) ← read 2 0 cs
  let (frac, cs) ← readFraction cs
  let offset ← readOffset cs
  some (daysFromCivil ⟨year, month, day⟩ * 86400000000 +
    ((hour * 60 + minute) * 60 + second) * 1000000 + frac - offset)

theorem readField_digits {w x : Nat} (hx : x < 10 ^ w) (c : Char) (rest : List Char) :
    readField w c (digits w x ++ (c :: rest)) = some (x, rest) := by
  unfold readField
  rw [read_digits hx]
  simp [past]

theorem readFraction_fractionChars {frac : Nat} (h : frac < 1000000) :
    readFraction (fractionChars frac) = some (frac, ['+', '0', '0', ':', '0', '0']) := by
  unfold fractionChars
  by_cases hfrac : frac = 0
  · rw [if_pos hfrac, hfrac]
    rfl
  · rw [if_neg hfrac, List.cons_append, readFraction, if_pos rfl, read_digits h, Nat.zero_mul,
      Nat.zero_add]

theorem readOffset_utc : readOffset ['+', '0', '0', ':', '0', '0'] = some 0 := by decide +kernel

/-- **`fromisoformat` inverts `isoformat`.** -/
theorem fromisoformat_isoText {t : Int} (h : InRange t) : fromisoformat (isoText t) = some t := by
  obtain ⟨hyear, hmonth, hday⟩ := dateFields_lt h
  obtain ⟨hhour, hminute, hsecond, hmicros⟩ := clockFields_lt t
  have hdate : daysFromCivil ⟨((dateOf (dayOf t)).year.toNat : Int), (dateOf (dayOf t)).month,
      (dateOf (dayOf t)).day⟩ = dayOf t := by
    rw [Int.toNat_of_nonneg (zero_le_one.trans (year_bounds h).1)]
    exact daysFromCivil_dateOf (dayOf t)
  have hsplit : t = dayOf t * 86400000000 + microsOf t := by
    unfold dayOf microsOf
    omega
  unfold fromisoformat
  rw [isoText_toList h]
  unfold isoChars clockChars
  simp only [readField_digits hyear, readField_digits hmonth, readField_digits hday,
    readField_digits hhour, readField_digits hminute, read_digits hsecond, Option.bind_eq_bind,
    readFraction_fractionChars hmicros, readOffset_utc,
    Option.bind_some, Nat.zero_mul, Nat.zero_add, hdate]
  congr 1
  omega

/-! ### Conversion to UTC -/

/-- A naive time taken as one of UTC, an aware one converted. -/
def aware (value : PyDateTime) : Except PyExn PyDateTime :=
  match value.utcoffset with
  | none => .ok { value with utcoffset := some 0 }
  | some offset =>
      if InRange (value.wall - offset) then .ok ⟨value.wall - offset, some 0⟩
      else .error .overflowError

/-- What aware times compare by. -/
def instant (t : PyDateTime) : Instant := t.wall - t.utcoffset.getD 0

theorem utcoffset_of_aware {value t : PyDateTime} (h : aware value = .ok t) :
    t.utcoffset = some 0 := by
  unfold aware at h
  split at h
  · rw [← Except.ok.inj h]
  · split at h
    · rw [← Except.ok.inj h]
    · cases h

theorem eq_of_instant_eq {s t : PyDateTime} (hs : s.utcoffset = some 0)
    (ht : t.utcoffset = some 0) (h : s.instant = t.instant) : s = t := by
  obtain ⟨wall, offset⟩ := s
  obtain ⟨wall', offset'⟩ := t
  subst hs ht
  have hwall : wall = wall' := by simpa [instant] using h
  rw [hwall]

end PyDateTime
