import Mathlib.Data.Prod.Lex
import Mathlib.Order.Basic
import TsaBackend.Numerals

/-!
The proleptic Gregorian calendar over all integer years: days numbered from 1 January 1970, and
the texts of dates.
-/

namespace TsaBackend.Calendar

/-- The number of the first day of a year. -/
def dayFromYear (y : ℤ) : ℤ :=
  365 * (y - 1970) + (y - 1969) / 4 - (y - 1901) / 100 + (y - 1601) / 400

def leap (y : ℤ) : Bool := y % 4 = 0 ∧ (y % 100 ≠ 0 ∨ y % 400 = 0)

def daysInYear (l : Bool) : ℕ := if l then 366 else 365

lemma dayFromYear_succ (y : ℤ) : dayFromYear (y + 1) = dayFromYear y + daysInYear (leap y) := by
  unfold dayFromYear daysInYear leap
  by_cases h4 : y % 4 = 0
  · by_cases h100 : y % 100 = 0
    · by_cases h400 : y % 400 = 0
      · simp [h4, h400]
        omega
      · simp [h4, h100, h400]
        omega
    · simp [h4, h100]
      omega
  · simp [h4]
    omega

/-- A year starts near the day that the mean length of a year, 146097 / 400, gives. -/
lemma dayFromYear_bounds (y : ℤ) : 146097 * (y - 1970) - 506 ≤ 400 * dayFromYear y ∧
    400 * dayFromYear y ≤ 146097 * (y - 1970) + 589 := by
  unfold dayFromYear
  omega

/-- The year of a day, first from the mean length of a year. -/
def yearFromDay (n : ℤ) : ℤ :=
  let y := 1970 + 400 * n / 146097
  if n < dayFromYear y then y - 1 else if dayFromYear (y + 1) ≤ n then y + 1 else y

lemma yearFromDay_spec (n : ℤ) :
    dayFromYear (yearFromDay n) ≤ n ∧ n < dayFromYear (yearFromDay n + 1) := by
  unfold yearFromDay
  dsimp only
  generalize hy : 1970 + 400 * n / 146097 = y
  have hbefore := dayFromYear_bounds (y - 1)
  have hafter := dayFromYear_bounds (y + 1 + 1)
  split
  · next h =>
    rw [sub_add_cancel]
    exact ⟨by omega, h⟩
  · next h =>
    split
    · next h' => exact ⟨h', by omega⟩
    · next h' => exact ⟨not_lt.mp h, not_le.mp h'⟩

lemma dayFromYear_mono {y z : ℤ} (h : y ≤ z) : dayFromYear y ≤ dayFromYear z := by
  unfold dayFromYear
  omega

def daysInMonth (l : Bool) : ℕ → ℕ
  | 2 => if l then 29 else 28
  | 4 | 6 | 9 | 11 => 30
  | 1 | 3 | 5 | 7 | 8 | 10 | 12 => 31
  | _ => 0

/-- The days of a year before the month. -/
def daysBefore (l : Bool) (month : ℕ) : ℕ := ((List.range month).map (daysInMonth l)).sum

/-- The month of the `k`-th day of a year. -/
def monthFromDay (l : Bool) (k : ℕ) : ℕ :=
  (((List.range' 1 12).find? fun m => decide (k < daysBefore l (m + 1))).getD 12)

lemma monthFromDay_spec (l : Bool) {k : ℕ} (hk : k < daysInYear l) :
    (1 ≤ monthFromDay l k ∧ monthFromDay l k ≤ 12) ∧ daysBefore l (monthFromDay l k) ≤ k ∧
      k < daysBefore l (monthFromDay l k) + daysInMonth l (monthFromDay l k) := by
  have hall : ∀ l : Bool, ∀ k < 366, k < daysInYear l →
      (1 ≤ monthFromDay l k ∧ monthFromDay l k ≤ 12) ∧ daysBefore l (monthFromDay l k) ≤ k ∧
        k < daysBefore l (monthFromDay l k) + daysInMonth l (monthFromDay l k) := by
    decide +kernel
  refine hall l k ?_ hk
  have : daysInYear l ≤ 366 := by cases l <;> decide
  omega

/-- A date that exists. -/
@[ext]
structure CivilDate where
  year : ℤ
  month : ℕ
  day : ℕ
  month_pos : 1 ≤ month
  month_le : month ≤ 12
  day_pos : 1 ≤ day
  day_le : day ≤ daysInMonth (leap year) month
  deriving DecidableEq, Repr

namespace CivilDate

/-- Dates are ordered by year, month and day. -/
def key (d : CivilDate) : ℤ ×ₗ ℕ ×ₗ ℕ := toLex (d.year, toLex (d.month, d.day))

lemma key_injective : Function.Injective key := by
  intro d e h
  have hyear : d.year = e.year := congrArg (fun k => (ofLex k).1) h
  have hmonth : d.month = e.month := congrArg (fun k => (ofLex (ofLex k).2).1) h
  have hday : d.day = e.day := congrArg (fun k => (ofLex (ofLex k).2).2) h
  exact CivilDate.ext hyear hmonth hday

instance : LinearOrder CivilDate := LinearOrder.lift' key key_injective

end CivilDate

/-- The day with this number in this month; months and days may run over. -/
def makeDay (year month date : ℤ) : ℤ :=
  let y := year + (month - 1) / 12
  dayFromYear y + daysBefore (leap y) (((month - 1) % 12).toNat + 1) + date - 1

lemma makeDay_succ (year month date : ℤ) :
    makeDay year month (date + 1) = makeDay year month date + 1 := by
  unfold makeDay
  dsimp only
  omega

/-- The number of a date. -/
def CivilDate.toDay (d : CivilDate) : ℤ := makeDay d.year d.month d.day

lemma CivilDate.toDay_eq (d : CivilDate) :
    d.toDay = dayFromYear d.year + daysBefore (leap d.year) d.month + d.day - 1 := by
  have hlow := d.month_pos
  have hhigh := d.month_le
  have hyear : d.year + ((d.month : ℤ) - 1) / 12 = d.year := by omega
  have hmonth : (((d.month : ℤ) - 1) % 12).toNat + 1 = d.month := by omega
  unfold toDay makeDay
  dsimp only
  rw [hyear, hmonth]

/-- The day of the year, from 0 on. -/
def dayInYear (n : ℤ) : ℕ := (n - dayFromYear (yearFromDay n)).toNat

lemma dayInYear_spec (n : ℤ) : (dayInYear n : ℤ) = n - dayFromYear (yearFromDay n) ∧
    dayInYear n < daysInYear (leap (yearFromDay n)) := by
  obtain ⟨hl, hr⟩ := yearFromDay_spec n
  rw [dayFromYear_succ] at hr
  unfold dayInYear
  omega

/-- The date of a day. -/
def ofDay (n : ℤ) : CivilDate :=
  have hspec := monthFromDay_spec (leap (yearFromDay n)) (dayInYear_spec n).2
  { year := yearFromDay n
    month := monthFromDay (leap (yearFromDay n)) (dayInYear n)
    day := dayInYear n - daysBefore (leap (yearFromDay n))
      (monthFromDay (leap (yearFromDay n)) (dayInYear n)) + 1
    month_pos := hspec.1.1
    month_le := hspec.1.2
    day_pos := Nat.le_add_left 1 _
    day_le := by
      have hle := hspec.2.1
      have hlt := hspec.2.2
      omega }

/-- **Every day is the day of its date.** -/
@[simp] theorem toDay_ofDay (n : ℤ) : (ofDay n).toDay = n := by
  have hspec := monthFromDay_spec (leap (yearFromDay n)) (dayInYear_spec n).2
  have hday := (dayInYear_spec n).1
  rw [CivilDate.toDay_eq]
  simp only [ofDay]
  have hle := hspec.2.1
  push_cast [hle]
  omega

lemma CivilDate.toDay_bounds (d : CivilDate) :
    dayFromYear d.year ≤ d.toDay ∧ d.toDay < dayFromYear (d.year + 1) := by
  have hall : ∀ l : Bool, ∀ m < 13, daysBefore l m + daysInMonth l m ≤ daysInYear l := by
    decide
  have hle := hall (leap d.year) d.month (Nat.lt_succ_of_le d.month_le)
  have hday := d.day_le
  have hpos := d.day_pos
  rw [toDay_eq, dayFromYear_succ]
  omega

/-- **Later dates have larger days.** -/
theorem toDay_lt {d e : CivilDate} (h : d < e) : d.toDay < e.toDay := by
  have hlex : d.key < e.key := h
  rw [CivilDate.key, CivilDate.key, Prod.Lex.toLex_lt_toLex, Prod.Lex.toLex_lt_toLex] at hlex
  rcases hlex with hyear | ⟨hyear, hmonth | ⟨hmonth, hday⟩⟩
  · have hd := d.toDay_bounds.2
    have he := e.toDay_bounds.1
    have hmono := dayFromYear_mono (show d.year + 1 ≤ e.year from hyear)
    omega
  · have hall : ∀ l : Bool, ∀ n < 13, ∀ m < n,
        daysBefore l m + daysInMonth l m ≤ daysBefore l n := by decide
    have hle := hall (leap d.year) e.month (Nat.lt_succ_of_le e.month_le) d.month hmonth
    have hday := d.day_le
    have hpos := e.day_pos
    rw [CivilDate.toDay_eq, CivilDate.toDay_eq, ← show d.year = e.year from hyear]
    omega
  · rw [CivilDate.toDay_eq, CivilDate.toDay_eq, ← show d.year = e.year from hyear,
      ← show d.month = e.month from hmonth]
    have hlt : d.day < e.day := hday
    omega

lemma toDay_injective : Function.Injective CivilDate.toDay := by
  intro d e h
  rcases lt_trichotomy d e with hlt | heq | hlt
  · have := toDay_lt hlt
    omega
  · exact heq
  · have := toDay_lt hlt
    omega

@[simp] lemma ofDay_toDay (d : CivilDate) : ofDay d.toDay = d :=
  toDay_injective (toDay_ofDay d.toDay)

lemma ofDay_le {n m : ℤ} (h : n ≤ m) : ofDay n ≤ ofDay m := by
  by_contra hlt
  have := toDay_lt (not_le.mp hlt)
  rw [toDay_ofDay, toDay_ofDay] at this
  omega

lemma ofDay_year (n : ℤ) : (ofDay n).year = yearFromDay n := rfl

lemma ofDay_succ_year (d : CivilDate) :
    d.year ≤ (ofDay (d.toDay + 1)).year ∧ (ofDay (d.toDay + 1)).year ≤ d.year + 1 := by
  obtain ⟨hl, hr⟩ := d.toDay_bounds
  obtain ⟨hl', hr'⟩ := yearFromDay_spec (d.toDay + 1)
  rw [ofDay_year]
  constructor
  · by_contra hlt
    have := dayFromYear_mono (show yearFromDay (d.toDay + 1) + 1 ≤ d.year by omega)
    omega
  · by_contra hlt
    have := dayFromYear_mono (show d.year + 1 + 1 ≤ yearFromDay (d.toDay + 1) by omega)
    have hsucc := dayFromYear_succ (d.year + 1)
    have hpos : 0 < daysInYear (leap (d.year + 1)) := by cases leap (d.year + 1) <;> decide
    omega

/-! ### Local time and its texts -/

/-- Milliseconds. -/
def msPerDay : ℤ := 86400000

/-- An instant that can be a time value. -/
def InRange (ms : ℤ) : Prop := ms.natAbs ≤ 8640000000000000

instance (ms : ℤ) : Decidable (InRange ms) := Nat.decLe _ _

/-- A local time: the date of an instant, which never goes back, and the instant a date starts
at, its month and day possibly running over. Years below 100 are not told apart from those of
the twentieth century. -/
structure Zone where
  dateOf : ℤ → Option CivilDate
  startOf : ℤ → ℤ → ℤ → Option ℤ
  mono : ∀ {a b d e}, a ≤ b → dateOf a = some d → dateOf b = some e → d ≤ e
  dateOf_startOf : ∀ {a d}, dateOf a = some d → 100 ≤ d.year → d.year ≤ 9999 →
    ∃ start, startOf d.year d.month d.day = some start ∧ dateOf start = some d

namespace Zone

/-- The zone with a fixed offset from UTC, of less than a day. -/
def fixed (offset : ℤ) (h : offset.natAbs < 86400000) : Zone where
  dateOf ms := if InRange ms then some (ofDay ((ms + offset) / msPerDay)) else none
  startOf year month date :=
    let ms := makeDay year month date * msPerDay - offset
    if InRange ms then some ms else none
  mono {a b d e} hab hd he := by
    obtain ⟨-, hd⟩ := Option.ite_none_right_eq_some.mp hd
    obtain ⟨-, he⟩ := Option.ite_none_right_eq_some.mp he
    rw [← Option.some.inj hd, ← Option.some.inj he]
    refine ofDay_le ?_
    unfold msPerDay
    omega
  dateOf_startOf {a d} _ hlow hhigh := by
    have hfrom := dayFromYear_mono hlow
    have hto := dayFromYear_mono (show d.year + 1 ≤ 10000 by omega)
    have hfirst : dayFromYear 100 = -683003 := by decide
    have hlast : dayFromYear 10000 = 2932897 := by decide
    obtain ⟨hl, hr⟩ := d.toDay_bounds
    have hday : makeDay d.year d.month d.day = d.toDay := rfl
    have hrange : InRange (d.toDay * msPerDay - offset) := by
      unfold InRange msPerDay
      omega
    refine ⟨d.toDay * msPerDay - offset, ?_, ?_⟩
    · rw [hday]
      exact if_pos hrange
    · have hdiv : (d.toDay * msPerDay - offset + offset) / msPerDay = d.toDay := by
        unfold msPerDay
        omega
      rw [if_pos hrange, hdiv, ofDay_toDay]

end Zone

open Numerals

/-- A numeral filled up with zeros to `n` digits. -/
def pad (n k : ℕ) : List Char := List.leftpad n '0' (Nat.toDigits 10 k)

/-- The number of a text of digits. -/
def number (l : List Char) : Option ℕ := if l.all Char.isDigit then some (value l) else none

lemma value_zeros (n : ℕ) (l : List Char) : value (List.replicate n '0' ++ l) = value l := by
  induction n with
  | zero => rfl
  | succ n ih =>
    have hzero : '0'.toNat - 48 = 0 := rfl
    rw [List.replicate_succ, List.cons_append, value_cons, ih, hzero, Nat.zero_mul, Nat.zero_add]

lemma number_pad (n k : ℕ) : number (pad n k) = some k := by
  have hdigits : (pad n k).all Char.isDigit = true := by
    refine List.all_eq_true.mpr fun c hc => ?_
    rcases List.mem_append.mp hc with hc | hc
    · rw [List.eq_of_mem_replicate hc]
      rfl
    · exact digits_toDigits k c hc
  rw [number, if_pos hdigits, pad, List.leftpad, value_zeros, value_toDigits]

lemma length_pad {n k : ℕ} (hn : 0 < n) (hk : k < 10 ^ n) : (pad n k).length = n := by
  have hle : (Nat.toDigits 10 k).length ≤ n := (Nat.length_toDigits_le_iff (by decide) hn).mpr hk
  rw [pad, List.length_leftpad]
  omega

/-- The text of a year: four digits, or a sign and six. -/
def yearText (y : ℤ) : List Char :=
  if 0 ≤ y ∧ y ≤ 9999 then pad 4 y.natAbs
  else (if y < 0 then '-' else '+') :: pad 6 y.natAbs

/-- The text of a date. -/
def CivilDate.iso (d : CivilDate) : String :=
  String.ofList (yearText d.year ++ '-' :: (pad 2 d.month ++ '-' :: pad 2 d.day))

/-- The year of a text. -/
def readYear : List Char → Option ℤ
  | '-' :: l => (number l).bind fun n => if n = 0 then none else some (-n)
  | '+' :: l => (number l).map (↑)
  | l => (number l).map (↑)

/-- The date with these numbers, if there is one. -/
def CivilDate.ofNumbers (year : ℤ) (month day : ℕ) : Option CivilDate :=
  if h : 1 ≤ month ∧ month ≤ 12 ∧ 1 ≤ day ∧ day ≤ daysInMonth (leap year) month then
    some ⟨year, month, day, h.1, h.2.1, h.2.2.1, h.2.2.2⟩
  else none

/-- The width of the year of a text, which a sign tells. -/
def yearWidth (l : List Char) : ℕ := if l.head? = some '+' ∨ l.head? = some '-' then 7 else 4

/-- The month and the day behind the year. -/
def readMonthDay : List Char → Option (ℕ × ℕ)
  | ['-', m₁, m₂, '-', d₁, d₂] => (number [m₁, m₂]).bind fun month =>
    (number [d₁, d₂]).map fun day => (month, day)
  | _ => none

/-- The date of a text. -/
def CivilDate.parse (s : String) : Option CivilDate :=
  (readYear (s.toList.take (yearWidth s.toList))).bind fun year =>
    (readMonthDay (s.toList.drop (yearWidth s.toList))).bind fun m =>
      CivilDate.ofNumbers year m.1 m.2

lemma yearText_spec {y : ℤ} (hy : y.natAbs < 10 ^ 6) (rest : List Char) :
    yearWidth (yearText y ++ rest) = (yearText y).length ∧ readYear (yearText y) = some y := by
  unfold yearText
  split
  · next h =>
    have hlen : (pad 4 y.natAbs).length = 4 := length_pad (by decide) (by omega)
    have hnumber := number_pad 4 y.natAbs
    rcases hpad : pad 4 y.natAbs with _ | ⟨c, l⟩
    · simp [hpad] at hlen
    rw [hpad] at hlen hnumber
    have hdigit : c.isDigit = true := by
      have hall : ((c :: l).all Char.isDigit) = true := by
        by_contra hno
        rw [number, if_neg hno] at hnumber
        cases hnumber
      exact List.all_eq_true.mp hall c List.mem_cons_self
    have hplus : c ≠ '+' := by rintro rfl; cases hdigit
    have hminus : c ≠ '-' := by rintro rfl; cases hdigit
    constructor
    · simp [yearWidth, hplus, hminus, hlen]
    · have hread : readYear (c :: l) = (number (c :: l)).map (↑) := by
        simp [readYear, hplus, hminus]
      have habs : (y.natAbs : ℤ) = y := by omega
      rw [hread, hnumber, Option.map_some, habs]
  · next h =>
    have hlen : (pad 6 y.natAbs).length = 6 := length_pad (by decide) hy
    constructor
    · split <;> simp [yearWidth, hlen]
    · split
      · have hzero : y.natAbs ≠ 0 := by omega
        have hneg : -(y.natAbs : ℤ) = y := by omega
        simp only [readYear, number_pad, Option.bind_some, if_neg hzero, hneg]
      · have habs : (y.natAbs : ℤ) = y := by omega
        simp only [readYear, number_pad, Option.map_some, habs]

/-- **The text of a date is read back.** -/
theorem CivilDate.parse_iso (d : CivilDate) (hd : d.year.natAbs < 10 ^ 6) :
    CivilDate.parse d.iso = some d := by
  have hmonths : ∀ l : Bool, ∀ m < 13, daysInMonth l m < 100 := by decide
  have hmonth : (pad 2 d.month).length = 2 :=
    length_pad (by decide) (lt_of_le_of_lt d.month_le (by decide))
  have hday : (pad 2 d.day).length = 2 := by
    refine length_pad (by decide) (lt_of_le_of_lt d.day_le ?_)
    exact hmonths _ _ (Nat.lt_succ_of_le d.month_le)
  have hrest : readMonthDay ('-' :: (pad 2 d.month ++ '-' :: pad 2 d.day)) =
      some (d.month, d.day) := by
    have hm := number_pad 2 d.month
    have hd := number_pad 2 d.day
    obtain ⟨m₁, m₂, hpm⟩ := List.length_eq_two.mp hmonth
    obtain ⟨d₁, d₂, hpd⟩ := List.length_eq_two.mp hday
    rw [hpm] at hm ⊢
    rw [hpd] at hd ⊢
    simp only [List.cons_append, List.nil_append, readMonthDay, hm, hd, Option.bind_some,
      Option.map_some]
  obtain ⟨hwidth, hyear⟩ := yearText_spec hd ('-' :: (pad 2 d.month ++ '-' :: pad 2 d.day))
  unfold CivilDate.parse CivilDate.iso
  rw [String.toList_ofList, hwidth, List.take_left, List.drop_left, hyear, hrest]
  simp only [Option.bind_some, CivilDate.ofNumbers]
  rw [dif_pos ⟨d.month_pos, d.month_le, d.day_pos, d.day_le⟩]

end TsaBackend.Calendar
