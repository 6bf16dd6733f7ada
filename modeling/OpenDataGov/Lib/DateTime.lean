import Mathlib.Data.Nat.Find
import Mathlib.Tactic.Ring
import OpenDataGov.Lib.Text

/-!
# Dates and times

Dates with a time of day and an offset from UTC, as Python's `datetime`: a
reading of the wall clock, in microseconds from the start of the year 1 of the
proleptic Gregorian calendar, and the offset, if there is one. Adding a duration
moves the wall clock; two of them are compared as instants.

`isoformat` writes one as a text, which determines it (`isoformat_injective`):
the year, the month and the day of a date determine the date, since they say how
many days are before it (`day_eq`).

The year of a day, and the month, are defined as the last one that begins no later, by counting
days. So nothing needs to be computed with divisions by the lengths of cycles, and that a date is
determined by its parts follows from what these mean. The text is taken apart from the left,
part by part, with the results of `Lib.Text` on numbers of fixed width.
-/

namespace Calendar

open Text

/-! ## Dates -/

/-- The number of days before the year `y`. -/
def daysBeforeYear (y : ℕ) : ℕ := 365 * (y - 1) + (y - 1) / 4 - (y - 1) / 100 + (y - 1) / 400

/-- Leap years. -/
def IsLeap (y : ℕ) : Prop := y % 4 = 0 ∧ (y % 100 ≠ 0 ∨ y % 400 = 0)

instance : DecidablePred IsLeap := fun y =>
  inferInstanceAs (Decidable (y % 4 = 0 ∧ (y % 100 ≠ 0 ∨ y % 400 = 0)))

/-- The number of days before the month `m` in a common year. -/
def daysBeforeMonthCommon : ℕ → ℕ
  | 2 => 31
  | 3 => 59
  | 4 => 90
  | 5 => 120
  | 6 => 151
  | 7 => 181
  | 8 => 212
  | 9 => 243
  | 10 => 273
  | 11 => 304
  | 12 => 334
  | _ => 0

/-- The number of days before the month `m` in the year `y`. -/
def daysBeforeMonth (y m : ℕ) : ℕ :=
  daysBeforeMonthCommon m + if 2 < m ∧ IsLeap y then 1 else 0

/-- The year of the day `n`, the day `0` being the first of the year 1. -/
def year (n : ℕ) : ℕ := Nat.findGreatest (fun y => daysBeforeYear y ≤ n) (n / 365 + 1)

/-- The number of days before the day `n` in its year. -/
def dayOfYear (n : ℕ) : ℕ := n - daysBeforeYear (year n)

/-- The month of the day `n`. -/
def month (n : ℕ) : ℕ :=
  Nat.findGreatest (fun m => daysBeforeMonth (year n) m ≤ dayOfYear n) 12

/-- The day `n` in its month. -/
def day (n : ℕ) : ℕ := dayOfYear n - daysBeforeMonth (year n) (month n) + 1

theorem daysBeforeYear_year (n : ℕ) : daysBeforeYear (year n) ≤ n :=
  Nat.findGreatest_spec (P := fun y => daysBeforeYear y ≤ n) (Nat.zero_le _)
    (by simp [daysBeforeYear])

theorem daysBeforeMonth_month (n : ℕ) : daysBeforeMonth (year n) (month n) ≤ dayOfYear n :=
  Nat.findGreatest_spec (P := fun m => daysBeforeMonth (year n) m ≤ dayOfYear n) (Nat.zero_le _)
    (by simp [daysBeforeMonth, daysBeforeMonthCommon])

/-- A date counts the days before it. -/
theorem day_eq (n : ℕ) :
    daysBeforeYear (year n) + daysBeforeMonth (year n) (month n) + day n = n + 1 := by
  have hy := daysBeforeYear_year n
  have hm := daysBeforeMonth_month n
  unfold day
  have hd : daysBeforeYear (year n) + dayOfYear n = n := by unfold dayOfYear; omega
  omega

/-- The year, the month and the day determine the date. -/
theorem date_injective {m n : ℕ} (hy : year m = year n) (hm : month m = month n)
    (hd : day m = day n) : m = n := by
  have h := day_eq m
  rw [hy, hm, hd, day_eq n] at h
  omega

/-! ## Dates with times -/

/-- A date and time of day, with an offset from UTC. -/
@[ext]
structure DateTime where
  /-- Microseconds on the wall clock, from the start of the year 1. -/
  wall : ℕ
  /-- Microseconds that the wall clock is ahead of UTC; `none` if it is not known. -/
  utcoffset : Option ℤ
  deriving DecidableEq

/-- Microseconds in an hour. -/
def hour : ℕ := 3600000000

namespace DateTime

/-- The instant, in microseconds of UTC (an unknown offset is read as UTC). -/
def instant (t : DateTime) : ℤ := t.wall - t.utcoffset.getD 0

/-- Adding a duration of `d` microseconds. -/
def add (t : DateTime) (d : ℕ) : DateTime := { t with wall := t.wall + d }

/-- Adding a duration adds it to the instant. -/
@[simp] theorem instant_add (t : DateTime) (d : ℕ) : (t.add d).instant = t.instant + d := by
  simp only [instant, add]
  push_cast
  ring

/-- The fraction of a second, if there is one. -/
def fraction (us : ℕ) : List Char := if us = 0 then [] else '.' :: padded 6 us

/-- The offset from UTC: hours and minutes, and the seconds if there are any. -/
def offsetText : Option ℤ → List Char
  | none => []
  | some off =>
    let a := off.natAbs
    (if off < 0 then '-' else '+') :: (padded 2 (a / 3600000000) ++
      ':' :: (padded 2 (a / 60000000 % 60) ++
        if a % 60000000 = 0 then []
        else ':' :: (padded 2 (a / 1000000 % 60) ++ fraction (a % 1000000))))

/-- `isoformat`, as a list of characters, with `sep` between date and time. -/
def isoText (sep : Char) (t : DateTime) : List Char :=
  let n := t.wall / 86400000000
  padded 4 (year n) ++ '-' :: (padded 2 (month n) ++ '-' :: (padded 2 (day n) ++
    sep :: (padded 2 (t.wall / 3600000000 % 24) ++ ':' :: (padded 2 (t.wall / 60000000 % 60) ++
      ':' :: (padded 2 (t.wall / 1000000 % 60) ++
        (fraction (t.wall % 1000000) ++ offsetText t.utcoffset))))))

/-- `datetime.isoformat`. -/
def isoformat (t : DateTime) : String := String.ofList (t.isoText 'T')

/-- `str` of a `datetime`. -/
def str (t : DateTime) : String := String.ofList (t.isoText ' ')

/-- No digit follows the seconds: a fraction begins with a point, -/
theorem stopsAt_fraction_append {us : ℕ} {x : List Char} (hx : StopsAt IsDigit x) :
    StopsAt IsDigit (fraction us ++ x) := by
  unfold fraction
  split_ifs
  · exact hx
  · exact stopsAt_cons (by decide)

/-- or is not there, -/
theorem stopsAt_fraction (us : ℕ) : StopsAt IsDigit (fraction us) := by
  simpa using @stopsAt_fraction_append us [] stopsAt_nil

/-- and an offset begins with a sign, -/
theorem offsetText_head {off : Option ℤ} {c : Char} {x : List Char} (h : offsetText off = c :: x) :
    c = '-' ∨ c = '+' := by
  cases off with
  | none => exact absurd h (by simp [offsetText])
  | some off =>
    rw [← (List.cons.inj h).1]
    split_ifs <;> simp

/-- if it is there. -/
theorem stopsAt_offsetText (off : Option ℤ) : StopsAt IsDigit (offsetText off) := by
  intro c hc
  obtain ⟨x, hx⟩ := List.head?_eq_some_iff.1 hc
  rcases offsetText_head hx with rfl | rfl <;> decide

/-- Fractions cannot be confused, if no point follows them, -/
theorem fraction_cancel {m n : ℕ} {x y : List Char} (hx : StopsAt IsDigit x)
    (hy : StopsAt IsDigit y) (hx' : x.head? ≠ some '.') (hy' : y.head? ≠ some '.')
    (h : fraction m ++ x = fraction n ++ y) : m = n ∧ x = y := by
  unfold fraction at h
  split_ifs at h with hm hn hn
  · exact ⟨hm.trans hn.symm, h⟩
  · exact absurd (by rw [show x = _ from h]; rfl) hx'
  · exact absurd (by rw [show y = _ from h.symm]; rfl) hy'
  · exact padded_cancel hx hy (List.cons.inj h).2

/-- nor can offsets, -/
theorem offsetText_injective : Function.Injective offsetText := by
  intro o o' h
  match o, o' with
  | none, none => rfl
  | none, some _ => exact absurd h (by simp [offsetText])
  | some _, none => exact absurd h (by simp [offsetText])
  | some a, some b =>
    obtain ⟨hsign, h⟩ := List.cons.inj h
    obtain ⟨hh, h⟩ := padded_sep_cancel (by decide) h
    -- Seconds and their fraction are written only if they are not zero, which the lengths tell.
    have habs : a.natAbs = b.natAbs := by
      split_ifs at h with ha hb hb
      · obtain ⟨hm, -⟩ := padded_cancel stopsAt_nil stopsAt_nil h
        omega
      · obtain ⟨-, h⟩ := padded_cancel stopsAt_nil (stopsAt_cons (by decide)) h
        exact absurd h (by simp)
      · obtain ⟨-, h⟩ := padded_cancel (stopsAt_cons (by decide)) stopsAt_nil h
        exact absurd h (by simp)
      · obtain ⟨hm, h⟩ := padded_sep_cancel (by decide) h
        obtain ⟨hs, h⟩ := padded_cancel (stopsAt_fraction _) (stopsAt_fraction _) h
        have hf : fraction (a.natAbs % 1000000) ++ [] = fraction (b.natAbs % 1000000) ++ [] := by
          rw [h]
        obtain ⟨hus, -⟩ := fraction_cancel stopsAt_nil stopsAt_nil (by simp) (by simp) hf
        omega
    -- The offsets have the same size, and the same sign.
    split_ifs at hsign with ha hb hb
    · exact congrArg some (by omega)
    · exact absurd hsign (by decide)
    · exact absurd hsign (by decide)
    · exact congrArg some (by omega)

/-- or times as a whole. -/
theorem isoText_injective {sep : Char} (hsep : ¬IsDigit sep) :
    Function.Injective (isoText sep) := by
  intro t t' h
  obtain ⟨hy, h⟩ := padded_sep_cancel (by decide) h
  obtain ⟨hm, h⟩ := padded_sep_cancel (by decide) h
  obtain ⟨hd, h⟩ := padded_sep_cancel hsep h
  obtain ⟨hh, h⟩ := padded_sep_cancel (by decide) h
  obtain ⟨hmin, h⟩ := padded_sep_cancel (by decide) h
  obtain ⟨hs, h⟩ := padded_cancel (stopsAt_fraction_append (stopsAt_offsetText _))
    (stopsAt_fraction_append (stopsAt_offsetText _)) h
  have hdot : ∀ off, (offsetText off).head? ≠ some '.' := fun off hoff => by
    obtain ⟨x, hx⟩ := List.head?_eq_some_iff.1 hoff
    exact absurd (offsetText_head hx) (by decide)
  obtain ⟨hus, hoff⟩ := fraction_cancel (stopsAt_offsetText _) (stopsAt_offsetText _)
    (hdot _) (hdot _) h
  have hdate := date_injective hy hm hd
  ext1
  · omega
  · exact offsetText_injective hoff

/-- A date and time is determined by its text. -/
theorem isoformat_injective : Function.Injective isoformat := fun _ _ h =>
  isoText_injective (by decide) (String.ofList_injective h)

end DateTime

end Calendar
