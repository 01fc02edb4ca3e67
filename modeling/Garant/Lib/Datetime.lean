import Mathlib
/-!
# Dates and times

The calendar of Python's `datetime`, how it writes a time (`isoformat`), and
which texts it reads (`fromisoformat`, the formats of Python 3.11). A time is
a number of microseconds since the first day of 1970.

`fromisoformat_isoformat`: a time is read back from what is written of it.
-/

namespace Datetime

/-! ## The calendar -/

def isLeap (year : ℕ) : Bool := year % 4 = 0 && (year % 100 ≠ 0 || year % 400 = 0)

/-- The days of the years before a year. -/
def daysBeforeYear (year : ℕ) : ℕ := (year - 1) * 365 + (year - 1) / 4 - (year - 1) / 100 + (year - 1) / 400

def daysInMonth (leap : Bool) (month : ℕ) : ℕ :=
  if month = 2 ∧ leap then 29 else [0, 31, 28, 31, 30, 31, 30, 31, 31, 30, 31, 30, 31].getD month 0

/-- The days of the months before a month. -/
def daysBeforeMonth (leap : Bool) (month : ℕ) : ℕ :=
  [0, 0, 31, 59, 90, 120, 151, 181, 212, 243, 273, 304, 334].getD month 0 + if 2 < month ∧ leap then 1 else 0

structure Date where
  year : ℕ
  month : ℕ
  day : ℕ
deriving DecidableEq

/-- A date that there is. -/
def Date.Valid (d : Date) : Prop :=
  (1 ≤ d.year ∧ d.year ≤ 9999) ∧ (1 ≤ d.month ∧ d.month ≤ 12) ∧ 1 ≤ d.day ∧ d.day ≤ daysInMonth (isLeap d.year) d.month

instance (d : Date) : Decidable d.Valid := inferInstanceAs (Decidable (_ ∧ _))

/-- The days up to a date; the first of January of year 1 is 1. -/
def Date.toOrdinal (d : Date) : ℕ := daysBeforeYear d.year + daysBeforeMonth (isLeap d.year) d.month + d.day

/-- The year of a day, counted from 0, and the days of that year before it. -/
def yearOf (k : ℕ) : ℕ × ℕ :=
  let n400 := k / 146097
  let n100 := k % 146097 / 36524
  let n4 := k % 146097 % 36524 / 1461
  let n1 := k % 146097 % 36524 % 1461 / 365
  let year := n400 * 400 + n100 * 100 + n4 * 4 + n1 + 1
  -- the last day of four or four hundred years
  if n1 = 4 ∨ n100 = 4 then (year - 1, 365) else (year, k % 146097 % 36524 % 1461 % 365)

/-- The month of a day of the year, counted from 0, and the day of that month. -/
def monthOf (leap : Bool) (k : ℕ) : ℕ × ℕ :=
  -- either the month or the one after it
  let month := (k + 50) / 32
  let month := if k < daysBeforeMonth leap month then month - 1 else month
  (month, k - daysBeforeMonth leap month + 1)

def Date.ofOrdinal (n : ℕ) : Date :=
  let (year, k) := yearOf (n - 1)
  let (month, day) := monthOf (isLeap year) k
  ⟨year, month, day⟩

/-- The date of a day of an ISO week. -/
def Date.ofIsoWeek (year week day : ℕ) : Option Date :=
  let first := (Date.mk year 1 1).toOrdinal
  -- Monday is 0
  let weekday := (first + 6) % 7
  let weeks := if weekday = 3 ∨ weekday = 2 ∧ isLeap year then 53 else 52
  let monday := first - weekday + if 3 < weekday then 7 else 0
  if (1 ≤ year ∧ year ≤ 9999) ∧ (1 ≤ week ∧ week ≤ weeks) ∧ 1 ≤ day ∧ day ≤ 7 then
    some (.ofOrdinal (monday + (week - 1) * 7 + (day - 1)))
  else none

section
variable {a b c d k n : ℕ} {leap : Bool}

theorem daysBeforeYear_add (hb : b < 4) (hc : c < 25) (hd : d < 4) :
    daysBeforeYear (a * 400 + b * 100 + c * 4 + d + 1) = a * 146097 + b * 36524 + c * 1461 + d * 365 := by
  unfold daysBeforeYear
  omega

theorem isLeap_add (hb : b < 4) (hc : c < 25) (hd : d < 4) :
    isLeap (a * 400 + b * 100 + c * 4 + d + 1) = true ↔ d = 3 ∧ (c ≠ 24 ∨ b = 3) := by
  simp only [isLeap, Bool.and_eq_true, Bool.or_eq_true, decide_eq_true_eq]
  omega

/-- The year of a day: the day is one of its 365 or 366. -/
theorem yearOf_spec : 1 ≤ (yearOf k).1 ∧ daysBeforeYear (yearOf k).1 + (yearOf k).2 = k ∧
    (yearOf k).2 < 365 + if isLeap (yearOf k).1 then 1 else 0 := by
  generalize hyear : yearOf k = y
  unfold yearOf at hyear
  extract_lets n400 n100 n4 n1 year at hyear
  split at hyear
  · rename_i hlast
    obtain ⟨b, c, hb, hc, hleap, hy, hk⟩ : ∃ b c, b < 4 ∧ c < 25 ∧ (c ≠ 24 ∨ b = 3) ∧
        year - 1 = n400 * 400 + b * 100 + c * 4 + 3 + 1 ∧ n400 * 146097 + b * 36524 + c * 1461 + 3 * 365 + 365 = k := by
      rcases hlast with h | h
      · exact ⟨n100, n4, by omega⟩
      · exact ⟨3, 24, by omega⟩
    subst hyear
    show 1 ≤ year - 1 ∧ daysBeforeYear (year - 1) + 365 = k ∧ 365 < 365 + if isLeap (year - 1) then 1 else 0
    rw [hy, daysBeforeYear_add hb hc (by decide), (isLeap_add hb hc (by decide)).2 ⟨rfl, hleap⟩]
    exact ⟨by omega, hk, by decide⟩
  · subst hyear
    show 1 ≤ year ∧ daysBeforeYear year + k % 146097 % 36524 % 1461 % 365 = k ∧
      k % 146097 % 36524 % 1461 % 365 < 365 + if isLeap year then 1 else 0
    refine ⟨by omega, ?_, by omega⟩
    rw [daysBeforeYear_add (by omega) (by omega) (by omega)]
    omega

theorem monthOf_spec : ∀ leap, ∀ k < 365 + (if leap then 1 else 0), (1 ≤ (monthOf leap k).1 ∧ (monthOf leap k).1 ≤ 12) ∧
    (1 ≤ (monthOf leap k).2 ∧ (monthOf leap k).2 ≤ daysInMonth leap (monthOf leap k).1) ∧
    daysBeforeMonth leap (monthOf leap k).1 + (monthOf leap k).2 = k + 1 := by
  decide +kernel

theorem toOrdinal_ofOrdinal (h : 1 ≤ n) : (Date.ofOrdinal n).toOrdinal = n := by
  obtain ⟨-, hyear, hk⟩ := yearOf_spec (k := n - 1)
  obtain ⟨-, -, hmonth⟩ := monthOf_spec _ _ hk
  simp only [Date.ofOrdinal, Date.toOrdinal]
  omega

theorem ofOrdinal_valid (h : 1 ≤ n) (hlast : n ≤ 3652059) : (Date.ofOrdinal n).Valid := by
  obtain ⟨hpos, hyear, hk⟩ := yearOf_spec (k := n - 1)
  obtain ⟨hmonth, hday, -⟩ := monthOf_spec _ _ hk
  refine ⟨⟨hpos, ?_⟩, hmonth, hday⟩
  show (yearOf (n - 1)).1 ≤ 9999
  unfold daysBeforeYear at hyear
  omega

end

/-! ## Times -/

/-- The microseconds of a day. -/
def dayLength : ℤ := 86400000000

/-- The first of January of 1970. -/
def epochDay : ℤ := 719163

/-- The times that a `datetime` without an offset can have: those of the years 1 to 9999. -/
abbrev Naive : Type := { t : ℤ // (1 - epochDay) * dayLength ≤ t ∧ t < (3652060 - epochDay) * dayLength }

/-- A time of day, or what an offset is made of. -/
structure Clock where
  hour : ℕ
  minute : ℕ
  second : ℕ
  microsecond : ℕ
deriving DecidableEq

/-- A time of day that there is. -/
def Clock.Valid (c : Clock) : Prop := c.hour < 24 ∧ c.minute < 60 ∧ c.second < 60 ∧ c.microsecond < 1000000

instance (c : Clock) : Decidable c.Valid := inferInstanceAs (Decidable (_ ∧ _))

def Clock.microseconds (c : Clock) : ℤ := ((c.hour * 60 + c.minute) * 60 + c.second) * 1000000 + c.microsecond

def dateOf (t : ℤ) : Date := .ofOrdinal (t / dayLength + epochDay).toNat

def clockOf (t : ℤ) : Clock :=
  let us := (t % dayLength).toNat
  ⟨us / 3600000000, us / 60000000 % 60, us / 1000000 % 60, us % 1000000⟩

def timeOf (d : Date) (c : Clock) : ℤ := (d.toOrdinal - epochDay) * dayLength + c.microseconds

theorem clockOf_valid (t : ℤ) : (clockOf t).Valid := by
  have hlt : t % dayLength < dayLength := Int.emod_lt_of_pos t (by decide)
  have hge : 0 ≤ t % dayLength := Int.emod_nonneg t (by decide)
  unfold dayLength at hlt hge
  simp only [clockOf, Clock.Valid, dayLength]
  omega

theorem clockOf_microseconds (t : ℤ) : (clockOf t).microseconds = t % dayLength := by
  have hge : 0 ≤ t % dayLength := Int.emod_nonneg t (by decide)
  unfold dayLength at hge
  simp only [clockOf, Clock.microseconds, dayLength]
  omega

theorem dateOf_valid (t : Naive) : (dateOf t).Valid := by
  obtain ⟨hfirst, hlast⟩ := t.2
  refine ofOrdinal_valid ?_ ?_
  all_goals
    unfold epochDay dayLength at *
    omega

/-- A time is made of its date and its time of day. -/
theorem timeOf_parts (t : Naive) : timeOf (dateOf t) (clockOf t) = t := by
  obtain ⟨hfirst, hlast⟩ := t.2
  have hday : 1 ≤ ((t : ℤ) / dayLength + epochDay).toNat := by
    unfold epochDay dayLength at *
    omega
  rw [timeOf, clockOf_microseconds, dateOf, toOrdinal_ofOrdinal hday]
  unfold epochDay dayLength at *
  omega

/-! ## Writing -/

/-- The last `width` digits of a number. -/
def digits : ℕ → ℕ → List Char
  | 0, _ => []
  | width + 1, n => digits width (n / 10) ++ [Nat.digitChar (n % 10)]

def writeDate (d : Date) : List Char := digits 4 d.year ++ '-' :: (digits 2 d.month ++ '-' :: digits 2 d.day)

def writeClock (c : Clock) : List Char :=
  digits 2 c.hour ++ ':' :: (digits 2 c.minute ++ ':' :: (digits 2 c.second ++
    if c.microsecond = 0 then [] else '.' :: digits 6 c.microsecond))

/-- `isoformat`. -/
def isoformat (t : Naive) : String := String.ofList (writeDate (dateOf t) ++ 'T' :: writeClock (clockOf t))

/-! ## Reading -/

/-- What is read: the time on the clock, and its offset from UTC if it came with one. -/
structure Reading where
  time : ℤ
  utcoffset : Option ℤ
deriving DecidableEq

def number (s : List Char) : ℕ := s.foldl (fun n c => n * 10 + (c.toNat - '0'.toNat)) 0

/-- The number that the first `width` characters make, all of them digits, and what follows it. -/
def readDigits (width : ℕ) (s : List Char) : Option (ℕ × List Char) :=
  if (s.take width).length = width ∧ (s.take width).all Char.isDigit then some (number (s.take width), s.drop width)
  else none

/-- What follows a mark, where there has to be one. -/
def skip (required : Bool) (mark : Char) (s : List Char) : Option (List Char) :=
  if required then if s.head? = some mark then some s.tail else none else some s

/-- Where the date ends. Behind `YYYY-Www` the day of the week takes a dash, which
could be the separator as well; behind `YYYYWww` it is a digit, and so could be the
separator: the digits of the time come in pairs. -/
def separator (s : List Char) : ℕ :=
  if s.length = 7 then 7
  else if s[4]? = some '-' then
    if s[5]? ≠ some 'W' then 10 else if s[8]? = some '-' ∧ (s[10]?.any Char.isDigit) = false then 10 else 8
  else if s[4]? = some 'W' then
    let stop := 7 + ((s.drop 7).takeWhile Char.isDigit).length
    if stop < 9 then stop else if stop % 2 = 0 then 7 else 8
  else 8

/-- A date with dashes between its parts or without, by month or by week. -/
def readDate (s : List Char) : Option Date := do
  let (year, s) ← readDigits 4 s
  let dashes : Bool := s.head? = some '-'
  let s := if dashes then s.tail else s
  if s.head? = some 'W' then
    let (week, s) ← readDigits 2 s.tail
    if s = [] then Date.ofIsoWeek year week 1
    else
      let (day, _) ← readDigits 1 (← skip dashes '-' s)
      Date.ofIsoWeek year week day
  else
    let (month, s) ← readDigits 2 s
    let (day, s) ← readDigits 2 (← skip dashes '-' s)
    if s = [] then some ⟨year, month, day⟩ else none

/-- The fraction of a second; digits after the sixth are dropped. -/
def readFraction (s : List Char) : Option ℕ :=
  match s with
  | [] => some 0
  | mark :: s =>
    if (mark = '.' ∨ mark = ',') ∧ s ≠ [] ∧ s.all Char.isDigit then some (number (s.take 6) * 10 ^ (6 - s.length))
    else none

/-- Hours, minutes and seconds with colons between them or without; only the hours have to be there. -/
def readClock (s : List Char) : Option Clock := do
  let (hour, s) ← readDigits 2 s
  if s = [] then some ⟨hour, 0, 0, 0⟩
  else
    let colons : Bool := s.head? = some ':'
    let (minute, s) ← readDigits 2 (← skip colons ':' s)
    if s = [] then some ⟨hour, minute, 0, 0⟩
    else
      let (second, s) ← readDigits 2 (← skip colons ':' s)
      let microsecond ← readFraction s
      some ⟨hour, minute, second, microsecond⟩

/-- The offset, if there is one. -/
def readZone (s : List Char) : Option (Option ℤ) :=
  match s with
  | [] => some none
  | mark :: s =>
    if mark = 'Z' then if s = [] then some (some 0) else none
    else do
      let c ← readClock s
      if c.microseconds < dayLength then some (some (if mark = '-' then -c.microseconds else c.microseconds)) else none

def startsZone (c : Char) : Bool := c = '-' || c = '+' || c = 'Z'

/-- A time of day and its offset behind a separator, which can be any character; midnight if there is nothing. -/
def readTime (s : List Char) : Option (Clock × Option ℤ) :=
  match s with
  | [] => some (⟨0, 0, 0, 0⟩, none)
  | _ :: s => do
    let c ← readClock (s.takeWhile (!startsZone ·))
    let offset ← readZone (s.dropWhile (!startsZone ·))
    if c.Valid then some (c, offset) else none

/-- `datetime.fromisoformat`. -/
def fromisoformat (text : String) : Option Reading :=
  let s := text.toList
  if s.length < 7 then none
  else do
    let d ← readDate (s.take (separator s))
    if ¬d.Valid then none
    else
      let (c, offset) ← readTime (s.drop (separator s))
      some ⟨timeOf d c, offset⟩

/-! ## What is written is read -/

section
variable {c x : Char} {s : List Char} {width n : ℕ} {d : Date} {k : Clock}

theorem digitChar_spec : ∀ d < 10, (Nat.digitChar d).isDigit = true ∧ (Nat.digitChar d).toNat - '0'.toNat = d := by decide

theorem length_digits : (digits width n).length = width := by
  induction width generalizing n with
  | zero => rfl
  | succ width ih => rw [digits, List.length_append, ih, List.length_singleton]

theorem isDigit_digits (h : c ∈ digits width n) : c.isDigit = true := by
  induction width generalizing n with
  | zero => cases h
  | succ width ih =>
    rcases List.mem_append.1 h with h | h
    · exact ih h
    · rw [List.mem_singleton.1 h]
      exact (digitChar_spec _ (Nat.mod_lt _ (by decide))).1

theorem number_digits (h : n < 10 ^ width) : number (digits width n) = n := by
  induction width generalizing n with
  | zero => exact (Nat.lt_one_iff.1 h).symm
  | succ width ih =>
    have hdiv : n / 10 < 10 ^ width := Nat.div_lt_of_lt_mul (by rwa [← pow_succ'])
    rw [digits, number, List.foldl_append, ← number, ih hdiv]
    simp only [List.foldl_cons, List.foldl_nil, (digitChar_spec _ (Nat.mod_lt n (by decide : 0 < 10))).2]
    omega

theorem readDigits_digits (h : n < 10 ^ width) : readDigits width (digits width n ++ s) = some (n, s) := by
  have hall : (digits width n).all Char.isDigit = true := List.all_eq_true.2 fun _ => isDigit_digits
  rw [readDigits, List.take_left' length_digits, List.drop_left' length_digits, if_pos ⟨length_digits, hall⟩,
    number_digits h]

/-- A number begins with a digit. -/
theorem head_digits (hx : x.isDigit = false) : (digits (width + 1) n ++ s).head? ≠ some x := by
  intro h
  cases hd : digits (width + 1) n with
  | nil =>
    have hlen : (digits (width + 1) n).length = width + 1 := length_digits
    rw [hd] at hlen
    cases hlen
  | cons c l =>
    rw [hd] at h
    cases h
    have hmem : x ∈ digits (width + 1) n := by
      rw [hd]
      exact List.mem_cons_self
    rw [isDigit_digits hmem] at hx
    cases hx

theorem length_writeDate : (writeDate d).length = 10 := by
  simp only [writeDate, List.length_append, List.length_cons, length_digits]

theorem readDate_writeDate (h : d.Valid) : readDate (writeDate d) = some d := by
  obtain ⟨⟨-, hyear⟩, ⟨-, hmonth⟩, -, hday⟩ := h
  have hdays : daysInMonth (isLeap d.year) d.month ≤ 31 := by
    interval_cases d.month <;> cases isLeap d.year <;> decide
  have hlast : readDigits 2 (digits 2 d.day) = some (d.day, []) := by
    rw [← List.append_nil (digits 2 d.day)]
    exact readDigits_digits (by omega)
  have hweek : (digits 2 d.month ++ '-' :: digits 2 d.day).head? ≠ some 'W' := head_digits (by decide)
  rw [readDate, writeDate, readDigits_digits (by omega)]
  simp only [Option.bind_eq_bind, Option.bind_some, List.head?_cons, decide_true, if_true, List.tail_cons, if_neg hweek,
    readDigits_digits (show d.month < 10 ^ 2 by omega), skip, hlast]

/-- The date ends before the tenth character, whatever follows it. -/
theorem separator_writeDate : separator (writeDate d ++ c :: s) = 10 := by
  have hlong : (writeDate d ++ c :: s).length ≠ 7 := by
    rw [List.length_append, length_writeDate]
    omega
  have hdash : (writeDate d ++ c :: s)[4]? = some '-' := rfl
  have hmonth : (writeDate d ++ c :: s)[5]? = some (Nat.digitChar (d.month / 10 % 10)) := rfl
  have hweek : (writeDate d ++ c :: s)[5]? ≠ some 'W' := by
    rw [hmonth]
    intro h
    have hdigit := (digitChar_spec (d.month / 10 % 10) (Nat.mod_lt _ (by decide))).1
    rw [Option.some.inj h] at hdigit
    cases hdigit
  rw [separator, if_neg hlong, if_pos hdash, if_pos hweek]

theorem mem_writeClock (h : c ∈ writeClock k) : c.isDigit = true ∨ c = ':' ∨ c = '.' := by
  simp only [writeClock, List.mem_append, List.mem_cons] at h
  rcases h with h | h | h | h | h | h
  · exact .inl (isDigit_digits h)
  · exact .inr (.inl h)
  · exact .inl (isDigit_digits h)
  · exact .inr (.inl h)
  · exact .inl (isDigit_digits h)
  · split at h
    · cases h
    · rcases List.mem_cons.1 h with h | h
      · exact .inr (.inr h)
      · exact .inl (isDigit_digits h)

theorem startsZone_writeClock (h : c ∈ writeClock k) : startsZone c = false := by
  rw [Bool.eq_false_iff]
  intro hz
  simp only [startsZone, Bool.or_eq_true, decide_eq_true_eq] at hz
  rcases hz with (rfl | rfl) | rfl <;> exact absurd (mem_writeClock h) (by decide)

theorem readFraction_written (h : n < 1000000) : readFraction (if n = 0 then [] else '.' :: digits 6 n) = some n := by
  by_cases h0 : n = 0
  · rw [if_pos h0, h0]
    rfl
  · have hne : digits 6 n ≠ [] := List.ne_nil_of_length_pos (by rw [length_digits]; decide)
    have hall : (digits 6 n).all Char.isDigit = true := List.all_eq_true.2 fun _ => isDigit_digits
    rw [if_neg h0, readFraction, if_pos ⟨.inl rfl, hne, hall⟩, List.take_of_length_le length_digits.le, number_digits h,
      length_digits]
    simp

theorem readClock_writeClock (h : k.Valid) : readClock (writeClock k) = some k := by
  obtain ⟨hhour, hminute, hsecond, hmicrosecond⟩ := h
  have hminutes (s : List Char) : readDigits 2 (digits 2 k.minute ++ s) = some (k.minute, s) := readDigits_digits (by omega)
  have hseconds (s : List Char) : readDigits 2 (digits 2 k.second ++ s) = some (k.second, s) := readDigits_digits (by omega)
  rw [readClock, writeClock, readDigits_digits (by omega)]
  simp only [Option.bind_eq_bind, Option.bind_some, reduceCtorEq, if_false, List.head?_cons, decide_true, skip, if_true,
    List.tail_cons, hminutes, hseconds, readFraction_written hmicrosecond]

theorem readTime_writeClock (h : k.Valid) : readTime (c :: writeClock k) = some (k, none) := by
  have hall : ∀ x ∈ writeClock k, (!startsZone x) = true := fun x hx => by rw [startsZone_writeClock hx]; rfl
  rw [readTime, List.takeWhile_eq_self_iff.2 hall, List.dropWhile_eq_nil_iff.2 hall, readClock_writeClock h]
  simp only [Option.bind_eq_bind, Option.bind_some, readZone, if_pos h]

/-- A time is read back from what is written of it. -/
theorem fromisoformat_isoformat (t : Naive) : fromisoformat (isoformat t) = some ⟨t, none⟩ := by
  have hlong : ¬(writeDate (dateOf t) ++ 'T' :: writeClock (clockOf t)).length < 7 := by
    rw [List.length_append, length_writeDate]
    omega
  simp only [fromisoformat, isoformat, String.toList_ofList]
  rw [if_neg hlong, separator_writeDate, List.take_left' length_writeDate, List.drop_left' length_writeDate,
    readDate_writeDate (dateOf_valid t), readTime_writeClock (clockOf_valid t)]
  simp only [Option.bind_eq_bind, Option.bind_some, dateOf_valid t, not_true_eq_false, if_false, timeOf_parts]

/-- What is written has digits, the marks between them and a `T`. -/
theorem mem_isoformat {t : Naive} (h : c ∈ (isoformat t).toList) : c.isDigit = true ∨ c ∈ ['-', 'T', ':', '.'] := by
  rw [isoformat, String.toList_ofList] at h
  simp only [writeDate, List.append_assoc, List.cons_append, List.mem_append, List.mem_cons] at h
  rcases h with h | rfl | h | rfl | h | rfl | h
  · exact .inl (isDigit_digits h)
  · exact .inr (by decide)
  · exact .inl (isDigit_digits h)
  · exact .inr (by decide)
  · exact .inl (isDigit_digits h)
  · exact .inr (by decide)
  · rcases mem_writeClock h with h | rfl | rfl
    · exact .inl h
    · exact .inr (by decide)
    · exact .inr (by decide)

end

end Datetime
