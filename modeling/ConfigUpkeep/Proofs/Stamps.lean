/-
# ConfigUpkeep.Proofs.Stamps -- what a stamp tells

The compact stamp of an instant tells the second in which the instant lies, and no more.

* The fields are numbers, and a number is read off its digits (`Decimal.signed_inj`,
  `Decimal.padded_inj`).  The year may have any number of digits and a sign; every field
  behind it has two digits.  So a stamp is read from its end.
* A date tells the day that it was made for: there is a way back (`Date.dayNumber_ofDay`).
  It rests on where the years of an era begin (`Date.startOfYear_bounds`).
* Instants with a date have one stamp exactly if they lie in one second
  (`Instant.stamp_eq_iff`).

A stamp is made of digits and a few marks (`Instant.mem_stamp`), and so holds no point and
no slash.
-/
import ConfigUpkeep.Calendar

namespace ConfigUpkeep

set_option autoImplicit false

/-! ## Digits -/

namespace Decimal

theorem isDigit_digit {n : Nat} (small : n < 10) : (digit n).isDigit = true := by
  have cases : n = 0 ∨ n = 1 ∨ n = 2 ∨ n = 3 ∨ n = 4 ∨ n = 5 ∨ n = 6 ∨ n = 7 ∨ n = 8 ∨ n = 9 := by
    omega
  rcases cases with rfl | rfl | rfl | rfl | rfl | rfl | rfl | rfl | rfl | rfl <;> rfl

theorem isDigit_of_mem_digits {n : Nat} {c : Char} (member : c ∈ digits n) : c.isDigit = true := by
  induction n using Nat.strongRecOn with
  | ind n ih =>
      rw [digits] at member
      split at member
      · rename_i small
        obtain rfl := List.mem_singleton.1 member
        exact isDigit_digit small
      · rename_i large
        rcases List.mem_append.1 member with front | last
        · exact ih (n / 10) (by omega) front
        · obtain rfl := List.mem_singleton.1 last
          exact isDigit_digit (Nat.mod_lt n (by omega))

theorem isDigit_of_mem_padded {width n : Nat} {c : Char} (member : c ∈ padded width n) :
    c.isDigit = true := by
  rcases List.mem_append.1 member with zero | digit
  · obtain rfl := List.eq_of_mem_replicate zero
    rfl
  · exact isDigit_of_mem_digits digit

theorem isDigit_of_mem_signed {n : Int} {c : Char} (member : c ∈ signed n) :
    c = '-' ∨ c.isDigit = true := by
  rw [signed] at member
  split at member
  · exact (List.mem_cons.1 member).imp_right isDigit_of_mem_digits
  · exact Or.inr (isDigit_of_mem_digits member)

/-- Zeros in front of digits change no value. -/
theorem ofDigits_zeros_append (count : Nat) (t : Text) :
    ofDigits (List.replicate count '0' ++ t) = ofDigits t := by
  induction count with
  | zero => rfl
  | succ count ih => rwa [List.replicate_succ, List.cons_append]

theorem padded_inj {width m n : Nat} (same : padded width m = padded width n) : m = n := by
  have value (k : Nat) : ofDigits (padded width k) = k := by
    rw [padded, ofDigits_zeros_append, ofDigits_digits]
  rw [← value m, same, value]

theorem length_padded_two {n : Nat} (small : n < 100) : (padded 2 n).length = 2 := by
  have few : (digits n).length ≤ 2 := by
    rw [digits]
    split
    · exact Nat.le_succ 1
    · rw [digits, if_pos (by omega)]
      exact Nat.le_refl 2
  rw [padded, List.length_append, List.length_replicate]
  omega

/-- A field of two digits is read off the end of a text, whatever stands in front of it. -/
theorem append_padded_inj {s t : Text} {m n : Nat} (small : m < 100) (small_ : n < 100)
    (same : s ++ padded 2 m = t ++ padded 2 n) : s = t ∧ m = n := by
  have wide : (padded 2 m).length = (padded 2 n).length := by
    rw [length_padded_two small, length_padded_two small_]
  obtain ⟨front, field⟩ := List.append_inj' same wide
  exact ⟨front, padded_inj field⟩

theorem signed_inj {m n : Int} (same : signed m = signed n) : m = n := by
  -- No digits start with a sign.
  have unsigned {k l : Nat} (mixed : '-' :: digits k = digits l) : False := by
    have mark : '-' ∈ digits l := mixed ▸ List.mem_cons_self ..
    exact absurd (isDigit_of_mem_digits mark) (by decide)
  rw [signed, signed] at same
  split at same <;> split at same
  · have := digits_inj (List.cons.inj same).2
    omega
  · exact (unsigned same).elim
  · exact (unsigned same.symm).elim
  · have := digits_inj same
    omega

end Decimal

/-! ## Days -/

namespace Date

/-- The years of an era before the year of one of its days. -/
def yearOfEra (day : Nat) : Nat := (day - day / 1460 + day / 36524 - day / 146096) / 365

/-- The days of an era before one of its years. -/
def startOfYear (year : Nat) : Nat := 365 * year + year / 4 - year / 100

/-- A day of an era lies in its year: no more than 365 days behind the first of March. -/
theorem startOfYear_bounds {day : Nat} (within : day < 146097) :
    yearOfEra day ≤ 399 ∧ startOfYear (yearOfEra day) ≤ day ∧
      day ≤ startOfYear (yearOfEra day) + 365 := by
  obtain ⟨leaps, leaps_eq⟩ : ∃ leaps, leaps = day / 1460 := ⟨_, rfl⟩
  obtain ⟨centuries, centuries_eq⟩ : ∃ centuries, centuries = day / 36524 := ⟨_, rfl⟩
  obtain ⟨last, last_eq⟩ : ∃ last, last = day / 146096 := ⟨_, rfl⟩
  obtain ⟨year, year_eq⟩ : ∃ year, year = (day - leaps + centuries - last) / 365 := ⟨_, rfl⟩
  have upper : year / 4 ≤ leaps := by omega
  have lower : leaps ≤ year / 4 + 1 := by omega
  have few : centuries = 0 ∨ centuries = 1 ∨ centuries = 2 ∨ centuries = 3 ∨ centuries = 4 := by
    omega
  have passed : year / 100 ≤ centuries ∧ centuries ≤ year / 100 + last := by omega
  have year_ : yearOfEra day = year := by rw [yearOfEra, year_eq, leaps_eq, centuries_eq, last_eq]
  rw [year_, startOfYear]
  refine ⟨by omega, by omega, ?_⟩
  rcases few with zero | one | two | three | four <;> omega

/-- The days from the first of March to the first of the month that is `month` months later. -/
def startOfMonth (month : Nat) : Nat := (153 * month + 2) / 5

/-- The months from March to the month of a day that is `day` days behind the first of March. -/
def monthOfYear (day : Nat) : Nat := (5 * day + 2) / 153

/-- A day of a year lies in its month: no more than 30 days behind the first. -/
theorem startOfMonth_bounds {day : Nat} (within : day ≤ 365) :
    monthOfYear day ≤ 11 ∧ startOfMonth (monthOfYear day) ≤ day ∧
      day ≤ startOfMonth (monthOfYear day) + 30 := by
  rw [startOfMonth, monthOfYear]
  omega

/-- The date of a day that is `month` months and `day` days behind the first of March of a
year. -/
def ofMarch (year : Int) (month day : Nat) : Date :=
  let ordinal := if month < 10 then month + 3 else month - 9
  { year := year + (if ordinal ≤ 2 then 1 else 0), month := ordinal, day := day + 1 }

/-- The days from the first of January 1970 to a date. -/
def dayNumber (date : Date) : Int :=
  let year := date.year - (if date.month ≤ 2 then 1 else 0)
  let month := if date.month ≤ 2 then date.month + 9 else date.month - 3
  year / 400 * eraDays + startOfYear (year % 400).toNat + startOfMonth month + date.day - 1 - epoch

theorem dayNumber_ofMarch (era : Int) {year month : Nat} (day : Nat) (years : year ≤ 399)
    (months : month ≤ 11) :
    (ofMarch (year + era * 400) month day).dayNumber =
      era * eraDays + startOfYear year + startOfMonth month + day - epoch := by
  have eras : ((year : Int) + era * 400) / 400 = era := by omega
  have left : (((year : Int) + era * 400) % 400).toNat = year := by omega
  by_cases early : month < 10
  · have late : ¬ month + 3 ≤ 2 := by omega
    simp only [dayNumber, ofMarch, if_pos early, if_neg late, Int.add_zero, Int.sub_zero, eras, left,
      Nat.add_sub_cancel]
    omega
  · have early_ : month - 9 ≤ 2 := by omega
    have back : month - 9 + 9 = month := by omega
    simp only [dayNumber, ofMarch, if_neg early, if_pos early_, Int.add_sub_cancel, eras, left, back]
    omega

/-- The parts of a day in which its date is found: its era, and in the era its year, the month
from March and the days of the month before it. -/
theorem exists_parts (n : Int) :
    ∃ (era : Int) (year month day : Nat), year ≤ 399 ∧ month ≤ 11 ∧ day ≤ 30 ∧
      n + epoch = era * eraDays + startOfYear year + startOfMonth month + day ∧
      ofDay n = ofMarch (year + era * 400) month day := by
  obtain ⟨dayOfEra, dayOfEra_eq⟩ : ∃ day, day = ((n + epoch) % eraDays).toNat := ⟨_, rfl⟩
  have within : dayOfEra < 146097 := by
    simp only [dayOfEra_eq, eraDays]
    omega
  obtain ⟨years, started, ended⟩ := startOfYear_bounds within
  obtain ⟨dayOfYear, dayOfYear_eq⟩ :
      ∃ day, day = dayOfEra - startOfYear (yearOfEra dayOfEra) := ⟨_, rfl⟩
  have inYear : dayOfYear ≤ 365 := by omega
  obtain ⟨months, begun, past⟩ := startOfMonth_bounds inYear
  refine ⟨(n + epoch) / eraDays, yearOfEra dayOfEra, monthOfYear dayOfYear,
    dayOfYear - startOfMonth (monthOfYear dayOfYear), years, months, by omega, ?_, ?_⟩
  · simp only [eraDays] at *
    omega
  · subst dayOfYear_eq dayOfEra_eq
    rfl

/-- **A date tells the day that it was made for.** -/
theorem dayNumber_ofDay (n : Int) : (ofDay n).dayNumber = n := by
  obtain ⟨era, year, month, day, years, months, -, counted, found⟩ := exists_parts n
  rw [found, dayNumber_ofMarch era day years months]
  omega

/-- The month and the day of a date have at most two digits. -/
theorem ofDay_lt (n : Int) : (ofDay n).month < 100 ∧ (ofDay n).day < 100 := by
  obtain ⟨era, year, month, day, -, months, days, -, found⟩ := exists_parts n
  rw [found]
  simp only [ofMarch]
  constructor
  · split <;> omega
  · omega

end Date

/-! ## Seconds -/

namespace Instant

variable {now later : Instant}

/-- The seconds since the start of 1970: the second in which the instant lies. -/
def wholeSeconds (instant : Instant) : Int := instant.milliseconds / 1000

/-- The seconds since midnight. -/
def secondOfDay (instant : Instant) : Nat := instant.sinceMidnight / 1000

theorem wholeSeconds_eq (instant : Instant) :
    instant.wholeSeconds = instant.dayNumber * 86400 + instant.secondOfDay := by
  simp only [wholeSeconds, dayNumber, secondOfDay, sinceMidnight, dayLength]
  omega

theorem secondOfDay_lt (instant : Instant) : instant.secondOfDay < 86400 := by
  simp only [secondOfDay, sinceMidnight, dayLength]
  omega

/-- The time of the day tells its second and is told by it. -/
theorem time_eq_iff :
    now.hour = later.hour ∧ now.minute = later.minute ∧ now.second = later.second ↔
      now.secondOfDay = later.secondOfDay := by
  simp only [hour, minute, second, secondOfDay]
  omega

theorem time_lt (instant : Instant) :
    instant.hour < 100 ∧ instant.minute < 100 ∧ instant.second < 100 := by
  have within := instant.secondOfDay_lt
  simp only [secondOfDay] at within
  simp only [hour, minute, second]
  omega

/-- Two instants lie in one second exactly if they lie on one day and have one time of the day. -/
theorem wholeSeconds_eq_iff :
    now.wholeSeconds = later.wholeSeconds ↔
      now.dayNumber = later.dayNumber ∧ now.secondOfDay = later.secondOfDay := by
  have within := now.secondOfDay_lt
  have within_ := later.secondOfDay_lt
  rw [wholeSeconds_eq, wholeSeconds_eq]
  omega

/-- **A stamp tells the second**: instants with a date have one stamp exactly if they lie in one
second. -/
theorem stamp_eq_iff (dated : now.isDated = true) (dated_ : later.isDated = true) :
    now.stamp = later.stamp ↔ now.wholeSeconds = later.wholeSeconds := by
  rw [wholeSeconds_eq_iff, ← time_eq_iff]
  constructor
  · intro same
    simp only [stamp, dated, dated_, if_true] at same
    obtain ⟨hours, minutes, seconds⟩ := now.time_lt
    obtain ⟨hours_, minutes_, seconds_⟩ := later.time_lt
    obtain ⟨months, days⟩ := Date.ofDay_lt now.dayNumber
    obtain ⟨months_, days_⟩ := Date.ofDay_lt later.dayNumber
    obtain ⟨same, second⟩ := Decimal.append_padded_inj seconds seconds_ same
    obtain ⟨same, minute⟩ := Decimal.append_padded_inj minutes minutes_ same
    obtain ⟨same, hour⟩ := Decimal.append_padded_inj hours hours_ same
    obtain ⟨same, day⟩ := Decimal.append_padded_inj days days_ (List.append_cancel_right same)
    obtain ⟨same, month⟩ := Decimal.append_padded_inj months months_ same
    have date : now.date = later.date := by
      have year := Decimal.signed_inj same
      rw [Date.mk.injEq]
      exact ⟨year, month, day⟩
    refine ⟨?_, hour, minute, second⟩
    rw [← Date.dayNumber_ofDay now.dayNumber, ← Date.dayNumber_ofDay later.dayNumber]
    exact congrArg Date.dayNumber date
  · rintro ⟨day, hour, minute, second⟩
    simp only [stamp, dated, dated_, if_true, date, day, hour, minute, second]

/-! ## The characters of a stamp -/

/-- A stamp is made of digits and a few other characters. -/
theorem mem_stamp {now : Instant} {c : Char} (member : c ∈ now.stamp) :
    c.isDigit = true ∨ c ∈ ['-', '_', 'N', 'a'] := by
  rw [stamp] at member
  split at member
  · simp only [List.mem_append] at member
    rcases member with (((((year | month) | day) | line) | hour) | minute) | second
    · rcases Decimal.isDigit_of_mem_signed year with rfl | digit
      · exact Or.inr (by decide)
      · exact Or.inl digit
    · exact Or.inl (Decimal.isDigit_of_mem_padded month)
    · exact Or.inl (Decimal.isDigit_of_mem_padded day)
    · obtain rfl : c = '_' := List.mem_singleton.1 line
      exact Or.inr (by decide)
    · exact Or.inl (Decimal.isDigit_of_mem_padded hour)
    · exact Or.inl (Decimal.isDigit_of_mem_padded minute)
    · exact Or.inl (Decimal.isDigit_of_mem_padded second)
  · right
    have listed : (unknown ++ unknown ++ unknown ++ "_" ++ unknown ++ unknown ++ unknown : Text).all
        (fun d => decide (d ∈ ['-', '_', 'N', 'a'])) = true := by
      decide
    exact of_decide_eq_true (List.all_eq_true.1 listed c member)

theorem not_mem_stamp (now : Instant) {c : Char} (other : c ∈ ['.', '/']) :
    c ∉ now.stamp := by
  intro member
  rcases mem_stamp member with digit | mark
  · revert digit
    simp only [List.mem_cons, List.not_mem_nil, or_false] at other
    rcases other with rfl | rfl <;> decide
  · revert mark
    simp only [List.mem_cons, List.not_mem_nil, or_false] at other
    rcases other with rfl | rfl <;> decide

end Instant

end ConfigUpkeep
