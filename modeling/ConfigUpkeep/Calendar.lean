/-
# ConfigUpkeep.Calendar -- instants, days and their stamps

An instant is a count of milliseconds since the start of 1970, before it negative, in
universal time.  Instants reach a hundred million days either way; an instant further
off has no date.

The date of a day is found in eras of 400 years, each of the same 146097 days, counted
from the first of March of the year 0, so that the leap day is the last of its year
(`Date.ofDay`).

Two stamps are written.  The one in names of backups is compact, to the second; the one
in journal records is the ISO form, to the millisecond, where years outside 0 to 9999
have a sign and six digits.
-/
import ConfigUpkeep.Decimal

namespace ConfigUpkeep

set_option autoImplicit false

/-- Milliseconds since the start of 1970. -/
structure Instant where
  milliseconds : Int
  deriving DecidableEq, Repr

/-- A day of the calendar. -/
structure Date where
  year : Int
  month : Nat
  day : Nat
  deriving DecidableEq, Repr

namespace Date

/-- The days from the first of March of the year 0 to the start of 1970. -/
def epoch : Int := 719468

/-- The days of 400 years. -/
def eraDays : Int := 146097

/-- The date of the day that is `n` days after the first of January 1970. -/
def ofDay (n : Int) : Date :=
  let fromMarch := n + epoch
  let era := fromMarch / eraDays
  let dayOfEra := (fromMarch % eraDays).toNat
  let yearOfEra := (dayOfEra - dayOfEra / 1460 + dayOfEra / 36524 - dayOfEra / 146096) / 365
  let dayOfYear := dayOfEra - (365 * yearOfEra + yearOfEra / 4 - yearOfEra / 100)
  let monthFromMarch := (5 * dayOfYear + 2) / 153
  let day := dayOfYear - (153 * monthFromMarch + 2) / 5 + 1
  let month := if monthFromMarch < 10 then monthFromMarch + 3 else monthFromMarch - 9
  { year := yearOfEra + era * 400 + (if month ≤ 2 then 1 else 0), month := month, day := day }

end Date

namespace Instant

/-- The milliseconds of a day. -/
def dayLength : Int := 86400000

/-- How far instants with a date reach, either way. -/
def reach : Int := 8640000000000000

/-- The instant has a date. -/
def isDated (instant : Instant) : Bool := instant.milliseconds.natAbs ≤ reach.natAbs

/-- The day of the instant, counted from the first of January 1970. -/
def dayNumber (instant : Instant) : Int := instant.milliseconds / dayLength

def date (instant : Instant) : Date := Date.ofDay instant.dayNumber

/-- The milliseconds since midnight. -/
def sinceMidnight (instant : Instant) : Nat := (instant.milliseconds % dayLength).toNat

def hour (instant : Instant) : Nat := instant.sinceMidnight / 3600000

def minute (instant : Instant) : Nat := instant.sinceMidnight / 60000 % 60

def second (instant : Instant) : Nat := instant.sinceMidnight / 1000 % 60

def millisecond (instant : Instant) : Nat := instant.sinceMidnight % 1000

/-- What stands for a field of an instant without a date. -/
def unknown : Text := "NaN"

/-- The compact stamp: year, month and day, an underscore, and the time to the second. -/
def stamp (instant : Instant) : Text :=
  if instant.isDated then
    let two := Decimal.padded 2
    Decimal.signed instant.date.year ++ two instant.date.month ++ two instant.date.day ++ "_" ++
      two instant.hour ++ two instant.minute ++ two instant.second
  else unknown ++ unknown ++ unknown ++ "_" ++ unknown ++ unknown ++ unknown

def isoYear (year : Int) : Text :=
  if 0 ≤ year ∧ year ≤ 9999 then Decimal.padded 4 year.natAbs
  else (if year < 0 then '-' else '+') :: Decimal.padded 6 year.natAbs

/-- The ISO stamp, to the millisecond. -/
def iso (instant : Instant) : Text :=
  let two := Decimal.padded 2
  isoYear instant.date.year ++ "-" ++ two instant.date.month ++ "-" ++ two instant.date.day ++
    "T" ++ two instant.hour ++ ":" ++ two instant.minute ++ ":" ++ two instant.second ++ "." ++
    Decimal.padded 3 instant.millisecond ++ "Z"

end Instant

end ConfigUpkeep
