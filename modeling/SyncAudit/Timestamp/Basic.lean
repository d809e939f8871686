import SyncAudit.Number.Digits

/-!
# Moments in time

A moment is a date and a time of day in UTC, down to the nanosecond. Its text has three, six or
nine digits of fraction, the fewest that lose nothing, or none at all. The sixtieth second of a
minute is allowed, so that leap seconds have a name.
-/
namespace SyncAudit

/-- Whether a year has a 29th of February. -/
def isLeapYear (year : Int) : Bool :=
  year % 4 = 0 && (year % 100 ≠ 0 || year % 400 = 0)

/-- The number of days in a month of the year. -/
def daysInMonth (year : Int) (month : Nat) : Nat :=
  if month = 2 then (if isLeapYear year then 29 else 28)
  else if month = 4 ∨ month = 6 ∨ month = 9 ∨ month = 11 then 30
  else 31

structure Date where
  year : Int
  month : Nat
  day : Nat
  deriving DecidableEq, Repr

namespace Date

/-- The dates of the calendar, within the years that can be kept. -/
def Valid (d : Date) : Prop :=
  -262143 ≤ d.year ∧ d.year ≤ 262142 ∧ 1 ≤ d.month ∧ d.month ≤ 12 ∧
    1 ≤ d.day ∧ d.day ≤ daysInMonth d.year d.month

instance decidableValid (d : Date) : Decidable d.Valid := by
  unfold Valid; infer_instance

/-- The day after. -/
def next (d : Date) : Date :=
  if d.day < daysInMonth d.year d.month then { d with day := d.day + 1 }
  else if d.month < 12 then ⟨d.year, d.month + 1, 1⟩
  else ⟨d.year + 1, 1, 1⟩

/-- The day before. -/
def previous (d : Date) : Date :=
  if 1 < d.day then { d with day := d.day - 1 }
  else if 1 < d.month then ⟨d.year, d.month - 1, daysInMonth d.year (d.month - 1)⟩
  else ⟨d.year - 1, 12, 31⟩

end Date

structure TimeOfDay where
  hour : Nat
  minute : Nat
  second : Nat
  nano : Nat
  deriving DecidableEq, Repr

/-- The times of a day, each minute with room for a leap second. -/
def TimeOfDay.Valid (t : TimeOfDay) : Prop :=
  t.hour < 24 ∧ t.minute < 60 ∧ t.second ≤ 60 ∧ t.nano < 1000000000

instance TimeOfDay.decidableValid (t : TimeOfDay) : Decidable t.Valid := by
  unfold TimeOfDay.Valid; infer_instance

/-- A moment in UTC. -/
structure Timestamp where
  date : Date
  time : TimeOfDay
  date_valid : date.Valid
  time_valid : time.Valid
  deriving DecidableEq

namespace Timestamp

/-- The moment with the given date and time, if there are such. -/
def ofParts? (date : Date) (time : TimeOfDay) : Option Timestamp :=
  if hd : date.Valid then
    if ht : time.Valid then some ⟨date, time, hd, ht⟩ else none
  else none

/-- The first moment of 1970. -/
def epoch : Timestamp :=
  ⟨⟨1970, 1, 1⟩, ⟨0, 0, 0, 0⟩, by decide, by decide⟩

/-- A year in four digits, with a sign before years that need more or lie before zero. -/
def yearText (year : Int) : List Char :=
  if 0 ≤ year ∧ year ≤ 9999 then padded 4 year.natAbs
  else (if year < 0 then '-' else '+') :: padded 4 year.natAbs

/-- The fraction of a second with its point: as many groups of three digits as are needed. -/
def fractionText (nano : Nat) : List Char :=
  if nano = 0 then []
  else if nano % 1000000 = 0 then '.' :: padded 3 (nano / 1000000)
  else if nano % 1000 = 0 then '.' :: padded 6 (nano / 1000)
  else '.' :: padded 9 nano

def text (t : Timestamp) : List Char :=
  yearText t.date.year ++ '-' :: padded 2 t.date.month ++ '-' :: padded 2 t.date.day
    ++ 'T' :: padded 2 t.time.hour ++ ':' :: padded 2 t.time.minute
    ++ ':' :: padded 2 t.time.second ++ fractionText t.time.nano ++ ['Z']

def toString (t : Timestamp) : String :=
  String.ofList t.text

end Timestamp
end SyncAudit
