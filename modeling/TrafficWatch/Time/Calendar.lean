import TrafficWatch.Time.Instant
import TrafficWatch.Decimal.Layout

/-!
# Time — Calendar

Instants as text in the Gregorian calendar: a date, the letter `T`, a time of day with as many groups
of three digits after the point as are needed, and the zone.  Lines of the log have six digits there in
every case.  Years before year zero and after 9999 carry a sign.
-/

namespace TrafficWatch

/-- A day of the Gregorian calendar. -/
structure Date where
  year : Int
  month : Nat
  day : Nat
deriving Repr, DecidableEq

/-- The date of a day counted from the start of 1970.  Years are taken to begin in March, so that the
leap day ends them; an era is 400 years. -/
def Date.ofDayNumber (n : Int) : Date :=
  let shifted := n + 719468
  let era := Int.fdiv shifted 146097
  let dayOfEra := (shifted - era * 146097).toNat
  let yearOfEra := (dayOfEra - dayOfEra / 1460 + dayOfEra / 36524 - dayOfEra / 146096) / 365
  let dayOfYear := dayOfEra - (365 * yearOfEra + yearOfEra / 4 - yearOfEra / 100)
  let monthFromMarch := (5 * dayOfYear + 2) / 153
  let day := dayOfYear - (153 * monthFromMarch + 2) / 5 + 1
  let month := if monthFromMarch < 10 then monthFromMarch + 3 else monthFromMarch - 9
  let year : Int := era * 400 + yearOfEra
  ⟨if month ≤ 2 then year + 1 else year, month, day⟩

/-- A number with zeros in front of it up to a width. -/
def padded (width n : Nat) : List Char :=
  let digits := Decimal.natural n
  List.replicate (width - digits.length) '0' ++ digits

/-- The text of a year. -/
def yearText (year : Int) : List Char :=
  if year < 0 then '-' :: padded 4 year.natAbs
  else if 9999 < year then '+' :: padded 4 year.natAbs
  else padded 4 year.natAbs

/-- The digits after the point of a second: none, three, six or nine, as few as tell all. -/
def fractionText (nanoseconds : Nat) : List Char :=
  if nanoseconds = 0 then []
  else if nanoseconds % 1000000 = 0 then '.' :: padded 3 (nanoseconds / 1000000)
  else if nanoseconds % 1000 = 0 then '.' :: padded 6 (nanoseconds / 1000)
  else '.' :: padded 9 nanoseconds

/-- Six digits after the point of a second, whatever is left over. -/
def microsecondText (nanoseconds : Nat) : List Char :=
  '.' :: padded 6 (nanoseconds / 1000)

/-- The text of an instant: date and time with a separator between them, what follows the seconds, and
the zone at the end. -/
def Instant.text (separator zone : String) (fraction : Nat → List Char) (t : Instant) : String :=
  let day := Int.fdiv t 86400000000000
  let rest := (t - day * 86400000000000).toNat
  let date := Date.ofDayNumber day
  let seconds := rest / 1000000000
  String.ofList (
    yearText date.year ++ '-' :: padded 2 date.month ++ '-' :: padded 2 date.day ++
      separator.toList ++ padded 2 (seconds / 3600) ++ ':' :: padded 2 (seconds / 60 % 60) ++
      ':' :: padded 2 (seconds % 60) ++ fraction (rest % 1000000000) ++ zone.toList)

/-- The text of an instant with its offset from universal time in digits. -/
def Instant.withOffset (t : Instant) : String :=
  t.text "T" "+00:00" fractionText

/-- The text of an instant in a record. -/
def Instant.inRecord (t : Instant) : String :=
  t.text "T" "Z" fractionText

/-- The text of an instant at the head of a line of the log. -/
def Instant.inLog (t : Instant) : String :=
  t.text "T" "Z" microsecondText

/-- The text of an instant for people. -/
def Instant.spoken (t : Instant) : String :=
  t.text " " " UTC" fractionText

end TrafficWatch
