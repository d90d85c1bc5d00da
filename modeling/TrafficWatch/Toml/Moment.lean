import TrafficWatch.Decimal.Nearest
import TrafficWatch.Time.Calendar

/-!
# Toml — Moment

Dates and times in a document.  They have no meaning of their own here and are kept as text, in one
form: a `T` between date and time, digits after the point without idle zeros at the end, and a `Z` or
the hours and minutes of the zone.  What a time does not say, its seconds or their fraction, is left
out of the text too.
-/

namespace TrafficWatch.Toml

/-- A number of exactly `width` digits, and the rest. -/
def fixedNumber (width : Nat) (s : List Char) : Option (Nat × List Char) :=
  let digits := s.take width
  if digits.length = width && digits.all Char.isDigit then
    some (Decimal.digitsValue digits, s.drop width)
  else none

/-- The rest after one given character. -/
def afterChar (c : Char) : List Char → Option (List Char)
  | [] => none
  | x :: rest => if x = c then some rest else none

/-- Whether a year has a leap day. -/
def isLeapYear (year : Nat) : Bool :=
  (year % 4 = 0 && year % 100 ≠ 0) || year % 400 = 0

/-- The number of days of a month. -/
def daysOfMonth (year month : Nat) : Nat :=
  if month = 2 then (if isLeapYear year then 29 else 28)
  else if [4, 6, 9, 11].contains month then 30
  else 31

/-- A date in its one form, and the rest. -/
def readDate (s : List Char) : Option (List Char × List Char) := do
  let (year, s) ← fixedNumber 4 s
  let s ← afterChar '-' s
  let (month, s) ← fixedNumber 2 s
  let s ← afterChar '-' s
  let (day, s) ← fixedNumber 2 s
  if 1 ≤ month && month ≤ 12 && 1 ≤ day && day ≤ daysOfMonth year month then
    return (padded 4 year ++ '-' :: padded 2 month ++ '-' :: padded 2 day, s)
  else none

/-- The digits after a point, nine at most and without zeros at the end unless there is nothing else,
and the rest. -/
def readFraction (s : List Char) : Option (List Char × List Char) :=
  match s with
  | '.' :: rest =>
    let digits := rest.takeWhile Char.isDigit
    let kept := ((digits.take 9).reverse.dropWhile (· = '0')).reverse
    if digits.isEmpty then none
    else some ('.' :: if kept.isEmpty then ['0'] else kept, rest.dropWhile Char.isDigit)
  | _ => some ([], s)

/-- The seconds of a time with their fraction, and the rest; a time need not have them. -/
def readSeconds (s : List Char) : Option (List Char × List Char) :=
  match s with
  | ':' :: s => do
    let (second, s) ← fixedNumber 2 s
    let (fraction, s) ← readFraction s
    if second ≤ 60 then return (':' :: padded 2 second ++ fraction, s) else none
  | _ => some ([], s)

/-- A time in its one form, and the rest. -/
def readTime (s : List Char) : Option (List Char × List Char) := do
  let (hour, s) ← fixedNumber 2 s
  let s ← afterChar ':' s
  let (minute, s) ← fixedNumber 2 s
  let (seconds, s) ← readSeconds s
  if hour ≤ 23 && minute ≤ 59 then
    return (padded 2 hour ++ ':' :: padded 2 minute ++ seconds, s)
  else none

/-- The zone of a time in its one form; there need not be one. -/
def readZone : List Char → Option (List Char)
  | [] => some []
  | ['Z'] | ['z'] => some ['Z']
  | sign :: s =>
    if sign ≠ '+' && sign ≠ '-' then none
    else do
      let (hours, s) ← fixedNumber 2 s
      let s ← afterChar ':' s
      let (minutes, s) ← fixedNumber 2 s
      if s.isEmpty && hours ≤ 23 && minutes ≤ 59 then
        let isZero := hours = 0 && minutes = 0
        return (if isZero then '+' else sign) :: padded 2 hours ++ ':' :: padded 2 minutes
      else none

/-- A date, a time or both, with a zone only if there are both. -/
def readMoment (s : List Char) : Option (List Char) :=
  match readDate s with
  | some (date, []) => some date
  | some (date, mark :: rest) =>
    if mark = 'T' || mark = 't' || mark = ' ' then do
      let (time, rest) ← readTime rest
      let zone ← readZone rest
      return date ++ 'T' :: time ++ zone
    else none
  | none => do
    let (time, rest) ← readTime s
    if rest.isEmpty then return time else none

end TrafficWatch.Toml
