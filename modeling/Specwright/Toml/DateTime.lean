import Specwright.Toml.Number
import Specwright.Toml.Quoted

/-!
# Dates and times of TOML

Dates of the calendar, times of day, and both together with or without the offset of a time zone.
Each reader gives back the normal text of what it read with the rest: a capital `T` before the time
and `Z` for the offset so named, and no zeros at the end of the fraction of a second.
-/

namespace Specwright

namespace Toml

/-- Two digits and the number that they write. -/
def twoDigits? : List Char → Option (Nat × List Char)
  | a :: b :: rest =>
    if a.isDigit ∧ b.isDigit then some (numeral 10 [a, b], rest) else none
  | _ => none

/-- The number of days of a month. -/
def daysIn (year month : Nat) : Nat :=
  if month = 2 then
    if year % 4 = 0 ∧ (year % 100 ≠ 0 ∨ year % 400 = 0) then 29 else 28
  else if month = 4 ∨ month = 6 ∨ month = 9 ∨ month = 11 then 30
  else 31

/-- A date of the calendar. -/
def date? (text : List Char) : Option (List Char × List Char) := do
  let (high, rest) ← twoDigits? text
  let (low, rest) ← twoDigits? rest
  let rest ← after? '-' rest
  let (month, rest) ← twoDigits? rest
  let rest ← after? '-' rest
  let (day, rest) ← twoDigits? rest
  let year := high * 100 + low
  if 1 ≤ month ∧ month ≤ 12 ∧ 1 ≤ day ∧ day ≤ daysIn year month then
    some (text.take 10, rest)
  else none

/-- The fraction of a second, if there is one, cut to nanoseconds and without the zeros at its
end. -/
def secondFraction (text : List Char) : Option (List Char × List Char) :=
  match text with
  | '.' :: rest =>
    match rest.takeWhile Char.isDigit with
    | [] => none
    | ds =>
      let rest := rest.dropWhile Char.isDigit
      match ((ds.take 9).reverse.dropWhile (· = '0')).reverse with
      | [] => some ([], rest)
      | kept => some ('.' :: kept, rest)
  | rest => some ([], rest)

/-- A time of day. -/
def time? (text : List Char) : Option (List Char × List Char) := do
  let (hour, rest) ← twoDigits? text
  let rest ← after? ':' rest
  let (minute, rest) ← twoDigits? rest
  let rest ← after? ':' rest
  let (second, rest) ← twoDigits? rest
  let (fraction, rest) ← secondFraction rest
  if hour ≤ 23 ∧ minute ≤ 59 ∧ second ≤ 60 then some (text.take 8 ++ fraction, rest) else none

/-- The offset of a time zone.  No offset to the west is one to the east. -/
def offset? : List Char → Option (List Char × List Char)
  | 'Z' :: rest => some (['Z'], rest)
  | 'z' :: rest => some (['Z'], rest)
  | c :: text =>
    if c = '+' ∨ c = '-' then do
      let (hour, rest) ← twoDigits? text
      let rest ← after? ':' rest
      let (minute, rest) ← twoDigits? rest
      let direction := if hour = 0 ∧ minute = 0 then '+' else c
      if hour ≤ 23 ∧ minute ≤ 59 then some (direction :: text.take 5, rest) else none
    else none
  | [] => none

/-- Whether a text starts like a date or a time. -/
def startsDateTime (text : List Char) : Bool :=
  let ds := text.takeWhile Char.isDigit
  let next := (text.dropWhile Char.isDigit).head?
  (ds.length = 4 && next == some '-') || (ds.length = 2 && next == some ':')

/-- A date, a time, or both with or without an offset.  A `T` joins a date and a time, whatever
stood between them. -/
def dateTimeText? (text : List Char) : Option (List Char × List Char) :=
  match date? text with
  | some (date, rest) =>
    match rest with
    | c :: afterDate =>
      if c = 'T' ∨ c = 't' ∨ (c = ' ' ∧ startsDateTime afterDate) then do
        let (time, rest) ← time? afterDate
        let (offset, rest) := (offset? rest).getD ([], rest)
        pure (date ++ 'T' :: time ++ offset, rest)
      else some (date, rest)
    | [] => some (date, [])
  | none => time? text

/-- The key of a date or time, which stands for a record of its text. -/
def dateTimeKey : String :=
  "$__toml_private_datetime"

/-- A date or time as a value. -/
def dateTime? (text : List Char) : Option (Json × List Char) := do
  let (spelled, rest) ← dateTimeText? text
  pure (.obj [(dateTimeKey, .str (String.ofList spelled))], rest)

end Toml

end Specwright
