import Mustache.Json.Number
import Mustache.Json.Tree
import Mustache.Text.Blank

/-!
# Timestamps

Moments as texts: a date, a time of day and the offset from universal time, with white space
allowed around the parts. `Timestamp.isMoment` accepts the texts that name a moment of the
calendar; a `Timestamp` is one of them.
-/

namespace Mustache

/-- The parts of a moment as it is written. -/
structure Moment where
  /-- The year, which may be negative. -/
  year : Int
  /-- The month, counted from one. -/
  month : Nat
  /-- The day of the month, counted from one. -/
  day : Nat
  /-- The hour. -/
  hour : Nat
  /-- The minute. -/
  minute : Nat
  /-- The second. The sixtieth is one that was put in. -/
  second : Nat
  /-- The seconds by which the local time is ahead of universal time. -/
  offset : Int
  deriving Repr, DecidableEq, Inhabited

namespace Moment

/-- Whether a year has a leap day. -/
def isLeapYear (year : Int) : Bool :=
  year % 4 == 0 && (year % 100 != 0 || year % 400 == 0)

/-- How many days a month has. -/
def daysInMonth (year : Int) (month : Nat) : Nat :=
  if month == 2 then if isLeapYear year then 29 else 28
  else if [4, 6, 9, 11].contains month then 30
  else 31

/-- The first and the last year of the calendar. -/
def years : Int × Int := (-262143, 262142)

/-- The second of the day in universal time; it may be one of a neighbouring day. -/
def universalSecond (moment : Moment) : Int :=
  (moment.hour : Int) * 3600 + (moment.minute : Int) * 60 + (min moment.second 59 : Nat) -
    moment.offset

/-- Whether the moment is one of the calendar. -/
def isReal (moment : Moment) : Bool :=
  let (first, last) := years
  1 ≤ moment.month && moment.month ≤ 12 &&
  1 ≤ moment.day && moment.day ≤ daysInMonth moment.year moment.month &&
  moment.hour ≤ 23 && moment.minute ≤ 59 && moment.second ≤ 60 &&
  moment.offset.natAbs < 86400 &&
  first ≤ moment.year && moment.year ≤ last &&
  ! (moment.year == first && moment.month == 1 && moment.day == 1 &&
    moment.universalSecond < 0) &&
  ! (moment.year == last && moment.month == 12 && moment.day == 31 &&
    86400 ≤ moment.universalSecond)

/-- The leading digits of a text, at most `most` of them and at least one, as a number, and
what follows them. -/
def readNumber? (most : Nat) (text : List Char) : Option (Nat × List Char) :=
  let digits := (text.take most).takeWhile Json.Tree.isDigit
  if digits.isEmpty then none else some (Json.digitsValue digits, text.drop digits.length)

/-- A number of at most two digits after white space. -/
def readField? (text : List Char) : Option (Nat × List Char) :=
  readNumber? 2 (Text.trimStart text)

/-- A year after white space: four digits at most, or any number of them after a sign. -/
def readYear? (text : List Char) : Option (Int × List Char) :=
  match Text.trimStart text with
  | '-' :: rest => (readNumber? rest.length rest).map fun (year, rest) => (-(year : Int), rest)
  | '+' :: rest => (readNumber? rest.length rest).map fun (year, rest) => ((year : Int), rest)
  | rest => (readNumber? 4 rest).map fun (year, rest) => ((year : Int), rest)

/-- What follows a mark after white space. -/
def readMark? (mark : Char) (text : List Char) : Option (List Char) :=
  match Text.trimStart text with
  | head :: rest => if head == mark then some rest else none
  | [] => none

/-- What follows the decimals of a second, if there are any. -/
def skipDecimals? : List Char → Option (List Char)
  | '.' :: rest =>
    if (rest.head?.map Json.Tree.isDigit).getD false then some (rest.dropWhile Json.Tree.isDigit)
    else none
  | rest => some rest

/-- Two digits as a number, and what follows them. -/
def readTwo? : List Char → Option (Nat × List Char)
  | tens :: ones :: rest =>
    if Json.Tree.isDigit tens && Json.Tree.isDigit ones then
      some (Json.digitsValue [tens, ones], rest)
    else none
  | _ => none

/-- The hours and minutes of an offset after its sign, in seconds. -/
def readOffset? (text : List Char) : Option (Int × List Char) := do
  let (hours, rest) ← readTwo? text
  let (minutes, rest) ← readTwo?
    (rest.dropWhile fun character => character == ':' || Text.isWhiteSpace character)
  if minutes < 60 then return ((hours * 3600 + minutes * 60 : Nat), rest) else none

/-- An offset from universal time. -/
def readZone? (text : List Char) : Option (Int × List Char) :=
  if (text.take 3).map Char.toUpper == ['U', 'T', 'C'] then some (0, text.drop 3)
  else
    match text with
    | 'Z' :: rest | 'z' :: rest => some (0, rest)
    | '+' :: rest => readOffset? rest
    | '-' :: rest | '\u2212' :: rest =>
      (readOffset? rest).map fun (offset, rest) => (-offset, rest)
    | _ => none

/-- The moment that a text spells. -/
def parse? (source : String) : Option Moment := do
  let (year, rest) ← readYear? source.toList
  let (month, rest) ← readField? (← readMark? '-' rest)
  let (day, rest) ← readField? (← readMark? '-' rest)
  let rest ← match rest with
    | 't' :: rest | 'T' :: rest | ' ' :: rest => some rest
    | _ => none
  let (hour, rest) ← readField? rest
  let (minute, rest) ← readField? (← readMark? ':' rest)
  let (second, rest) ← readField? (← readMark? ':' rest)
  let (offset, rest) ← readZone? (Text.trimStart (← skipDecimals? rest))
  if (Text.trimStart rest).isEmpty then
    let moment : Moment := ⟨year, month, day, hour, minute, second, offset⟩
    if moment.isReal then return moment else none
  else none

/-- A number with at least `width` digits. -/
def padded (width number : Nat) : String :=
  let digits := Nat.toDigits 10 number
  String.ofList (List.replicate (width - digits.length) '0' ++ digits)

/-- The day with a number, counted from the first of March of the year zero, as year, month
and day. Four hundred years have 146097 days, and with the year taken from March on, the
leap day is the last of its year. -/
def civilDay (number : Int) : Int × Nat × Nat :=
  let era := number / 146097
  let dayOfEra := (number % 146097).toNat
  let yearOfEra := (dayOfEra - dayOfEra / 1460 + dayOfEra / 36524 - dayOfEra / 146096) / 365
  let dayOfYear := dayOfEra - (365 * yearOfEra + yearOfEra / 4 - yearOfEra / 100)
  let shifted := (5 * dayOfYear + 2) / 153
  let day := dayOfYear - (153 * shifted + 2) / 5 + 1
  let month := if shifted < 10 then shifted + 3 else shifted - 9
  (era * 400 + yearOfEra + (if month ≤ 2 then 1 else 0), month, day)

/-- The text of the moment that is some seconds after the start of the year 1970. -/
def textOfSeconds (seconds : Nat) : String :=
  let (year, month, day) := civilDay (719468 + seconds / 86400 : Nat)
  let second := seconds % 86400
  padded 4 year.toNat ++ "-" ++ padded 2 month ++ "-" ++ padded 2 day ++ "T" ++
    padded 2 (second / 3600) ++ ":" ++ padded 2 (second / 60 % 60) ++ ":" ++
    padded 2 (second % 60) ++ "Z"

end Moment

/-- A text that spells a moment. -/
structure Timestamp where
  /-- The text. -/
  text : String
  /-- It spells a moment. -/
  isMoment : (Moment.parse? text).isSome

namespace Timestamp

/-- A text as a timestamp, if it spells a moment. -/
def ofText? (text : String) : Option Timestamp :=
  if isMoment : (Moment.parse? text).isSome then some ⟨text, isMoment⟩ else none

/-- The start of the year 1970. -/
def epoch : Timestamp where
  text := "1970-01-01T00:00:00Z"
  isMoment := by decide +kernel

instance : Inhabited Timestamp := ⟨epoch⟩

/-- The moment that is some seconds after the start of the year 1970. -/
def ofSeconds (seconds : Nat) : Timestamp :=
  (ofText? (Moment.textOfSeconds seconds)).getD epoch

end Timestamp

end Mustache
