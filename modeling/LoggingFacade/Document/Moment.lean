import LoggingFacade.Number.Integer
import LoggingFacade.Number.Radix

/-!
# Dates and times

Dates, times of day and both together with an optional offset, as documents
write them. The written form is normal: a `T` between date and time, no zeros
at the end of a fraction, and `Z` for the offset of that name.
-/

namespace LoggingFacade

open Number (digit? decimalNatural)

structure Date where
  year : Nat
  month : Nat
  day : Nat
  deriving DecidableEq, Repr

structure TimeOfDay where
  hour : Nat
  minute : Nat
  second : Nat
  /-- Up to nine decimal places of a second, the last one not zero. -/
  fraction : List Char
  deriving DecidableEq, Repr

inductive ZoneOffset where
  | zulu
  | minutes (east : Int)
  deriving DecidableEq, Repr

inductive Moment where
  | date (date : Date)
  | time (time : TimeOfDay)
  | dateTime (date : Date) (time : TimeOfDay) (offset : Option ZoneOffset)
  deriving DecidableEq, Repr

namespace Moment

def isLeapYear (year : Nat) : Bool := year % 4 == 0 && (year % 100 != 0 || year % 400 == 0)

def daysInMonth (year month : Nat) : Nat :=
  if month == 2 then if isLeapYear year then 29 else 28
  else if [4, 6, 9, 11].contains month then 30 else 31

/-- Reads a number of two digits. -/
def two? : List Char → Option (Nat × List Char)
  | a :: b :: rest => do return ((← digit? a) * 10 + (← digit? b), rest)
  | _ => none

def symbol? (c : Char) : List Char → Option (List Char)
  | d :: rest => if c == d then some rest else none
  | [] => none

def date? (cs : List Char) : Option (Date × List Char) := do
  let (century, cs) ← two? cs
  let (year, cs) ← two? cs
  let (month, cs) ← two? (← symbol? '-' cs)
  let (day, cs) ← two? (← symbol? '-' cs)
  let year := century * 100 + year
  if 1 ≤ month && month ≤ 12 && 1 ≤ day && day ≤ daysInMonth year month then
    return (⟨year, month, day⟩, cs)
  else none

/-- Nine places count; zeros at the end do not. -/
def normalFraction (digits : List Char) : List Char :=
  ((digits.take 9).reverse.dropWhile (· == '0')).reverse

def fraction? : List Char → Option (List Char × List Char)
  | '.' :: rest =>
    match rest.takeWhile Char.isDigit with
    | [] => none
    | digits => some (normalFraction digits, rest.dropWhile Char.isDigit)
  | cs => some ([], cs)

/-- The second of a time, with its fraction. Where `optional` it may be left
out. -/
def second? (optional : Bool) (cs : List Char) : Option ((Nat × List Char) × List Char) :=
  match symbol? ':' cs with
  | some cs => do
    let (second, cs) ← two? cs
    let (fraction, cs) ← fraction? cs
    return ((second, fraction), cs)
  | none => if optional then some ((0, []), cs) else none

/-- A leap second is a second sixty. -/
def time? (brief : Bool) (cs : List Char) : Option (TimeOfDay × List Char) := do
  let (hour, cs) ← two? cs
  let (minute, cs) ← two? (← symbol? ':' cs)
  let ((second, fraction), cs) ← second? brief cs
  if hour ≤ 23 && minute ≤ 59 && second ≤ 60 then return (⟨hour, minute, second, fraction⟩, cs)
  else none

def signedOffset? (sign : Int) (cs : List Char) : Option (ZoneOffset × List Char) := do
  let (hours, cs) ← two? cs
  let (minutes, cs) ← two? (← symbol? ':' cs)
  if hours ≤ 23 && minutes ≤ 59 then return (.minutes (sign * (hours * 60 + minutes : Nat)), cs)
  else none

def offset? : List Char → Option (Option ZoneOffset × List Char)
  | 'Z' :: rest => some (some .zulu, rest)
  | 'z' :: rest => some (some .zulu, rest)
  | '+' :: rest => (signedOffset? 1 rest).map fun (offset, rest) => (some offset, rest)
  | '-' :: rest => (signedOffset? (-1) rest).map fun (offset, rest) => (some offset, rest)
  | cs => some (none, cs)

/-- What may stand between a date and a time. -/
def isSeparator (c : Char) : Bool := c == 'T' || c == 't' || c == ' '

/-- Reads a whole text as a moment; `brief` admits times without seconds. -/
def read? (brief : Bool) (cs : List Char) : Option Moment :=
  match date? cs with
  | some (d, []) => some (date d)
  | some (d, c :: rest) =>
    if isSeparator c then do
      let (t, rest) ← time? brief rest
      let (offset, rest) ← offset? rest
      if rest.isEmpty then some (dateTime d t offset) else none
    else none
  | none =>
    match time? brief cs with
    | some (t, []) => some (time t)
    | _ => none

/-- Decimal digits, zeros in front up to a width. -/
def padded (width n : Nat) : String :=
  let digits := (toString n).toList
  .ofList (List.replicate (width - digits.length) '0' ++ digits)

def dateText (d : Date) : String :=
  padded 4 d.year ++ "-" ++ padded 2 d.month ++ "-" ++ padded 2 d.day

def timeText (t : TimeOfDay) : String :=
  padded 2 t.hour ++ ":" ++ padded 2 t.minute ++ ":" ++ padded 2 t.second ++
    (if t.fraction.isEmpty then "" else "." ++ .ofList t.fraction)

def offsetText : ZoneOffset → String
  | .zulu => "Z"
  | .minutes east =>
    (if east < 0 then "-" else "+") ++ padded 2 (east.natAbs / 60) ++ ":" ++
      padded 2 (east.natAbs % 60)

def text : Moment → String
  | date d => dateText d
  | time t => timeText t
  | dateTime d t offset => dateText d ++ "T" ++ timeText t ++ (offset.map offsetText).getD ""

end Moment
end LoggingFacade
