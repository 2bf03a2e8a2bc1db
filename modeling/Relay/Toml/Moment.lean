import Relay.Decimal

/-!
# TOML dates and times

A date, a time of day, or both together with an optional offset. The parts have a fixed number of
digits and must exist: no month has more days than the calendar gives it, and a minute has at most
61 seconds.
-/

namespace Relay.Toml

/-- The number that decimal digits stand for, if they are such. -/
def decimal? (cs : List Char) : Option Nat :=
  if cs.all Char.isDigit then some (Decimal.value cs) else none

/-- Whether a year has a 29th of February. -/
def isLeap (year : Nat) : Bool :=
  year % 4 = 0 && (year % 100 ≠ 0 || year % 400 = 0)

/-- The number of days in a month. -/
def daysIn (year month : Nat) : Nat :=
  if month = 2 then (if isLeap year then 29 else 28)
  else if month = 4 || month = 6 || month = 9 || month = 11 then 30
  else 31

/-- The text after a date at its front. -/
def afterDate? : List Char → Option (List Char)
  | a :: b :: c :: d :: '-' :: e :: f :: '-' :: g :: h :: rest => do
    let year ← decimal? [a, b, c, d]
    let month ← decimal? [e, f]
    let day ← decimal? [g, h]
    if 1 ≤ month && month ≤ 12 && 1 ≤ day && day ≤ daysIn year month then some rest else none
  | _ => none

/-- The text after an hour and a minute at its front. -/
def afterMinute? : List Char → Option (List Char)
  | a :: b :: ':' :: c :: d :: rest => do
    let hour ← decimal? [a, b]
    let minute ← decimal? [c, d]
    if hour ≤ 23 && minute ≤ 59 then some rest else none
  | _ => none

/-- The text after the fraction of a second at its front, if there is one. -/
def afterFraction? : List Char → Option (List Char)
  | '.' :: rest =>
    match Decimal.span rest with
    | ([], _) => none
    | (_, rest) => some rest
  | rest => some rest

/-- The text after a time of day at its front. The seconds may be left out. -/
def afterTime? (cs : List Char) : Option (List Char) := do
  match ← afterMinute? cs with
  | ':' :: a :: b :: rest =>
    let second ← decimal? [a, b]
    if second ≤ 60 then afterFraction? rest else none
  | rest => some rest

/-- The text after an offset at its front, if there is one. -/
def afterOffset? : List Char → Option (List Char)
  | [] => some []
  | c :: rest =>
    if c = 'Z' || c = 'z' then some rest
    else if c = '+' || c = '-' then afterMinute? rest
    else some (c :: rest)

/-- Whether a character stands between a date and a time. -/
def isTimeMark (c : Char) : Bool :=
  c = 'T' || c = 't' || c = ' '

/-- Whether a text is a date, a time of day or both. -/
def isMoment (cs : List Char) : Bool :=
  match afterDate? cs with
  | some [] => true
  | some (c :: rest) => isTimeMark c && ((afterTime? rest).bind afterOffset?) = some []
  | none => afterTime? cs = some []

end Relay.Toml
