import ApiReference.Text.Basic

/-!
# Dates and times

Calendar dates, times of day and offsets in the notation of RFC 3339, each part of which may stand
alone. Reading refuses days that no month has.
-/

namespace ApiReference.Toml

structure Date where
  year : Nat
  month : Nat
  day : Nat
  deriving DecidableEq, Repr

structure Time where
  hour : Nat
  minute : Nat
  second : Nat
  nanosecond : Nat
  deriving DecidableEq, Repr

/-- The distance from universal time. -/
inductive Offset where
  | universal
  /-- In minutes. -/
  | custom (minutes : Int)
  deriving DecidableEq, Repr

/-- A date, a time, or both; only both together have an offset. -/
inductive Datetime where
  | date (d : Date)
  | time (t : Time)
  | moment (d : Date) (t : Time) (o : Option Offset)
  deriving DecidableEq, Repr

/-- A number of exactly so many digits within bounds. -/
def readField? (count least greatest : Nat) (t : Text) : Option (Nat × Text) :=
  let digits := t.take count
  let n := Text.toNat digits
  if digits.length = count && digits.all Text.isAsciiDigit && least ≤ n && n ≤ greatest then
    some (n, t.drop count)
  else none

/-- The text after a given character. -/
def after? (c : Char) (t : Text) : Option Text := Text.stripStart [c] t

def isLeapYear (year : Nat) : Bool := year % 4 = 0 && (year % 100 != 0 || year % 400 = 0)

def daysOf (year month : Nat) : Nat :=
  if month = 2 then (if isLeapYear year then 29 else 28)
  else if month = 4 || month = 6 || month = 9 || month = 11 then 30 else 31

def Date.read? (t : Text) : Option (Date × Text) := do
  let (year, t) ← readField? 4 0 9999 t
  let (month, t) ← readField? 2 1 12 (← after? '-' t)
  let (day, t) ← readField? 2 1 (daysOf year month) (← after? '-' t)
  return (⟨year, month, day⟩, t)

/-- Billionths from the digits of a fraction; digits beyond the ninth are dropped. -/
def nanoseconds (digits : Text) : Nat :=
  Text.toNat (digits.take 9 ++ List.replicate (9 - digits.length) '0')

/-- A fraction of a second, if there is one. -/
def readFraction? : Text → Option (Nat × Text)
  | '.' :: t =>
    let digits := t.takeWhile Text.isAsciiDigit
    if digits.isEmpty then none else some (nanoseconds digits, t.dropWhile Text.isAsciiDigit)
  | t => some (0, t)

/-- A time of day at the start of a text. -/
def Time.read? (t : Text) : Option (Time × Text) := do
  let (hour, t) ← readField? 2 0 23 t
  let (minute, t) ← readField? 2 0 59 (← after? ':' t)
  let (second, t) ← readField? 2 0 60 (← after? ':' t)
  let (nanosecond, t) ← readFraction? t
  return (⟨hour, minute, second, nanosecond⟩, t)

/-- An offset that is the whole text, if there is any text. -/
def Offset.read? : Text → Option (Option Offset)
  | [] => some none
  | [c] => if c == 'Z' || c == 'z' then some (some .universal) else none
  | sign :: t => do
    let (hour, t) ← readField? 2 0 23 t
    let (minute, t) ← readField? 2 0 59 (← after? ':' t)
    let minutes : Int := hour * 60 + minute
    match sign, t with
    | '+', [] => some (some (.custom minutes))
    | '-', [] => some (some (.custom (-minutes)))
    | _, _ => none

/-- A time and perhaps an offset that make up the whole text, on a given day. -/
def Datetime.readTime? (d : Date) (t : Text) : Option Datetime := do
  let (clock, t) ← Time.read? t
  return .moment d clock (← Offset.read? t)

/-- A date and perhaps a time, or a time, that make up the whole text. -/
def Datetime.read? (t : Text) : Option Datetime :=
  match Date.read? t with
  | some (d, []) => some (.date d)
  | some (d, c :: t) => if c == 'T' || c == 't' then Datetime.readTime? d t else none
  | none =>
    match Time.read? t with
    | some (clock, []) => some (.time clock)
    | _ => none

/-- A number padded to so many digits. -/
def padded (count n : Nat) : Text :=
  let ds := Text.ofNat n
  List.replicate (count - ds.length) '0' ++ ds

def Date.toText (d : Date) : Text :=
  padded 4 d.year ++ '-' :: padded 2 d.month ++ '-' :: padded 2 d.day

def Time.toText (t : Time) : Text :=
  padded 2 t.hour ++ ':' :: padded 2 t.minute ++ ':' :: padded 2 t.second ++
    (if t.nanosecond = 0 then [] else '.' :: Text.trimEndOf (· == '0') (padded 9 t.nanosecond))

def Offset.toText : Offset → Text
  | universal => ['Z']
  | custom minutes =>
    (if minutes < 0 then '-' else '+') :: padded 2 (minutes.natAbs / 60) ++ ':' ::
      padded 2 (minutes.natAbs % 60)

def Datetime.toText : Datetime → Text
  | date d => d.toText
  | time t => t.toText
  | moment d t o => d.toText ++ 'T' :: t.toText ++ (o.map Offset.toText).getD []

end ApiReference.Toml
