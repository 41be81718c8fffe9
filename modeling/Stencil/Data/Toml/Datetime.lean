import Stencil.Text

/-! Dates and times as TOML writes them. -/

namespace Stencil.Toml.Datetime

/-- The value of exactly two digits. -/
def twoDigits : Text → Option (Nat × Text)
  | a :: b :: rest => (Text.toNat? 10 [a, b]).map (·, rest)
  | _ => none

def isLeap (year : Nat) : Bool := year % 4 == 0 && (year % 100 != 0 || year % 400 == 0)

def daysIn (year month : Nat) : Nat :=
  if month == 2 then if isLeap year then 29 else 28
  else if [4, 6, 9, 11].contains month then 30
  else 31

/-- A date at the start of a text: the text of the date and what follows it. -/
def date : Text → Option (Text × Text)
  | a :: b :: c :: d :: '-' :: rest => do
    let year ← Text.toNat? 10 [a, b, c, d]
    let (month, rest) ← twoDigits rest
    let rest ← "-".toList.isPrefixOf? rest
    let (day, rest) ← twoDigits rest
    if 1 ≤ month && month ≤ 12 && 1 ≤ day && day ≤ daysIn year month then
      some ([a, b, c, d] ++ '-' :: Text.pad month ++ '-' :: Text.pad day, rest)
    else none
  | _ => none

/-- The fraction of a second, cut to nanoseconds, without its final zeros. -/
def fraction (digits : Text) : Text :=
  match ((digits.take 9).reverse.dropWhile (· == '0')).reverse with
  | [] => ['0']
  | kept => kept

/-- A time at the start of a text; the seconds may be left out. -/
def time (t : Text) : Option (Text × Text) := do
  let (hour, rest) ← twoDigits t
  let rest ← ":".toList.isPrefixOf? rest
  let (minute, rest) ← twoDigits rest
  if 24 ≤ hour || 60 ≤ minute then none
  else
    let short := Text.pad hour ++ ':' :: Text.pad minute
    match rest with
    | ':' :: rest =>
      let (second, rest) ← twoDigits rest
      if 60 < second then none
      else
        let long := short ++ ':' :: Text.pad second
        match rest with
        | '.' :: rest =>
          let digits := rest.takeWhile Char.isDigit
          if digits.isEmpty then none
          else some (long ++ '.' :: fraction digits, rest.dropWhile Char.isDigit)
        | rest => some (long, rest)
    | rest => some (short, rest)

/-- The distance from universal time, all that may follow a date with a time. -/
def offset : Text → Option Text
  | [] => some []
  | ['Z'] => some ['Z']
  | ['z'] => some ['Z']
  | sign :: rest => do
    let (hours, rest) ← twoDigits rest
    let rest ← ":".toList.isPrefixOf? rest
    let (minutes, rest) ← twoDigits rest
    let shown := if hours = 0 && minutes = 0 then '+' else sign
    if (sign = '+' || sign = '-') && rest.isEmpty && hours < 24 && minutes < 60 then
      some (shown :: Text.pad hours ++ ':' :: Text.pad minutes)
    else none

/-- The normal text of a date, a time, or both with or without an offset. -/
def read (t : Text) : Option Text :=
  match date t with
  | some (day, []) => some day
  | some (day, mark :: rest) => do
    let (clock, rest) ← time rest
    let zone ← offset rest
    if mark = 'T' || mark = 't' || mark = ' ' then some (day ++ 'T' :: clock ++ zone) else none
  | none =>
    match time t with
    | some (clock, []) => some clock
    | _ => none

end Stencil.Toml.Datetime
