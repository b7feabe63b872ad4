import Highlighter.Text.Digit
import Highlighter.Text.Numeral

/-
  Dates and times of day in TOML.

  Key definitions include:
    * `Toml.readDate`
    * `Toml.readTime`
    * `Toml.readOffset`
    * `Toml.readMoment`
-/

namespace Highlighter

namespace Toml

/- A number of exactly `width` digits within bounds. -/
def readDigits (width low high : Nat) (t : Text) :
    Option (Nat × Text) :=
  let digits := t.take width
  if digits.length = width ∧ digits.all Text.isAsciiDigit then
    let n := digits.foldl (fun n c => 10 * n + (c.toNat - 48)) 0
    if low ≤ n ∧ n ≤ high then
      some (n, t.drop width)
    else
      none
  else
    none

/- The text after an expected character. -/
def expect (c : Char) : Text → Option Text
  | [] => none
  | d :: rest => if d = c then some rest else none

/- A number written with at least `width` digits. -/
def padded (width n : Nat) : Text :=
  let digits := Text.decimal n
  List.replicate (width - digits.length) '0' ++ digits

/- The number of days of a month. -/
def daysOf (year month : Nat) : Nat :=
  let leap :=
    year % 4 = 0 ∧ (year % 100 ≠ 0 ∨ year % 400 = 0)
  if month = 2 then
    if leap then 29 else 28
  else if month = 4 ∨ month = 6 ∨ month = 9 ∨ month = 11 then
    30
  else
    31

/- A date of the calendar, in its one written form. -/
def readDate (t : Text) : Option (Text × Text) := do
  let (year, rest) ← readDigits 4 0 9999 t
  let rest ← expect '-' rest
  let (month, rest) ← readDigits 2 1 12 rest
  let rest ← expect '-' rest
  let (day, rest) ← readDigits 2 1 31 rest
  if day ≤ daysOf year month then
    some
      (padded 4 year ++ '-' :: padded 2 month ++
        '-' :: padded 2 day, rest)
  else
    none

/-
  The fraction of a second: nine digits of it count, and
  zeros at its end do not.
-/
def readFraction (t : Text) : Option (Text × Text) :=
  match t with
  | '.' :: rest =>
      let digits := rest.takeWhile Text.isAsciiDigit
      if digits.isEmpty then
        none
      else
        let kept :=
          ((digits.take 9).reverse.dropWhile (· == '0')).reverse
        some
          (if kept.isEmpty then [] else '.' :: kept,
            rest.drop digits.length)
  | _ => some ([], t)

/- A time of day, in its one written form. -/
def readTime (t : Text) : Option (Text × Text) := do
  let (hour, rest) ← readDigits 2 0 23 t
  let rest ← expect ':' rest
  let (minute, rest) ← readDigits 2 0 59 rest
  let rest ← expect ':' rest
  let (second, rest) ← readDigits 2 0 60 rest
  let (fraction, rest) ← readFraction rest
  some
    (padded 2 hour ++ ':' :: padded 2 minute ++
      ':' :: padded 2 second ++ fraction, rest)

/- The offset of a time of day, or none at all. -/
def readOffset (t : Text) : Option (Text × Text) :=
  let signed := fun (sign : Char) (rest : Text) => do
    let (hour, rest) ← readDigits 2 0 23 rest
    let rest ← expect ':' rest
    let (minute, rest) ← readDigits 2 0 59 rest
    let sign := if hour = 0 ∧ minute = 0 then '+' else sign
    some (sign :: padded 2 hour ++ ':' :: padded 2 minute, rest)
  match t with
  | 'Z' :: rest => some (['Z'], rest)
  | 'z' :: rest => some (['Z'], rest)
  | '+' :: rest => signed '+' rest
  | '-' :: rest => signed '-' rest
  | _ => some ([], t)

/- The digits that a text starts with. -/
def leadingDigits (t : Text) : Nat :=
  (t.takeWhile Text.isAsciiDigit).length

/- Does a text start like a date or a time of day? -/
def startsMoment (t : Text) : Bool :=
  (leadingDigits t == 4 && t[4]? == some '-') ||
    (leadingDigits t == 2 && t[2]? == some ':')

/-
  A date, a time of day, or both with a delimiter between
  them and perhaps an offset after them.
-/
def readMoment (t : Text) : Option (Text × Text) :=
  if leadingDigits t = 2 then
    readTime t
  else do
    let (date, rest) ← readDate t
    match rest with
    | [] => some (date, [])
    | c :: after =>
        if (c = 'T' ∨ c = 't' ∨ c = ' ') ∧
            leadingDigits after ≥ 2 ∧ after[2]? = some ':' then do
          let (time, rest) ← readTime after
          let (offset, rest) ← readOffset rest
          some (date ++ 'T' :: time ++ offset, rest)
        else
          some (date, rest)

end Toml

end Highlighter
