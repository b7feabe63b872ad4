import Highlighter.Data
import Highlighter.Toml.Basic
import Highlighter.Toml.Date

/-
  The parts of TOML that are not nested: blanks, comments,
  strings, keys, numbers and dates.

  Key definitions include:
    * `Toml.unifyBreaks`
    * `Toml.skipBlanks`
    * `Toml.endLine`
    * `Toml.skipLines`
    * `Toml.readString`
    * `Toml.readKeyPath`
    * `Toml.readNumber`
    * `Toml.readScalar`
-/

namespace Highlighter

namespace Toml

------------------------------------------------------------
-- Blanks and comments
------------------------------------------------------------

/- Spaces and tabs. -/
def isBlank (c : Char) : Bool := c == ' ' || c == '\t'

/- A text without the blanks at its start. -/
def skipBlanks (t : Text) : Text := t.dropWhile isBlank

/-
  A text with line feeds alone for line breaks. A carriage
  return may stand nowhere but before a line feed.
-/
def unifyBreaks : Text → Option Text
  | [] => some []
  | '\r' :: '\n' :: rest =>
      (unifyBreaks rest).map ('\n' :: ·)
  | c :: rest =>
      if c = '\r' then
        none
      else
        (unifyBreaks rest).map (c :: ·)

/- The text after a line break. -/
def lineBreak? (t : Text) : Option Text := expect '\n' t

/- A text without the comment it may start with. -/
def skipComment (t : Text) : Text :=
  if t.head? == some '#' then t.dropWhile isPlain else t

/-
  The text after the rest of a line on which nothing but
  blanks and a comment may stand.
-/
def endLine (t : Text) : Option Text :=
  match skipComment (skipBlanks t) with
  | [] => some []
  | rest => lineBreak? rest

/-
  The text after blanks, line breaks and lines ended by a
  comment. `fuel` bounds the lines.
-/
def skipLines : Nat → Text → Option Text
  | 0, _ => none
  | fuel + 1, t =>
      match skipBlanks t with
      | [] => some []
      | '#' :: rest =>
          match rest.dropWhile isPlain with
          | [] => some []
          | '\n' :: rest => skipLines fuel rest
          | _ => none
      | '\n' :: rest => skipLines fuel rest
      | rest => some rest

------------------------------------------------------------
-- Strings
------------------------------------------------------------

/- The character with a code point in hexadecimal digits. -/
def codePoint? (digits : Text) : Option Char := do
  let n ← digits.foldl
    (fun value c =>
      value.bind fun n => (Text.hexDigit? c).map (16 * n + ·))
    (some 0)
  if n.isValidChar then some (Char.ofNat n) else none

/- What one letter after a backslash stands for. -/
def escaped? : Char → Option Char
  | 'b' => some (Char.ofNat 0x08)
  | 't' => some '\t'
  | 'n' => some '\n'
  | 'f' => some (Char.ofNat 0x0C)
  | 'r' => some '\r'
  | '"' => some '"'
  | '\\' => some '\\'
  | _ => none

/- The character after a backslash and the text after it. -/
def readEscape : Text → Option (Char × Text)
  | 'u' :: rest =>
      if (rest.take 4).length = 4 then
        (codePoint? (rest.take 4)).map
          fun c => (c, rest.drop 4)
      else
        none
  | 'U' :: rest =>
      if (rest.take 8).length = 8 then
        (codePoint? (rest.take 8)).map
          fun c => (c, rest.drop 8)
      else
        none
  | e :: rest => (escaped? e).map fun c => (c, rest)
  | [] => none

/- Put a character in front of what was read. -/
def consRead (c : Char) (r : Option (Text × Text)) :
    Option (Text × Text) :=
  r.map fun (s, rest) => (c :: s, rest)

/-
  A string in quotation marks, given the text after the
  first one. `fuel` bounds its characters.
-/
def readBasic : Nat → Text → Option (Text × Text)
  | 0, _ => none
  | fuel + 1, t =>
      match t with
      | [] => none
      | '"' :: rest => some ([], rest)
      | '\\' :: rest =>
          match readEscape rest with
          | none => none
          | some (c, rest) => consRead c (readBasic fuel rest)
      | c :: rest =>
          if isPlain c then
            consRead c (readBasic fuel rest)
          else
            none

/- A string in apostrophes, which has no escapes. -/
def readLiteral : Text → Option (Text × Text)
  | [] => none
  | c :: rest =>
      if c = '\'' then
        some ([], rest)
      else if isPlain c then
        consRead c (readLiteral rest)
      else
        none

/-
  The text after a backslash at the end of a line: blanks
  and line breaks are skipped up to the next character.
-/
def joinLines? (t : Text) : Option Text :=
  (lineBreak? (skipBlanks t)).map fun rest =>
    rest.dropWhile fun c => isBlank c || c == '\n'

/-
  A string of many lines between three of the given quote,
  given the text after them. It may end in one or two quotes
  of its own. With `escapes`, a backslash escapes or joins
  lines. `fuel` bounds its characters.
-/
def readLong (quote : Char) (escapes : Bool) :
    Nat → Text → Option (Text × Text)
  | 0, _ => none
  | fuel + 1, t =>
      let quotes := (t.takeWhile (· == quote)).length
      if 3 ≤ quotes then
        let own := min (quotes - 3) 2
        some (List.replicate own quote, t.drop (own + 3))
      else
        match t with
        | [] => none
        | '\n' :: rest =>
            consRead '\n' (readLong quote escapes fuel rest)
        | c :: rest =>
            if escapes ∧ c = '\\' then
              match joinLines? rest with
              | some rest => readLong quote escapes fuel rest
              | none =>
                  match readEscape rest with
                  | none => none
                  | some (c, rest) =>
                      consRead c
                        (readLong quote escapes fuel rest)
            else if isPlain c then
              consRead c (readLong quote escapes fuel rest)
            else
              none

/- A line break right after the opening quotes is skipped. -/
def openLong (t : Text) : Text := (lineBreak? t).getD t

/- A string of any of the four forms. -/
def readString (t : Text) : Option (Text × Text) :=
  let fuel := t.length + 1
  match t with
  | '"' :: '"' :: '"' :: rest =>
      readLong '"' true fuel (openLong rest)
  | '"' :: rest => readBasic fuel rest
  | '\'' :: '\'' :: '\'' :: rest =>
      readLong '\'' false fuel (openLong rest)
  | '\'' :: rest => readLiteral rest
  | _ => none

------------------------------------------------------------
-- Keys
------------------------------------------------------------

/- One key, quoted or not. -/
def readKey (t : Text) : Option (String × Text) :=
  match t with
  | '"' :: rest =>
      (readBasic (t.length + 1) rest).map
        fun (s, rest) => (String.ofList s, rest)
  | '\'' :: rest =>
      (readLiteral rest).map
        fun (s, rest) => (String.ofList s, rest)
  | _ =>
      let key := t.takeWhile isBareKeyChar
      if key.isEmpty then
        none
      else
        some (String.ofList key, t.drop key.length)

/-
  Keys with dots between them and blanks around them: the
  path of all keys but the last, and the last key. `fuel`
  bounds the number of keys.
-/
def readKeyPath : Nat → Text →
    Option ((List String × String) × Text)
  | 0, _ => none
  | fuel + 1, t =>
      match readKey (skipBlanks t) with
      | none => none
      | some (key, rest) =>
          match skipBlanks rest with
          | '.' :: rest =>
              (readKeyPath fuel rest).map
                fun ((path, last), rest) =>
                  ((key :: path, last), rest)
          | rest => some (([], key), rest)

/- The number of keys that a path may have. -/
def pathLimit : Nat := 79

------------------------------------------------------------
-- Numbers
------------------------------------------------------------

/-
  Digits, between which single underscores may stand: the
  digits alone, and the text after them. There is at least
  one digit, and none of another base may follow.
-/
def readDigitRun (isDigit : Char → Bool) :
    Nat → Text → Option (Text × Text)
  | 0, _ => none
  | _ + 1, [] => none
  | fuel + 1, c :: rest =>
      if isDigit c then
        match rest with
        | '_' :: rest =>
            consRead c (readDigitRun isDigit fuel rest)
        | d :: _ =>
            if isDigit d then
              consRead c (readDigitRun isDigit fuel rest)
            else
              some ([c], rest)
        | [] => some ([c], rest)
      else
        none

/- Digits from the start of a text. -/
def readDigitsOf (isDigit : Char → Bool) (t : Text) :
    Option (Text × Text) :=
  readDigitRun isDigit (t.length + 1) t

/- The value of digits in a base. -/
def valueIn (base : Nat) (digits : Text) : Nat :=
  digits.foldl
    (fun n c => base * n + (Text.hexDigit? c).getD 0) 0

/- A whole number that fits into 64 bits with a sign. -/
def integer? (n : Int) : Option Data :=
  if fitsInteger n then some (Data.int n) else none

/- The whole part of a number: no zeros stand in front. -/
def readWhole (t : Text) : Option (Text × Text) :=
  match t with
  | '0' :: rest => some (['0'], rest)
  | _ => readDigitsOf Text.isAsciiDigit t

/- The exponent of a number, zero if there is none. -/
def readExponent (t : Text) : Option (Int × Text) :=
  match t with
  | c :: rest =>
      if c = 'e' ∨ c = 'E' then
        let negative := rest.head? == some '-'
        let rest :=
          if negative || rest.head? == some '+' then
            rest.drop 1
          else
            rest
        match readDigitsOf Text.isAsciiDigit rest with
        | none => none
        | some (digits, rest) =>
            let n : Int := valueIn 10 digits
            some (if negative then -n else n, rest)
      else
        some (0, t)
  | [] => some (0, t)

/-
  The least number whose nearest double is infinite: half a
  unit in the last place above the greatest double.
-/
def overflowLimit : Nat := Nat.pow 2 1024 - Nat.pow 2 970

/- Is `m` times ten to the power `e` at that limit? -/
def overflows (m : Nat) (e : Int) : Bool :=
  let size : Int := (Nat.toDigits 10 m).length + e
  if m = 0 ∨ size < 300 then
    false
  else if 400 < size then
    true
  else if 0 ≤ e then
    decide (overflowLimit ≤ m * Nat.pow 10 e.toNat)
  else
    decide (overflowLimit * Nat.pow 10 (-e).toNat ≤ m)

/-
  A decimal number. With a fraction or an exponent it is not
  whole, and it must not overflow unless it is negative.
-/
def readDecimal (negative : Bool) (t : Text) :
    Option (Data × Text) := do
  let (whole, rest) ← readWhole t
  let (fraction, rest) ←
    match rest with
    | '.' :: rest => readDigitsOf Text.isAsciiDigit rest
    | _ => some ([], rest)
  let (exponent, after) ← readExponent rest
  if fraction.isEmpty && after.length == rest.length then
    let n : Int := valueIn 10 whole
    let d ← integer? (if negative then -n else n)
    some (d, after)
  else
    let m := valueIn 10 (whole ++ fraction)
    if !negative && overflows m (exponent - fraction.length) then
      none
    else
      some (Data.real, after)

/- The text after an expected word. -/
def expectWord (word : String) (t : Text) : Option Text :=
  if word.toList.isPrefixOf t then
    some (t.drop word.length)
  else
    none

/- A number without its sign. -/
def readUnsigned (negative : Bool) (t : Text) :
    Option (Data × Text) :=
  match expectWord "inf" t, expectWord "nan" t with
  | some rest, _ => some (Data.real, rest)
  | none, some rest => some (Data.real, rest)
  | none, none => readDecimal negative t

/- A whole number in another base after its mark. -/
def readBased (base : Nat) (isDigit : Char → Bool) (t : Text) :
    Option (Data × Text) := do
  let (digits, rest) ← readDigitsOf isDigit t
  let d ← integer? (valueIn base digits)
  some (d, rest)

/- A number in any form. -/
def readNumber (t : Text) : Option (Data × Text) :=
  match t with
  | '+' :: rest => readUnsigned false rest
  | '-' :: rest => readUnsigned true rest
  | '0' :: 'x' :: rest =>
      readBased 16 (fun c => (Text.hexDigit? c).isSome) rest
  | '0' :: 'o' :: rest =>
      readBased 8 (fun c => '0' ≤ c && c ≤ '7') rest
  | '0' :: 'b' :: rest =>
      readBased 2 (fun c => c == '0' || c == '1') rest
  | _ => readUnsigned false t

------------------------------------------------------------
-- Scalars
------------------------------------------------------------

/- A value that is no array and no table. -/
def readScalar (t : Text) : Option (Data × Text) :=
  match t with
  | [] => none
  | c :: _ =>
      if c = '"' ∨ c = '\'' then
        (readString t).map fun (s, rest) =>
          (Data.text (String.ofList s), rest)
      else if c = 't' then
        (expectWord "true" t).map fun rest =>
          (Data.bool true, rest)
      else if c = 'f' then
        (expectWord "false" t).map fun rest =>
          (Data.bool false, rest)
      else if startsMoment t then
        (readMoment t).map fun (s, rest) =>
          (Data.map [(dateKey, Data.text (String.ofList s))],
            rest)
      else
        readNumber t

end Toml

end Highlighter
