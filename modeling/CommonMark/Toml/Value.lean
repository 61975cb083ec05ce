import CommonMark.CharacterReference

/-!
# TOML values

The values of a configuration file, and the scalars that are written without quotes: booleans, integers of 64
bits, floating-point numbers, dates and times.
-/

namespace CommonMark.Toml

open CharacterReference (isDecimal isHexadecimal value)

/-- A value. Numbers with a fraction, dates and times are kept as they are written. -/
inductive Value where
  | string (t : Text)
  | integer (n : Int)
  | float (written : Text)
  | boolean (b : Bool)
  | dateTime (written : Text)
  | array (items : List Value)
  /-- No key stands twice in a table. -/
  | table (entries : List (Text × Value))

/-- Keys with their values. -/
abbrev Table := List (Text × Value)

/-- What reads the table of a file, if the file is in the format (`toml::from_str`). -/
abbrev Reader : Type := Text → Option Table

/-- Digits of a kind, with single underscores between some of them, which are left out. -/
def digits? (isDigit : Char → Bool) (t : Text) : Option Text :=
  let groups := t.splitOn '_'
  if groups.all fun g => g ≠ [] && g.all isDigit then some groups.flatten else none

/-- Decimal digits that do not start with a zero unless that is all. -/
def decimal? (t : Text) : Option Text :=
  (digits? isDecimal t).filter fun ds => ds.length = 1 || ds.head? ≠ some '0'

/-- A text without its sign, and whether that was a minus. -/
def splitSign : Text → Bool × Text
  | '+' :: t => (false, t)
  | '-' :: t => (true, t)
  | t => (false, t)

/-- A number that fits into 64 bits with a sign. -/
def fitting? (negative : Bool) (n : Nat) : Option Int :=
  if negative then if n ≤ 0x8000000000000000 then some (-n) else none
  else if n < 0x8000000000000000 then some n else none

/-- An integer in decimal, hexadecimal, octal or binary digits; only a decimal one has a sign. -/
def integer? : Text → Option Int
  | '0' :: 'x' :: t => (digits? isHexadecimal t).bind fun ds => fitting? false (value 16 ds)
  | '0' :: 'o' :: t => (digits? (fun c => '0' ≤ c && c ≤ '7') t).bind fun ds => fitting? false (value 8 ds)
  | '0' :: 'b' :: t => (digits? (fun c => c = '0' || c = '1') t).bind fun ds => fitting? false (value 2 ds)
  | t =>
    let (negative, t) := splitSign t
    (decimal? t).bind fun ds => fitting? negative (value 10 ds)

/-- The least number that rounds to no finite number of 64 bits. -/
def overflowLimit : Nat := Nat.pow 2 1024 - Nat.pow 2 970

/-- Whether `digits` times a power of ten is finite as a number of 64 bits. The exact comparison is only made
near the limit, which has 309 digits. -/
def isFinite (digits : Text) (exponent : Int) : Bool :=
  let significant := digits.dropWhile (· = '0')
  let m := value 10 significant
  let size := significant.length + exponent
  m = 0 || decide (size < 300) ||
    (decide (size < 320) && decide (m * Nat.pow 10 exponent.toNat < overflowLimit * Nat.pow 10 (-exponent).toNat))

/-- The exponent that follows the letter `e`. -/
def exponent? (t : Text) : Option Int :=
  let (negative, t) := splitSign t
  (digits? isDecimal t).map fun ds => if negative then -(value 10 ds : Int) else value 10 ds

/-- Whether a text is a finite number with a fraction or an exponent, or one of the words for numbers that are
not finite. -/
def isFloat (t : Text) : Bool :=
  let t := (splitSign t).2
  t == "inf".toList || t == "nan".toList ||
    let mantissa := t.takeWhile fun c => c ≠ 'e' && c ≠ 'E'
    let whole := mantissa.takeWhile (· ≠ '.')
    let fraction? : Option Text :=
      if whole.length = mantissa.length then some []
      else digits? isDecimal (mantissa.drop (whole.length + 1))
    let exponent? : Option Int :=
      if mantissa.length = t.length then some 0 else exponent? (t.drop (mantissa.length + 1))
    match decimal? whole, fraction?, exponent? with
    | some ds, some fs, some e =>
      (fs ≠ [] || decide (mantissa.length < t.length)) && isFinite (ds ++ fs) (e - fs.length)
    | _, _, _ => false

/-- A number of so many digits, and the text that follows it. -/
def number? (count : Nat) (t : Text) : Option (Nat × Text) :=
  let ds := t.take count
  if ds.length = count && ds.all isDecimal then some (value 10 ds, t.drop count) else none

/-- The text after a character. -/
def after? (c : Char) : Text → Option Text
  | [] => none
  | d :: t => if d = c then some t else none

/-- Days of a month. -/
def daysOfMonth (year month : Nat) : Nat :=
  if month = 2 then if year % 4 = 0 && (year % 100 ≠ 0 || year % 400 = 0) then 29 else 28
  else if month = 4 || month = 6 || month = 9 || month = 11 then 30
  else 31

/-- What follows a date. -/
def afterDate? (t : Text) : Option Text := do
  let (year, t) ← number? 4 t
  let (month, t) ← number? 2 (← after? '-' t)
  let (day, t) ← number? 2 (← after? '-' t)
  if 1 ≤ month && month ≤ 12 && 1 ≤ day && day ≤ daysOfMonth year month then some t else none

/-- What follows a time: hours and minutes, and if they are given, seconds with a fraction. -/
def afterTime? (t : Text) : Option Text := do
  let (hour, t) ← number? 2 t
  let (minute, t) ← number? 2 (← after? ':' t)
  if 23 < hour || 59 < minute then none
  match t with
  | ':' :: t =>
    let (second, t) ← number? 2 t
    if 60 < second then none
    match t with
    | '.' :: f => if f.head?.any isDecimal then some (f.dropWhile isDecimal) else none
    | t => some t
  | t => some t

/-- Whether a text is how far a local time is from the universal one. -/
def isOffset : Text → Bool
  | ['Z'] | ['z'] => true
  | sign :: t =>
    (sign = '+' || sign = '-') &&
      (do let (hour, t) ← number? 2 t
          let (minute, t) ← number? 2 (← after? ':' t)
          if t = [] && hour ≤ 23 && minute ≤ 59 then some () else none).isSome
  | [] => false

/-- Whether a text is a date, a time, or a date and a time, perhaps with an offset. -/
def isDateTime (t : Text) : Bool :=
  match afterDate? t with
  | some [] => true
  | some (c :: t) =>
    (c = 'T' || c = 't' || c = ' ') &&
      match afterTime? t with
      | some [] => true
      | some t => isOffset t
      | none => false
  | none => afterTime? t = some []

/-- The value that is written without quotes. -/
def scalar? (t : Text) : Option Value :=
  if t = "true".toList then some (.boolean true)
  else if t = "false".toList then some (.boolean false)
  else
    match integer? t with
    | some n => some (.integer n)
    | none =>
      if isFloat t then some (.float t) else if isDateTime t then some (.dateTime t) else none

end CommonMark.Toml
