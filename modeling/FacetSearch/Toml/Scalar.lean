import FacetSearch.Text.Reader
import FacetSearch.Toml.Basic

/-!
TOML numbers and moments. Underscores may stand between two digits; integers have at most 128 bits;
a number too large for floating point is refused.
-/

set_option autoImplicit false

namespace FacetSearch.Toml

/-- The digits of a number without the underscores between them. -/
def ungroup (isDigit : Char → Bool) : List Char → Option (List Char)
  | [] => none
  | c :: rest =>
    if !isDigit c then none
    else
      match rest with
      | [] => some [c]
      | '_' :: after => (ungroup isDigit after).map (c :: ·)
      | next :: after => (ungroup isDigit (next :: after)).map (c :: ·)

def isBinaryDigit (c : Char) : Bool := c == '0' || c == '1'

def isOctalDigit (c : Char) : Bool := '0' ≤ c && c ≤ '7'

def isHexDigit (c : Char) : Bool := (Text.hexDigit? c).isSome

/-- Whether a number is negative, and its text without the sign. -/
def splitSign : List Char → Bool × List Char
  | '-' :: rest => (true, rest)
  | '+' :: rest => (false, rest)
  | text => (false, text)

/-- Digits in base ten of which the first is no superfluous zero. -/
def wholeDigits? (text : List Char) : Option (List Char) := do
  let digits ← ungroup Char.isDigit text
  if digits.head? = some '0' && digits.length ≠ 1 then none else some digits

/-- The integer that a text writes, of any size. -/
def unbounded? : List Char → Option Int
  | '0' :: 'x' :: rest => (ungroup isHexDigit rest).map fun digits => Text.ofDigits 16 digits
  | '0' :: 'o' :: rest => (ungroup isOctalDigit rest).map fun digits => Text.ofDigits 8 digits
  | '0' :: 'b' :: rest => (ungroup isBinaryDigit rest).map fun digits => Text.ofDigits 2 digits
  | text => do
    let (negative, text) := splitSign text
    let n : Int := Text.ofDigits 10 (← wholeDigits? text)
    return if negative then -n else n

def integer? (text : List Char) : Option Toml := do
  let n ← unbounded? text
  if -Int.pow 2 127 ≤ n ∧ n < Int.pow 2 128 then some (integer n) else none

def marksExponent (c : Char) : Bool := c == 'e' || c == 'E'

/-- The exponent behind its letter; an empty text has none. -/
def exponent? : List Char → Option Int
  | [] => some 0
  | _ :: text => do
    let (negative, text) := splitSign text
    let n : Int := Text.ofDigits 10 (← ungroup Char.isDigit text)
    return if negative then -n else n

/-- The places behind their point; an empty text has none. -/
def places? : List Char → Option (List Char)
  | [] => some []
  | '.' :: text => ungroup Char.isDigit text
  | _ => none

/-- The number that a text without sign writes by its digits. -/
def decimal? (negative : Bool) (text : List Char) : Option Binary := do
  let number := text.takeWhile (!marksExponent ·)
  let whole ← wholeDigits? (number.takeWhile (· != '.'))
  let places ← places? (number.dropWhile (· != '.'))
  let exponent ← exponent? (text.dropWhile (!marksExponent ·))
  let value := Binary.ofDecimal .double negative (Text.ofDigits 10 (whole ++ places))
    (exponent - places.length)
  if value.isFinite then some value else none

/-- Characters that a number has only if it is a floating-point number. -/
def marksFloat (c : Char) : Bool := c == '.' || marksExponent c

def float? (text : List Char) : Option Toml :=
  let (negative, digits) := splitSign text
  if digits = ['i', 'n', 'f'] then some (float (.infinite negative))
  else if digits = ['n', 'a', 'n'] then some (float .undefined)
  else if digits.any marksFloat then (decimal? negative digits).map float
  else none

/-- The number of a run of exactly so many digits. -/
def fixed? (width : Nat) (text : List Char) : Option Nat :=
  if text.length = width && text.all Char.isDigit then some (Text.ofDigits 10 text) else none

def isLeapYear (year : Nat) : Bool := year % 4 == 0 && (year % 100 != 0 || year % 400 == 0)

/-- How many days a month has; there are twelve of them. -/
def daysInMonth (year month : Nat) : Nat :=
  if month = 2 then (if isLeapYear year then 29 else 28)
  else if [4, 6, 9, 11].contains month then 30
  else if 1 ≤ month ∧ month ≤ 12 then 31
  else 0

def isDate : List Char → Bool
  | [y1, y2, y3, y4, '-', m1, m2, '-', d1, d2] =>
    match fixed? 4 [y1, y2, y3, y4], fixed? 2 [m1, m2], fixed? 2 [d1, d2] with
    | some year, some month, some day => 1 ≤ day && day ≤ daysInMonth year month
    | _, _, _ => false
  | _ => false

/-- Whether two digits write a number up to a limit. -/
def upTo (limit : Nat) (first second : Char) : Bool :=
  match fixed? 2 [first, second] with
  | some n => n ≤ limit
  | none => false

/-- Whether a text is what may follow the minutes of a time: seconds and fractions of them. -/
def isSeconds : List Char → Bool
  | [] => true
  | [':', s1, s2] => upTo 60 s1 s2
  | ':' :: s1 :: s2 :: '.' :: fraction =>
      upTo 60 s1 s2 && !fraction.isEmpty && fraction.all Char.isDigit
  | _ => false

def isTime : List Char → Bool
  | h1 :: h2 :: ':' :: m1 :: m2 :: seconds => upTo 23 h1 h2 && upTo 59 m1 m2 && isSeconds seconds
  | _ => false

/-- Whether a text is a distance from universal time. -/
def isOffset : List Char → Bool
  | ['Z'] | ['z'] => true
  | [sign, h1, h2, ':', m1, m2] => (sign == '+' || sign == '-') && upTo 23 h1 h2 && upTo 59 m1 m2
  | _ => false

def isTimeChar (c : Char) : Bool := c.isDigit || c == ':' || c == '.'

/-- Whether a text is a time of day, with or without a distance from universal time. -/
def isTimeWithOffset (text : List Char) : Bool :=
  let offset := text.dropWhile isTimeChar
  isTime (text.takeWhile isTimeChar) && (offset.isEmpty || isOffset offset)

/-- The moment that a text without blanks writes. -/
def moment? (text : List Char) : Option Toml :=
  if isDate text || isTime text then some (moment (String.ofList text))
  else
    match text.drop 10 with
    | separator :: time =>
      if isDate (text.take 10) && (separator == 'T' || separator == 't') &&
        isTimeWithOffset time then
        some (moment (String.ofList (text.take 10 ++ 'T' :: time.map Char.toUpper)))
      else none
    | [] => none

/-- The value that a run of characters without quotes and brackets writes. -/
def scalar? (text : List Char) : Option Toml :=
  if text = ['t', 'r', 'u', 'e'] then some (boolean true)
  else if text = ['f', 'a', 'l', 's', 'e'] then some (boolean false)
  else (integer? text).orElse fun _ => (float? text).orElse fun _ => moment? text

end FacetSearch.Toml
