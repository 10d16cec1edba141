import MemoryArbiter.Binary64.Reading
import MemoryArbiter.Toml.Basic

/-! # Numbers, truth values and times in TOML

A value that does not begin with a mark or a bracket is a word.  A single underscore may stand
between two digits of a number.  Integers have 64 bits, and times are checked.
-/

namespace MemoryArbiter.Toml

open MemoryArbiter.Text

/-! ### Digits -/

/-- Digits of the given base, without the single underscores between them. -/
def grouped? (base : Nat) : List Char → Option (List Char)
  | [] => none
  | [c] => if (hexDigit? c).any (· < base) then some [c] else none
  | c :: '_' :: rest =>
    if (hexDigit? c).any (· < base) then (grouped? base rest).map (c :: ·) else none
  | c :: rest => if (hexDigit? c).any (· < base) then (grouped? base rest).map (c :: ·) else none

def baseValue (base : Nat) (cs : List Char) : Nat :=
  cs.foldl (fun n c => n * base + (hexDigit? c).getD 0) 0

/-- An optional sign, and what follows it. -/
def splitSign : List Char → Bool × List Char
  | '-' :: cs => (true, cs)
  | '+' :: cs => (false, cs)
  | cs => (false, cs)

/-- The digits of a decimal integer: no zero stands before another digit. -/
def decimal? (cs : List Char) : Option (List Char) :=
  if cs.head? = some '0' && 1 < cs.length then none else grouped? 10 cs

/-! ### Numbers -/

/-- An integer of 64 bits. -/
def inRange? (i : Int) : Option Toml :=
  if -9223372036854775808 ≤ i && i ≤ 9223372036854775807 then some (.integer i) else none

def integer? (cs : List Char) : Option Toml :=
  match cs with
  | '0' :: 'x' :: ds => (grouped? 16 ds).bind fun ds => inRange? (baseValue 16 ds)
  | '0' :: 'o' :: ds => (grouped? 8 ds).bind fun ds => inRange? (baseValue 8 ds)
  | '0' :: 'b' :: ds => (grouped? 2 ds).bind fun ds => inRange? (baseValue 2 ds)
  | _ =>
    let (negative, ds) := splitSign cs
    (decimal? ds).bind fun ds =>
      let n : Int := baseValue 10 ds
      inRange? (if negative then -n else n)

def isExponentMark (c : Char) : Bool := c = 'e' || c = 'E'

/-- An exponent, as plain digits with sign; no text is no exponent. -/
def exponent? : List Char → Option (List Char)
  | [] => some []
  | _ :: cs =>
    let (negative, ds) := splitSign cs
    (grouped? 10 ds).map fun ds => 'e' :: (if negative then '-' :: ds else ds)

/-- The part behind the digits before the point: a point and digits, an exponent, or both. -/
def fraction? : List Char → Option (List Char)
  | '.' :: cs => do
    let digits ← grouped? 10 (cs.takeWhile fun c => !isExponentMark c)
    let exponent ← exponent? (cs.dropWhile fun c => !isExponentMark c)
    return '.' :: digits ++ exponent
  | c :: cs => if isExponentMark c then exponent? (c :: cs) else none
  | [] => none

/-- A number with a point or an exponent.  One that is too large is refused, unless it is
negative. -/
def decimalReal? (cs : List Char) : Option Toml :=
  let (negative, ds) := splitSign cs
  let inWhole (c : Char) : Bool := c != '.' && !isExponentMark c
  do
    let whole ← decimal? (ds.takeWhile inWhole)
    let tail ← fraction? (ds.dropWhile inWhole)
    let x ← Binary64.read? ((if negative then ['-'] else []) ++ whole ++ tail)
    if x = .infinity false then none else some (.real x)

/-- An infinity or NaN by name. -/
def namedReal? (cs : List Char) : Option Toml :=
  let (negative, name) := splitSign cs
  if name = ['i', 'n', 'f'] then some (.real (.infinity negative))
  else if name = ['n', 'a', 'n'] then some (.real .nan)
  else none

/-! ### Times -/

def fixedWidth? (width : Nat) (cs : List Char) : Option Nat :=
  if cs.length = width then digits? cs else none

def isLeapYear (year : Nat) : Bool := (year % 4 = 0 && year % 100 != 0) || year % 400 = 0

def daysOf (year month : Nat) : Nat :=
  if month = 2 then if isLeapYear year then 29 else 28
  else if month = 4 || month = 6 || month = 9 || month = 11 then 30
  else 31

/-- A date such as `1979-05-27`. -/
def isDate (cs : List Char) : Bool :=
  match cs.drop 4 with
  | '-' :: rest =>
    match rest.drop 2 with
    | '-' :: days =>
      match fixedWidth? 4 (cs.take 4), fixedWidth? 2 (rest.take 2), fixedWidth? 2 days with
      | some year, some month, some day =>
        1 ≤ month && month ≤ 12 && 1 ≤ day && day ≤ daysOf year month
      | _, _, _ => false
    | _ => false
  | _ => false

/-- Hours and minutes such as `07:32`. -/
def isHourMinute (cs : List Char) : Bool :=
  match cs.drop 2 with
  | ':' :: minutes =>
    (fixedWidth? 2 (cs.take 2)).any (· ≤ 23) && (fixedWidth? 2 minutes).any (· ≤ 59)
  | _ => false

/-- The seconds, with or without a fraction. -/
def isSeconds (cs : List Char) : Bool :=
  (fixedWidth? 2 (cs.take 2)).any (· ≤ 60) &&
    match cs.drop 2 with
    | [] => true
    | '.' :: ds => (digits? ds).isSome
    | _ => false

/-- A time of day such as `07:32:00.5`. -/
def isClock (cs : List Char) : Bool :=
  isHourMinute (cs.take 5) &&
    match cs.drop 5 with
    | ':' :: seconds => isSeconds seconds
    | _ => false

/-- A time of day with or without an offset. -/
def isZonedClock (cs : List Char) : Bool :=
  let isOffsetMark (c : Char) : Bool := c = 'Z' || c = 'z' || c = '+' || c = '-'
  isClock (cs.takeWhile fun c => !isOffsetMark c) &&
    match cs.dropWhile fun c => !isOffsetMark c with
    | [] => true
    | ['Z'] => true
    | ['z'] => true
    | c :: offset => (c = '+' || c = '-') && isHourMinute offset

def time? (cs : List Char) : Option Toml :=
  let date := cs.take 10
  let known :=
    match cs.drop 10 with
    | [] => isDate date || isClock cs
    | c :: clock =>
      (isDate date && (c = 'T' || c = 't' || c = ' ') && isZonedClock clock) || isClock cs
  if known then some (.time (String.ofList cs)) else none

/-! ### Words -/

/-- The characters that end a word. -/
def endsWord (c : Char) : Bool :=
  isGap c || c = '\n' || c = '#' || c = ',' || c = ']' || c = '\x7d'

def word? (cs : List Char) : Option Toml :=
  if cs = ['t', 'r', 'u', 'e'] then some (.bool true)
  else if cs = ['f', 'a', 'l', 's', 'e'] then some (.bool false)
  else time? cs <|> decimalReal? cs <|> namedReal? cs <|> integer? cs

/-- The word at the start of a text, and what follows it.  A blank and a digit behind a date go on
with its time of day. -/
def splitWord (cs : List Char) : List Char × List Char :=
  let word := cs.takeWhile fun c => !endsWord c
  match cs.dropWhile fun c => !endsWord c with
  | ' ' :: d :: rest =>
    if isDate word && isDigit d then
      (word ++ ' ' :: (d :: rest).takeWhile (fun c => !endsWord c),
        (d :: rest).dropWhile fun c => !endsWord c)
    else (word, ' ' :: d :: rest)
  | rest => (word, rest)

end MemoryArbiter.Toml
