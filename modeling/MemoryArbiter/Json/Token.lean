import MemoryArbiter.Json.Basic
import MemoryArbiter.Text.Integer

/-! # JSON tokens

`Json.tokens?` takes a text apart into tokens, one character at a time: the scanner is a state
(`Scan`) and a step (`Scan.step`), and a text is scanned by folding the step over it.
-/

namespace MemoryArbiter.Json

inductive Token
  | openBrace
  | closeBrace
  | openBracket
  | closeBracket
  | colon
  | comma
  | null
  | bool (value : Bool)
  | number (value : JsonNumber)
  | text (value : Option String)
  deriving DecidableEq, Repr, Inhabited

/-! ### Strings -/

/-- The part of a string that has been read, in reverse.  `high` is the first half of a surrogate
pair that waits for the second; `sound` is lost with a half that has no partner. -/
structure Quote where
  chars : List Char := []
  high : Option Nat := none
  sound : Bool := true
  deriving DecidableEq, Repr, Inhabited

/-- Give up waiting for the second half of a pair. -/
def Quote.settle (q : Quote) : Quote :=
  if q.high.isSome then { q with high := none, sound := false } else q

def Quote.push (q : Quote) (c : Char) : Quote :=
  let q := q.settle
  { q with chars := c :: q.chars }

def isHighSurrogate (unit : Nat) : Bool := 0xD800 ≤ unit && unit < 0xDC00

def isLowSurrogate (unit : Nat) : Bool := 0xDC00 ≤ unit && unit < 0xE000

/-- The character of a surrogate pair. -/
def pairChar (high low : Nat) : Char :=
  Char.ofNat (0x10000 + (high - 0xD800) * 0x400 + (low - 0xDC00))

def Quote.pushUnit (q : Quote) (unit : Nat) : Quote :=
  if isLowSurrogate unit then
    match q.high with
    | some high => { q with chars := pairChar high unit :: q.chars, high := none }
    | none => { q with sound := false }
  else if isHighSurrogate unit then { q.settle with high := some unit }
  else q.push (Char.ofNat unit)

def Quote.text (q : Quote) : Option String :=
  let q := q.settle
  if q.sound then some (String.ofList q.chars.reverse) else none

def escaped? : Char → Option Char
  | '"' => some '"'
  | '\\' => some '\\'
  | '/' => some '/'
  | 'b' => some '\x08'
  | 'f' => some '\x0c'
  | 'n' => some '\n'
  | 'r' => some '\r'
  | 't' => some '\t'
  | _ => none

/-! ### Numbers and words -/

def isNumberChar (c : Char) : Bool :=
  Text.isDigit c || c == '+' || c == '-' || c == '.' || c == 'e' || c == 'E'

/-- The exponent part of a number; no text is no exponent. -/
def exponentPart? : List Char → Option (Option (Bool × List Char))
  | [] => some none
  | c :: cs =>
    if c = 'e' || c = 'E' then
      let (negative, digits) := match cs with
        | '-' :: ds => (true, ds)
        | '+' :: ds => (false, ds)
        | ds => (false, ds)
      if !digits.isEmpty && digits.all Text.isDigit then some (some (negative, digits)) else none
    else none

/-- The number without its sign: no zero in front of other digits, digits behind a point. -/
def unsigned? (negative : Bool) (cs : List Char) : Option JsonNumber :=
  let whole := cs.takeWhile Text.isDigit
  let rest := cs.dropWhile Text.isDigit
  if whole.isEmpty || (whole.head? == some '0' && whole.length > 1) then none
  else
    match rest with
    | '.' :: ds =>
      let fraction := ds.takeWhile Text.isDigit
      if fraction.isEmpty then none
      else
        (exponentPart? (ds.dropWhile Text.isDigit)).map fun exponent =>
          { negative := negative, whole := whole, fraction := fraction, exponent := exponent }
    | _ =>
      (exponentPart? rest).map fun exponent =>
        { negative := negative, whole := whole, exponent := exponent }

def number? : List Char → Option JsonNumber
  | '-' :: cs => unsigned? true cs
  | cs => unsigned? false cs

def word? (cs : List Char) : Option Token :=
  if cs = ['n', 'u', 'l', 'l'] then some .null
  else if cs = ['t', 'r', 'u', 'e'] then some (.bool true)
  else if cs = ['f', 'a', 'l', 's', 'e'] then some (.bool false)
  else none

def isWordChar (c : Char) : Bool := 'a' ≤ c && c ≤ 'z'

/-! ### The scanner -/

/-- What the scanner is in the middle of; what it has read of it is kept in reverse. -/
inductive Mode
  | between
  | word (read : List Char)
  | number (read : List Char)
  | quote (read : Quote)
  /-- Behind a backslash. -/
  | escape (read : Quote)
  /-- In the digits of a code unit: how many are left, and the value of those read. -/
  | unit (read : Quote) (left : Nat) (value : Nat)
  deriving DecidableEq, Repr, Inhabited

/-- The mode, and the tokens that are complete, in reverse. -/
structure Scan where
  mode : Mode := .between
  tokens : List Token := []
  deriving DecidableEq, Repr, Inhabited

def isJsonBlank (c : Char) : Bool := c == ' ' || c == '\n' || c == '\t' || c == '\r'

def punctuation? : Char → Option Token
  | '{' => some .openBrace
  | '}' => some .closeBrace
  | '[' => some .openBracket
  | ']' => some .closeBracket
  | ':' => some .colon
  | ',' => some .comma
  | _ => none

/-- A character between two tokens. -/
def Scan.begin? (tokens : List Token) (c : Char) : Option Scan :=
  if isJsonBlank c then some { tokens := tokens }
  else if c = '"' then some { mode := .quote {}, tokens := tokens }
  else if c = '-' || Text.isDigit c then some { mode := .number [c], tokens := tokens }
  else if isWordChar c then some { mode := .word [c], tokens := tokens }
  else (punctuation? c).map fun t => { tokens := t :: tokens }

def Scan.step (s : Scan) (c : Char) : Option Scan :=
  match s.mode with
  | .between => Scan.begin? s.tokens c
  | .word read =>
    if isWordChar c then some { s with mode := .word (c :: read) }
    else (word? read.reverse).bind fun t => Scan.begin? (t :: s.tokens) c
  | .number read =>
    if isNumberChar c then some { s with mode := .number (c :: read) }
    else (number? read.reverse).bind fun n => Scan.begin? (.number n :: s.tokens) c
  | .quote q =>
    if c = '"' then some { tokens := .text q.text :: s.tokens }
    else if c = '\\' then some { s with mode := .escape q }
    else if c.toNat < 0x20 then none
    else some { s with mode := .quote (q.push c) }
  | .escape q =>
    if c = 'u' then some { s with mode := .unit q 4 0 }
    else (escaped? c).map fun e => { s with mode := .quote (q.push e) }
  | .unit q left value =>
    (Text.hexDigit? c).map fun d =>
      let value := 16 * value + d
      if left ≤ 1 then { s with mode := .quote (q.pushUnit value) }
      else { s with mode := .unit q (left - 1) value }

/-- The tokens at the end of the text; none if it ends within a string. -/
def Scan.finish (s : Scan) : Option (List Token) :=
  match s.mode with
  | .between => some s.tokens.reverse
  | .word read => (word? read.reverse).map fun t => (t :: s.tokens).reverse
  | .number read => (number? read.reverse).map fun n => (.number n :: s.tokens).reverse
  | _ => none

def tokens? (cs : List Char) : Option (List Token) :=
  (cs.foldlM Scan.step {}).bind Scan.finish

end MemoryArbiter.Json
