import MemoryArbiter.Toml.Basic
import MemoryArbiter.Text.Integer

/-! # Quoted text in TOML

A text stands between single or double marks, one or three at each end.  Only double marks have
escapes, only three marks allow line ends, and up to two marks may stand next to the closing three.
`Quoted.body` reads up to the end of the closing marks, one character at a time; what a character
means depends on the `Phase`.  Line ends are taken to be single line feeds.
-/

namespace MemoryArbiter.Toml

structure Quoting where
  mark : Char
  /-- Three marks at each end. -/
  long : Bool
  deriving DecidableEq, Repr, Inhabited

namespace Quoted

inductive Phase
  | plain
  /-- `n` marks in a row, in a long text. -/
  | marks (n : Nat)
  /-- Behind a backslash. -/
  | escape
  /-- Within the digits of an escape, of which `left` are still to come. -/
  | code (left value : Nat)
  /-- Behind a backslash at the end of a line, where blanks and line ends are dropped; `crossed`
  once the line end has been met. -/
  | joining (crossed : Bool)
  deriving DecidableEq, Repr, Inhabited

/-- What becomes of one character. -/
inductive Step
  | keep (c : Char)
  | enter (phase : Phase)
  | close
  | refuse
  deriving DecidableEq, Repr, Inhabited

def plainStep (q : Quoting) (c : Char) : Step :=
  if c = q.mark then if q.long then .enter (.marks 1) else .close
  else if c = '\\' && q.mark = '"' then .enter .escape
  else if c = '\n' then if q.long then .keep c else .refuse
  else if isPlain c then .keep c
  else .refuse

/-- The characters with a letter of their own behind a backslash. -/
def letters : List (Char × Char) :=
  [('b', '\x08'), ('t', '\t'), ('n', '\n'), ('f', '\x0c'), ('r', '\r'), ('"', '"'), ('\\', '\\')]

def escapeStep (q : Quoting) (c : Char) : Step :=
  match letters.lookup c with
  | some d => .keep d
  | none =>
    if c = 'u' then .enter (.code 4 0)
    else if c = 'U' then .enter (.code 8 0)
    else if q.long && c = '\n' then .enter (.joining true)
    else if q.long && isGap c then .enter (.joining false)
    else .refuse

def joiningStep (q : Quoting) (crossed : Bool) (c : Char) : Step :=
  if c = '\n' then .enter (.joining true)
  else if isGap c then .enter (.joining crossed)
  else if crossed then plainStep q c
  else .refuse

/-- A digit of an escape; the last one completes a character, unless its number names none. -/
def codeStep (left value : Nat) (c : Char) : Step :=
  match Text.hexDigit? c with
  | none => .refuse
  | some d =>
    let value := value * 16 + d
    if 1 < left then .enter (.code (left - 1) value)
    else if value.isValidChar then .keep (Char.ofNat value)
    else .refuse

/-- The text up to the closing marks, and what follows them; `acc` is the text so far in reverse. -/
def body (q : Quoting) : Phase → List Char → List Char → Option (List Char × List Char)
  | .marks n, acc, [] => if 3 ≤ n then some (List.replicate (n - 3) q.mark ++ acc, []) else none
  | _, _, [] => none
  | phase, acc, c :: rest =>
    let go (acc : List Char) : Step → Option (List Char × List Char)
      | .keep d => body q .plain (d :: acc) rest
      | .enter phase => body q phase acc rest
      | .close => some (acc, rest)
      | .refuse => none
    match phase with
    | .plain => go acc (plainStep q c)
    | .escape => go acc (escapeStep q c)
    | .code left value => go acc (codeStep left value c)
    | .joining crossed => go acc (joiningStep q crossed c)
    | .marks n =>
      if c = q.mark then if n < 5 then body q (.marks (n + 1)) acc rest else none
      else if 3 ≤ n then some (List.replicate (n - 3) q.mark ++ acc, c :: rest)
      else go (List.replicate n q.mark ++ acc) (plainStep q c)

def finish : Option (List Char × List Char) → Option (String × List Char)
  | some (acc, rest) => some (String.ofList acc.reverse, rest)
  | none => none

/-- A text in single-line marks, of which the first has been read. -/
def short? (mark : Char) (cs : List Char) : Option (String × List Char) :=
  finish (body ⟨mark, false⟩ .plain [] cs)

/-- A text in marks of either length, of which the first has been read.  A line end right behind
three marks is dropped. -/
def read? (mark : Char) (cs : List Char) : Option (String × List Char) :=
  match cs with
  | c :: d :: rest =>
    if c = mark && d = mark then
      finish (body ⟨mark, true⟩ .plain [] (if rest.head? = some '\n' then rest.tail else rest))
    else short? mark cs
  | _ => short? mark cs

end Quoted

end MemoryArbiter.Toml
