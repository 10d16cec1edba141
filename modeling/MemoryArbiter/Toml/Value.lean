import MemoryArbiter.Toml.Quoted
import MemoryArbiter.Toml.Scalar
import MemoryArbiter.Toml.Section

/-! # Reading TOML values

A value may hold further values between brackets or braces, up to a fixed depth.  Readers take a
text from its start and return what follows the value.  The fuel bounds the number of steps; twice
the length of the text is enough, since of two steps at least one takes a character.
-/

namespace MemoryArbiter.Toml

/-- The most brackets and braces that may be open at once, and the most parts of a dotted key. -/
def maxDepth : Nat := 79

/-! ### Gaps -/

def skipGap (cs : List Char) : List Char := cs.dropWhile isGap

/-- What follows a comment, whose mark has been read, if it ends well. -/
def skipComment? (cs : List Char) : Option (List Char) :=
  match cs.dropWhile isPlain with
  | [] => some []
  | '\n' :: rest => some ('\n' :: rest)
  | _ => none

/-- Skip the blanks, line ends and comments between the items of an array. -/
def skipSpace? : Nat → List Char → Option (List Char)
  | 0, _ => none
  | fuel + 1, cs =>
    match skipGap cs with
    | '\n' :: rest => skipSpace? fuel rest
    | '#' :: rest => (skipComment? rest).bind (skipSpace? fuel)
    | rest => some rest

/-! ### Keys -/

def isBareKeyChar (c : Char) : Bool := c.isAlphanum || c = '_' || c = '-'

def keyPart? : List Char → Option (String × List Char)
  | '"' :: rest => Quoted.short? '"' rest
  | '\'' :: rest => Quoted.short? '\'' rest
  | cs =>
    let name := cs.takeWhile isBareKeyChar
    if name.isEmpty then none else some (String.ofList name, cs.dropWhile isBareKeyChar)

/-- The parts of a dotted key with the blanks around them; `fuel` parts are read at most. -/
def keyParts? : Nat → List Char → Option (List String × List Char)
  | 0, _ => none
  | fuel + 1, cs =>
    (keyPart? (skipGap cs)).bind fun (name, rest) =>
      match skipGap rest with
      | '.' :: rest => (keyParts? fuel rest).map fun (names, rest) => (name :: names, rest)
      | rest => some ([name], rest)

def key? (cs : List Char) : Option (List String × List Char) := keyParts? maxDepth cs

/-! ### Values -/

mutual

/-- A value; `depth` more brackets may be opened. -/
def value? : Nat → Nat → List Char → Option (Toml × List Char)
  | 0, _, _ => none
  | fuel + 1, depth, cs =>
    match cs with
    | '"' :: rest => (Quoted.read? '"' rest).map fun (s, rest) => (.text s, rest)
    | '\'' :: rest => (Quoted.read? '\'' rest).map fun (s, rest) => (.text s, rest)
    | '[' :: rest =>
      if depth = 0 then none
      else (items? fuel (depth - 1) [] rest).map fun (vs, rest) => (.array false vs, rest)
    | '\x7b' :: rest =>
      if depth = 0 then none
      else
        match skipGap rest with
        | '\x7d' :: rest => some (.table .braces [], rest)
        | rest =>
          (pairs? fuel (depth - 1) [] rest).map fun (ms, rest) => (.table .braces ms, rest)
    | _ =>
      let split := splitWord cs
      (word? split.1).map fun v => (v, split.2)

/-- The rest of an array; `acc` holds the items so far in reverse. -/
def items? : Nat → Nat → List Toml → List Char → Option (List Toml × List Char)
  | 0, _, _, _ => none
  | fuel + 1, depth, acc, cs =>
    match skipSpace? (fuel + 1) cs with
    | none => none
    | some (']' :: rest) => some (acc.reverse, rest)
    | some cs =>
      match value? fuel depth cs with
      | none => none
      | some (v, rest) =>
        match skipSpace? (fuel + 1) rest with
        | some (',' :: rest) => items? fuel depth (v :: acc) rest
        | some (']' :: rest) => some ((v :: acc).reverse, rest)
        | _ => none

/-- The rest of a table in braces, beginning with a key; `ms` holds the members so far. -/
def pairs? : Nat → Nat → Members → List Char → Option (Members × List Char)
  | 0, _, _, _ => none
  | fuel + 1, depth, ms, cs =>
    match key? cs with
    | some (names, '=' :: rest) =>
      match value? fuel depth (skipGap rest) with
      | none => none
      | some (v, rest) =>
        match define? names v ms, skipGap rest with
        | some ms, ',' :: rest => pairs? fuel depth ms rest
        | some ms, '\x7d' :: rest => some (ms, rest)
        | _, _ => none
    | _ => none

end

end MemoryArbiter.Toml
