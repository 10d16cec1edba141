import MemoryArbiter.Toml.Value

/-! # Reading TOML files

A file is a sequence of headers, members, comments and empty lines; each one ends with its line.
-/

namespace MemoryArbiter.Toml

/-- Carriage returns in front of line feeds are dropped; others stay, and are refused later. -/
def unifyLineEnds : List Char → List Char
  | '\r' :: '\n' :: rest => '\n' :: unifyLineEnds rest
  | c :: rest => c :: unifyLineEnds rest
  | [] => []

/-- The end of a line: blanks, a comment, the line end. -/
def endLine? (cs : List Char) : Option (List Char) :=
  match skipGap cs with
  | [] => some []
  | '\n' :: rest => some rest
  | '#' :: rest => (skipComment? rest).map fun rest => rest.drop 1
  | _ => none

/-- A header, whose first bracket has been read. -/
def header? (d : Draft) (cs : List Char) : Option (Draft × List Char) :=
  match cs with
  | '[' :: cs =>
    match key? cs with
    | some (names, ']' :: ']' :: rest) => (d.header? names true).map fun d => (d, rest)
    | _ => none
  | cs =>
    match key? cs with
    | some (names, ']' :: rest) => (d.header? names false).map fun d => (d, rest)
    | _ => none

/-- A key, the equals sign and a value. -/
def member? (fuel : Nat) (d : Draft) (cs : List Char) : Option (Draft × List Char) :=
  match key? cs with
  | some (names, '=' :: rest) =>
    (value? fuel maxDepth (skipGap rest)).bind fun (v, rest) =>
      (d.define? names v).map fun d => (d, rest)
  | _ => none

/-- The lines of a file; the fuel bounds the number of steps, as it does for values. -/
def readLines? : Nat → Draft → List Char → Option Members
  | 0, _, _ => none
  | fuel + 1, d, cs =>
    match skipGap cs with
    | [] => some d.members
    | '\n' :: rest => readLines? fuel d rest
    | '#' :: rest => (skipComment? rest).bind (readLines? fuel d)
    | '[' :: rest =>
      match header? d rest with
      | some (d, rest) => (endLine? rest).bind (readLines? fuel d)
      | none => none
    | cs =>
      match member? fuel d cs with
      | some (d, rest) => (endLine? rest).bind (readLines? fuel d)
      | none => none

/-- The members of a file.  A byte order mark may stand in front. -/
def read? (cs : List Char) : Option Members :=
  let cs := unifyLineEnds (if cs.head? = some '\ufeff' then cs.tail else cs)
  readLines? (2 * cs.length + 1) {} cs

end MemoryArbiter.Toml
