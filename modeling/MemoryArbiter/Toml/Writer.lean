import MemoryArbiter.Binary64.Writing
import MemoryArbiter.Toml.Basic

/-! # Writing TOML files

A file is written with the plain members of each table one per line and a header in front of every
table but the first.  Arrays of more than one item take a line for each item.  A text gets the
first of four quotings that needs no escapes, or else double marks with escapes.
-/

namespace MemoryArbiter.Toml

/-! ### Texts -/

/-- The longest row of the character `c`. -/
def longestRow (c : Char) (cs : List Char) : Nat :=
  (cs.foldl (fun (best, row) d => if d = c then (max best (row + 1), row + 1) else (best, 0))
    (0, 0)).1

/-- What decides on the quoting of a text. -/
structure TextTraits where
  singles : Nat
  doubles : Nat
  backslash : Bool
  newline : Bool
  /-- It has a control character other than tab and line feed. -/
  control : Bool
  deriving DecidableEq, Repr, Inhabited

def TextTraits.of (cs : List Char) : TextTraits where
  singles := longestRow '\'' cs
  doubles := longestRow '"' cs
  backslash := cs.contains '\\'
  newline := cs.contains '\n'
  control := cs.any fun c => !isPlain c && c != '\n'

/-- How a text is quoted: the mark and how often it is written. -/
structure Style where
  mark : Char
  long : Bool
  deriving DecidableEq, Repr, Inhabited

def TextTraits.style (t : TextTraits) : Style :=
  if !t.control && !t.backslash && t.doubles = 0 && !t.newline then ⟨'"', false⟩
  else if !t.control && t.singles = 0 && !t.newline then ⟨'\'', false⟩
  else if !t.control && !t.backslash && t.doubles ≤ 2 then ⟨'"', true⟩
  else if !t.control && t.singles ≤ 2 then ⟨'\'', true⟩
  else ⟨'"', t.newline⟩

def hexDigits4 (n : Nat) : List Char :=
  [n / 4096, n / 256, n / 16, n].map fun d => (Nat.digitChar (d % 16)).toUpper

/-- A character between double marks. -/
def escape (long : Bool) (c : Char) : List Char :=
  if c = '\x08' then ['\\', 'b']
  else if c = '\t' then ['\\', 't']
  else if c = '\n' then if long then ['\n'] else ['\\', 'n']
  else if c = '\x0c' then ['\\', 'f']
  else if c = '\r' then ['\\', 'r']
  else if c = '\\' then ['\\', '\\']
  else if isPlain c then [c]
  else '\\' :: 'u' :: hexDigits4 c.toNat

/-- The characters of a text between double marks; at most `room` double marks stand in a row
unescaped, and `row` of them precede. -/
def escapeAll (long : Bool) (room row : Nat) : List Char → List Char
  | [] => []
  | c :: cs =>
    if c = '"' then
      if row < room then '"' :: escapeAll long room (row + 1) cs
      else '\\' :: '"' :: escapeAll long room 0 cs
    else escape long c ++ escapeAll long room 0 cs

def quote (s : String) : List Char :=
  let cs := s.toList
  let style := (TextTraits.of cs).style
  let marks := List.replicate (if style.long then 3 else 1) style.mark
  let body :=
    if style.mark = '"' then escapeAll style.long (if style.long then 2 else 0) 0 cs else cs
  marks ++ (if style.long && cs.contains '\n' then ['\n'] else []) ++ body ++ marks

/-! ### Values -/

/-- A number always shows that it is not an integer. -/
def realChars (x : Binary64) : List Char :=
  if x = .nan then "nan".toList
  else x.shortest.toList ++ if x.isWhole then ['.', '0'] else []

mutual

def chars : Toml → List Char
  | text s => quote s
  | integer i => (toString i).toList
  | real x => realChars x
  | bool b => (if b then "true" else "false").toList
  | time s => s.toList
  | array _ [] => ['[', ']']
  | array _ [v] => '[' :: chars v ++ [']']
  | array _ items => '[' :: '\n' :: itemChars items ++ [']']
  | table _ [] => ['\x7b', '\x7d']
  | table _ members => '\x7b' :: pairChars members

/-- The items of an array, each on a line of its own. -/
def itemChars : List Toml → List Char
  | [] => []
  | v :: vs => "    ".toList ++ chars v ++ ',' :: '\n' :: itemChars vs

/-- The members of a table in braces, and the closing brace. -/
def pairChars : List (String × Toml) → List Char
  | [] => [' ', '\x7d']
  | [(name, v)] => ' ' :: name.toList ++ " = ".toList ++ chars v ++ [' ', '\x7d']
  | (name, v) :: ms => ' ' :: name.toList ++ " = ".toList ++ chars v ++ ',' :: pairChars ms

end

/-! ### Files -/

/-- A member on a line of its own.  Names are written as they are. -/
def line (name : String) (v : Toml) : List Char :=
  name.toList ++ " = ".toList ++ v.chars ++ ['\n']

/-- The members of a table, one per line. -/
def lines (ms : Members) : List Char := ms.flatMap fun (name, v) => line name v

/-- The tables that get headers of their own. -/
def headed : String × Toml → List Char
  | (name, .table .header ms) => '\n' :: '[' :: name.toList ++ ']' :: '\n' :: lines ms
  | (name, .array true items) => items.flatMap fun
    | .table _ ms => '\n' :: '[' :: '[' :: name.toList ++ ']' :: ']' :: '\n' :: lines ms
    | _ => []
  | _ => []

/-- The member is written in the lines of its table. -/
def isInline : String × Toml → Bool
  | (_, .table .header _) => false
  | (_, .array true _) => false
  | _ => true

/-- A file of the given members: plain members come first. -/
def write (ms : Members) : String :=
  String.ofList (lines (ms.filter isInline) ++ ms.flatMap headed)

end MemoryArbiter.Toml
