import MemoryArbiter.Json.Token

/-! # Reading JSON values

Tokens are put together by a stack of the arrays and objects that are still open: `Parse.step`
places one token, and a token list is read by folding the step over it.
-/

namespace MemoryArbiter.Json

/-- An array or object that is still open; what it holds so far is in reverse. -/
inductive Frame
  | array (items : List Json)
  | object (members : List (Option String × Json))
  /-- An object whose member `name` has no value yet. -/
  | member (members : List (Option String × Json)) (name : Option String)
  deriving Inhabited

/-- What may come next. -/
inductive Expect
  | value
  /-- A value or the end of an array that has just been opened. -/
  | firstItem
  /-- A name or the end of an object that has just been opened. -/
  | firstName
  | name
  | colon
  /-- A comma or the end of the array or object. -/
  | separator
  /-- Nothing: the value is complete. -/
  | nothing (result : Json)
  deriving Inhabited

structure Parse where
  stack : List Frame := []
  expect : Expect := .value
  deriving Inhabited

/-- Hand a complete value to the innermost open array or object. -/
def Parse.place (stack : List Frame) (v : Json) : Parse :=
  match stack with
  | .array items :: stack => { stack := .array (v :: items) :: stack, expect := .separator }
  | .member members name :: stack =>
    { stack := .object ((name, v) :: members) :: stack, expect := .separator }
  | _ => { expect := .nothing v }

/-- A token where a value may begin. -/
def Parse.begin? (stack : List Frame) : Token → Option Parse
  | .null => some (Parse.place stack .null)
  | .bool b => some (Parse.place stack (.bool b))
  | .number n => some (Parse.place stack (.number n))
  | .text s => some (Parse.place stack (.text s))
  | .openBracket => some { stack := .array [] :: stack, expect := .firstItem }
  | .openBrace => some { stack := .object [] :: stack, expect := .firstName }
  | _ => none

/-- A token that closes the innermost array or object. -/
def Parse.close? : List Frame → Token → Option Parse
  | .array items :: stack, .closeBracket => some (Parse.place stack (.array items.reverse))
  | .object members :: stack, .closeBrace => some (Parse.place stack (.object members.reverse))
  | _, _ => none

/-- A token where the name of a member is due. -/
def Parse.name? : List Frame → Token → Option Parse
  | .object members :: stack, .text s =>
    some { stack := .member members s :: stack, expect := .colon }
  | _, _ => none

def Parse.next? : List Frame → Option Parse
  | .array items :: stack => some { stack := .array items :: stack, expect := .value }
  | .object members :: stack => some { stack := .object members :: stack, expect := .name }
  | _ => none

def Parse.step (p : Parse) (t : Token) : Option Parse :=
  match p.expect with
  | .value => Parse.begin? p.stack t
  | .firstItem => if t = .closeBracket then Parse.close? p.stack t else Parse.begin? p.stack t
  | .firstName => if t = .closeBrace then Parse.close? p.stack t else Parse.name? p.stack t
  | .name => Parse.name? p.stack t
  | .colon => if t = .colon then some { p with expect := .value } else none
  | .separator => if t = .comma then Parse.next? p.stack else Parse.close? p.stack t
  | .nothing _ => none

def ofTokens? (ts : List Token) : Option Json :=
  match ts.foldlM Parse.step {} with
  | some { stack := [], expect := .nothing v } => some v
  | _ => none

def read? (cs : List Char) : Option Json := (tokens? cs).bind ofTokens?

end MemoryArbiter.Json
