import MemoryArbiter.Binary64.Basic
import MemoryArbiter.Text.Integer

/-! # Structured documents

Records are read from nodes of a document, whatever its format.  A record is a node that names its
members, or a list of them in the order of declaration.  `Document.members?` finds the members;
`required` and `optional` then read one of them.
-/

namespace MemoryArbiter

/-- A format of structured documents: what one of its nodes may be read as. -/
class Document (ν : Type) where
  /-- An integer that is written as one. -/
  integer? : ν → Option Int
  truth? : ν → Option Bool
  text? : ν → Option String
  real? : ν → Option Binary64
  items? : ν → Option (List ν)
  /-- The members of a record with the declared names, each one if it is there. -/
  members? : List String → ν → Option (List (Option ν))
  isNull : ν → Bool

namespace Document

variable {ν α : Type} [Document ν]

def int32? (n : ν) : Option Int :=
  (integer? n).filter fun i => Text.minInt32 ≤ i && i ≤ Text.maxInt32

def nat64? (n : ν) : Option Nat :=
  ((integer? n).filter fun i => 0 ≤ i && i ≤ (Text.maxNat64 : Int)).map Int.toNat

def nullable? (read : ν → Option α) (n : ν) : Option (Option α) :=
  if isNull n then some none else (read n).map some

def list? (read : ν → Option α) (n : ν) : Option (List α) :=
  (items? n).bind fun ns => ns.mapM read

/-- A member that has to be there. -/
def required (read : ν → Option α) (member : Option ν) : Option α := member.bind read

/-- A member that may be left out. -/
def optional (default : α) (read : ν → Option α) : Option ν → Option α
  | none => some default
  | some n => read n

end Document

end MemoryArbiter
