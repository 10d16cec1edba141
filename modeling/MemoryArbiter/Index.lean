import MemoryArbiter.Table.Lemmas
import MemoryArbiter.Scale

/-! # The ordered index

Every live bundle once, most important first, ties by uid (`PriorityIndex`).  The index keeps two
views in step: the ranks in order, and the priority of each uid; `Index.agrees` (`is_consistent`)
compares them.
-/

namespace MemoryArbiter

structure Rank where
  priority : Int
  uid : Int
  deriving DecidableEq, Repr, Inhabited

def Rank.before (a b : Rank) : Prop :=
  a.priority < b.priority ∨ a.priority = b.priority ∧ a.uid < b.uid

instance : LT Rank := ⟨Rank.before⟩

theorem Rank.lt_iff {a b : Rank} :
    a < b ↔ a.priority < b.priority ∨ a.priority = b.priority ∧ a.uid < b.uid := Iff.rfl

instance : DecidableLT Rank := fun a b =>
  inferInstanceAs (Decidable (a.priority < b.priority ∨ a.priority = b.priority ∧ a.uid < b.uid))

instance : Key Rank where
  decEq := inferInstance
  decLt := inferInstance
  irrefl := fun a h => by rw [Rank.lt_iff] at h; omega
  trans := fun h₁ h₂ => by rw [Rank.lt_iff] at *; omega
  connected := fun {a b} h₁ h₂ => by
    obtain ⟨p, u⟩ := a
    obtain ⟨q, v⟩ := b
    rw [Rank.lt_iff] at h₁ h₂
    have hp : p = q := by simp only at h₁ h₂; omega
    have hu : u = v := by simp only at h₁ h₂; omega
    rw [hp, hu]

structure Index where
  byRank : Table Rank Unit := ∅
  byUid : Table Int Int := ∅
  deriving DecidableEq

namespace Index

def empty : Index := {}

/-- The priority of `uid`, if it is there (`priority_of`). -/
def get? (i : Index) (uid : Int) : Option Int := i.byUid.get? uid

/-- Put `uid` at `priority`, after taking out its former rank (`upsert`). -/
def insert (i : Index) (uid : Int) (priority : Int) : Index :=
  let others :=
    match i.get? uid with
    | some old => i.byRank.erase ⟨old, uid⟩
    | none => i.byRank
  { byRank := others.insert ⟨priority, uid⟩ (), byUid := i.byUid.insert uid priority }

/-- Take `uid` out (`remove`); also its priority, if it was there. -/
def take (i : Index) (uid : Int) : Index × Option Int :=
  match i.get? uid with
  | some old => ({ byRank := i.byRank.erase ⟨old, uid⟩, byUid := i.byUid.erase uid }, some old)
  | none => (i, none)

def ranks (i : Index) : List Rank := i.byRank.keys

def size (i : Index) : Nat := i.byRank.size

def isEmpty (i : Index) : Bool := i.byRank.isEmpty

def agrees (i : Index) : Bool :=
  i.byRank.size == i.byUid.size && i.ranks.all fun r => i.get? r.uid == some r.priority

end Index

end MemoryArbiter
