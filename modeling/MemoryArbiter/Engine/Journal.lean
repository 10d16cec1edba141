import MemoryArbiter.Engine.Basic

/-! # The journal of a step

A step (`Txn`) writes down every bundle before it changes it (`Engine.record`).  When the step is over,
`Engine.report` compares the notes with the bundles as they are now, and tells what changed.
-/

namespace MemoryArbiter

/-- A bundle as it was before the step; `old` is `none` for a bundle that the step created. -/
structure Former where
  name : String
  account : Int
  old : Option Int
  deriving DecidableEq, Repr, Inhabited

/-- What a step has written down so far, and what it has to emit. -/
structure Journal where
  former : Table Int Former := ∅
  newPids : List Int := []
  effects : List Effect := []
  deriving DecidableEq

def Journal.emit (j : Journal) (effect : Effect) : Journal :=
  { j with effects := j.effects ++ [effect] }

namespace Engine

/-- Record the bundle of `uid`, unless the step has done so already (`touch`). -/
def record (e : Engine) (uid : Int) (j : Journal) : Journal :=
  match j.former.get? uid, e.bundles.get? uid with
  | none, some b =>
    { j with former := j.former.insert uid ⟨b.name, b.account, some b.priority⟩ }
  | _, _ => j

/-- The change of one recorded bundle, if there is one. -/
def changeOf (e : Engine) (uid : Int) (before : Former) : Option Change :=
  match e.bundles.get? uid with
  | some b =>
    if before.old = some b.priority then none
    else some ⟨uid, b.name, b.account, before.old, some b.priority⟩
  | none =>
    match before.old with
    | some old => some ⟨uid, before.name, before.account, some old, none⟩
    | none => none

/-- The score writes for one recorded bundle: to every process of a bundle that moved, otherwise
to the processes that are new in it. -/
def writesOf (e : Engine) (newPids : List Int) (uid : Int) (before : Former) : List Effect :=
  match e.bundles.get? uid with
  | some b =>
    let moved := before.old ≠ some b.priority
    (b.pids.toList.filter fun pid => moved || newPids.contains pid).map fun pid =>
      .writeScore pid b.priority
  | none => []

/-- What the step did (`commit`), bundles in ascending order of uid, timer effects before score
writes. -/
def report (e : Engine) (j : Journal) : StepReport where
  changes := j.former.entries.filterMap fun (uid, before) => e.changeOf uid before
  effects := j.effects ++
    j.former.entries.flatMap fun (uid, before) => e.writesOf j.newPids uid before

end Engine

end MemoryArbiter
