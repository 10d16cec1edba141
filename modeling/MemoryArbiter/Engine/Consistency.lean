import MemoryArbiter.Engine.Basic

/-! # Self-check of the engine

`Engine.defect?` (`check_invariants`) looks for a disagreement between the tables and the index and
words the first one it finds.  An engine that only took steps has none.
-/

namespace MemoryArbiter

namespace Engine

/-- Priorities of the listed processes, or the first pid that is not a process of the bundle. -/
def memberPriorities (e : Engine) (uid : Int) : List Int → Except Int (List Int)
  | [] => .ok []
  | pid :: pids =>
    match (e.processes.get? pid).filter fun p => p.uid == uid with
    | some p => (e.memberPriorities uid pids).map (p.priority :: ·)
    | none => .error pid

def bundleDefect? (e : Engine) (b : Bundle) : Option String :=
  if e.index.get? b.uid ≠ some b.priority then
    some s!"bundle {b.uid} is indexed at a stale priority"
  else if b.account ≠ accountOf b.uid then
    some s!"bundle {b.uid} filed under account {b.account}"
  else
    match e.memberPriorities b.uid b.pids.toList with
    | .error pid => some s!"bundle {b.uid} lists foreign pid {pid}"
    | .ok priorities =>
      match priorities.min? with
      | none => some s!"bundle {b.uid} has no processes"
      | some least =>
        if least ≠ b.priority then
          some s!"bundle {b.uid} priority {b.priority} != min of processes {least}"
        else if (e.accounts.get? b.account).any fun a => b.uid ∈ a.uids then none
        else some s!"bundle {b.uid} missing from its account"

def processDefect? (e : Engine) (p : TrackedProcess) : Option String :=
  if (e.bundles.get? p.uid).any fun b => p.pid ∈ b.pids then none
  else some s!"process {p.pid} is orphaned"

def accountDefect? (e : Engine) (a : Account) : Option String :=
  if a.uids.isEmpty then some s!"account {a.id} is empty"
  else if a.uids.toList.any fun uid => !e.bundles.contains uid then
    some s!"account {a.id} lists a removed bundle"
  else none

def defect? (e : Engine) : Option String :=
  if !e.index.agrees || e.index.size != e.bundles.size then
    some s!"index holds {e.index.size} entries for {e.bundles.size} bundles"
  else
    (e.bundles.values.findSome? e.bundleDefect?)
      <|> (e.processes.values.findSome? e.processDefect?)
      <|> (e.accounts.values.findSome? e.accountDefect?)

end Engine

end MemoryArbiter
