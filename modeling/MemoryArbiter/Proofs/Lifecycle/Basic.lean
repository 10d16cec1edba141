import MemoryArbiter.Proofs.Engine.Removal
import MemoryArbiter.Proofs.Engine.Run
import MemoryArbiter.Proofs.Lifecycle.Rules

/-! # The lifecycle layer

An engine without its priorities: which processes there are and at which levels, in which bundles
and accounts, and which token comes next.  This layer is a machine of its own.  It does not know
the foreground account, the offset of an account or the clamp, and an account switch is nothing
to it.  The record of a process or a bundle keeps its type, with 0 for the priority.
-/

namespace MemoryArbiter

/-! ### Setting and clearing in one -/

namespace Table

variable {κ β γ : Type} [Key κ]

def assign (t : Table κ β) (k : κ) : Option β → Table κ β
  | some v => t.insert k v
  | none => t.erase k

theorem get?_assign (t : Table κ β) (k j : κ) (o : Option β) :
    (t.assign k o).get? j = if k = j then o else t.get? j := by
  cases o with
  | some v => exact get?_insert t k j v
  | none => exact get?_erase t k j

theorem map_insert (t : Table κ β) (k : κ) (v : β) (f : β → γ) :
    (t.insert k v).map f = (t.map f).insert k (f v) := by
  apply ext_get?
  intro j
  by_cases h : k = j <;> simp [get?_insert, h]

theorem map_erase (t : Table κ β) (k : κ) (f : β → γ) :
    (t.erase k).map f = (t.map f).erase k := by
  apply ext_get?
  intro j
  by_cases h : k = j <;> simp [get?_erase, h]

theorem erase_insert (t : Table κ β) (k : κ) (v : β) : (t.insert k v).erase k = t.erase k := by
  apply ext_get?
  intro j
  by_cases h : k = j <;> simp [get?_insert, get?_erase, h]

theorem insert_of_get? {t : Table κ β} {k : κ} {v : β} (h : t.get? k = some v) :
    t.insert k v = t := by
  apply ext_get?
  intro j
  rw [get?_insert]
  split
  · next hj => rw [← hj, h]
  · rfl

end Table

/-! ### The state -/

def Bundle.unpriced (b : Bundle) : Bundle := { b with priority := 0 }

structure Lifecycle where
  processes : Table Int TrackedProcess := ∅
  bundles : Table Int Bundle := ∅
  /-- The uids of every account. -/
  accounts : Table Int IdSet := ∅
  lastToken : Nat := 0
  deriving DecidableEq

def Engine.lifecycle (e : Engine) : Lifecycle where
  processes := e.processes.map TrackedProcess.unpriced
  bundles := e.bundles.map Bundle.unpriced
  accounts := e.accounts.map Account.uids
  lastToken := e.lastToken

/-- What the lifecycle depends on in the settings. -/
structure Lifecycle.Policy where
  pinned : String → Bool
  /-- Boosts run out. -/
  timed : Bool

def Settings.policy (s : Settings) : Lifecycle.Policy where
  pinned := s.pinned.contains
  timed := s.gracePeriod != 0

/-! ### The steps -/

namespace Lifecycle

def tracks (l : Lifecycle) (uid pid : Int) : Bool :=
  (l.processes.get? pid).any fun p => p.uid = uid

/-- The bundle `uid` without `pid`; `none` if nothing is left of it. -/
def rest (l : Lifecycle) (uid pid : Int) : Option Bundle :=
  ((l.bundles.get? uid).map fun b => b.without pid).filter fun b => !b.pids.isEmpty

/-- The account `id` without `uid`; `none` if nothing is left of it. -/
def remaining (l : Lifecycle) (id uid : Int) : Option IdSet :=
  ((l.accounts.get? id).map fun uids => Table.erase uids uid).filter fun uids => !uids.isEmpty

/-- Take the process `pid` out, with the last process also its bundle, and with the last bundle also
the account. -/
def drop (l : Lifecycle) (pid : Int) : Lifecycle :=
  match l.processes.get? pid with
  | none => l
  | some p =>
    let id := accountOf p.uid
    { l with
      processes := l.processes.erase pid
      bundles := l.bundles.assign p.uid (l.rest p.uid pid)
      accounts :=
        if (l.rest p.uid pid).isSome then l.accounts
        else l.accounts.assign id (l.remaining id p.uid) }

def bundleFor (l : Lifecycle) (policy : Policy) (ev : Event) : Bundle :=
  (l.bundles.get? ev.targetUid).getD
    { uid := ev.targetUid
      name := ev.bundleName
      account := accountOf ev.targetUid
      priority := 0
      pinned := policy.pinned ev.bundleName }

def add (l : Lifecycle) (policy : Policy) (ev : Event) : Lifecycle :=
  let id := accountOf ev.targetUid
  let b := l.bundleFor policy ev
  let level := if b.pinned then Level.system else Level.foreground
  { l with
    processes :=
      l.processes.insert ev.pid (TrackedProcess.start ev.pid ev.targetUid level).unpriced
    bundles :=
      l.bundles.insert ev.targetUid { b with state := .normal, pids := b.pids.insert ev.pid }
    accounts := l.accounts.insert id (((l.accounts.get? id).getD ∅).insert ev.targetUid) }

def levelOf (l : Lifecycle) (uid : Int) : Option Int :=
  (l.bundles.get? uid).bind fun b =>
    ((b.pids.toList.filterMap l.processes.get?).map TrackedProcess.level).min?

def bindingFor (l : Lifecycle) (ev : Event) : Option Binding :=
  if ev.reason = .bindExtension then
    some ⟨ev.callerUid, bindingFloor (ev.callerUid.bind l.levelOf)⟩
  else none

def tokenFor (l : Lifecycle) (policy : Policy) (reason : Reason) : Option Nat :=
  if reason.isBoost && policy.timed then some (l.lastToken + 1) else none

def change (l : Lifecycle) (policy : Policy) (ev : Event) : Lifecycle :=
  match l.processes.get? ev.pid with
  | none => l
  | some p =>
    let token := l.tokenFor policy ev.reason
    { l with
      processes := l.processes.insert ev.pid
        { p.respond ev.reason (l.bindingFor ev) with
          boost := token.map fun n => ⟨n, ev.reason⟩ }
      lastToken := token.getD l.lastToken }

def refusal? (l : Lifecycle) (uid pid : Int) : Option Rejection :=
  match l.bundles.get? uid with
  | none => some (.unknownBundle uid)
  | some b =>
    if pid ∉ b.pids then some (.unknownProcess pid uid)
    else if b.pinned then some (.pinnedBundle uid b.name)
    else none

/-- The process `pid` with its boost taken back, if the boost has that `token`. -/
def expired? (l : Lifecycle) (pid : Int) (token : Nat) : Option TrackedProcess :=
  (l.processes.get? pid).bind fun p =>
    ((p.boost.filter fun b => b.token == token).bind fun b => b.reason.undo?).map fun reason =>
      { p with boost := none }.respond reason none

def expire (l : Lifecycle) (pid : Int) (token : Nat) : Lifecycle :=
  match l.expired? pid token with
  | some p => { l with processes := l.processes.insert pid p }
  | none => l

def mark (l : Lifecycle) (uid : Int) : Lifecycle :=
  { l with bundles := l.bundles.adjust uid fun b => { b with state := .waitingForKill } }

def retain (l : Lifecycle) (live : List Int) : Lifecycle :=
  (l.processes.keys.filter fun pid => !live.contains pid).foldl drop l

def update (l : Lifecycle) (policy : Policy) (ev : Event) : Lifecycle :=
  match ev.reason with
  | .createProcess =>
    if l.tracks ev.targetUid ev.pid then l else (l.drop ev.pid).add policy ev
  | .processTerminated => if l.tracks ev.targetUid ev.pid then l.drop ev.pid else l
  | .osAccountChanged | .processReady => l
  | _ => if (l.refusal? ev.targetUid ev.pid).isSome then l else l.change policy ev

def after (policy : Policy) (l : Lifecycle) : Request → Lifecycle
  | .event ev => l.update policy ev
  | .switchTo _ => l
  | .expireBoost pid token => l.expire pid token
  | .noteKilled uid => l.mark uid
  | .retain live => l.retain live

/-! ### Which step an event takes -/

section

variable {l : Lifecycle} {policy : Policy} {ev : Event}

theorem update_of_create (hr : ev.reason = .createProcess) : l.update policy ev =
    if l.tracks ev.targetUid ev.pid then l else (l.drop ev.pid).add policy ev := by
  unfold update
  rw [hr]

theorem update_of_terminate (hr : ev.reason = .processTerminated) : l.update policy ev =
    if l.tracks ev.targetUid ev.pid then l.drop ev.pid else l := by
  unfold update
  rw [hr]

theorem update_of_switch (hr : ev.reason = .osAccountChanged) : l.update policy ev = l := by
  unfold update
  rw [hr]

theorem update_of_ready (hr : ev.reason = .processReady) : l.update policy ev = l := by
  unfold update
  rw [hr]

theorem update_of_change (hr : ev.reason.structural = false) : l.update policy ev =
    if (l.refusal? ev.targetUid ev.pid).isSome then l else l.change policy ev := by
  unfold update
  cases hre : ev.reason <;> simp_all [Reason.structural]

theorem bindingFor_congr {l' : Lifecycle} (hlevel : ev.reason = .bindExtension →
    ∀ caller, ev.callerUid = some caller → l'.levelOf caller = l.levelOf caller) :
    l'.bindingFor ev = l.bindingFor ev := by
  unfold bindingFor
  by_cases hr : ev.reason = .bindExtension
  · rw [if_pos hr, if_pos hr]
    cases hc : ev.callerUid with
    | none => rfl
    | some caller => rw [Option.bind_some, Option.bind_some, hlevel hr caller hc]
  · rw [if_neg hr, if_neg hr]

theorem change_of_some {p : TrackedProcess} (hp : l.processes.get? ev.pid = some p) :
    l.change policy ev =
      { l with
        processes := l.processes.insert ev.pid
          { p.respond ev.reason (l.bindingFor ev) with
            boost := (l.tokenFor policy ev.reason).map fun n => ⟨n, ev.reason⟩ }
        lastToken := (l.tokenFor policy ev.reason).getD l.lastToken } := by
  unfold change
  rw [hp]

end

/-! ### Refusals -/

/-- Why `r`, which is not a switch, is refused. -/
def refuses? (l : Lifecycle) : Request → Option Rejection
  | .event ev =>
    match ev.reason with
    | .createProcess | .osAccountChanged => none
    | .processTerminated =>
      if l.tracks ev.targetUid ev.pid then none
      else some (.unknownProcess ev.pid ev.targetUid)
    | _ => l.refusal? ev.targetUid ev.pid
  | .expireBoost pid token =>
    if (l.expired? pid token).isSome then none else some (.staleTimer pid)
  | _ => none

end Lifecycle

end MemoryArbiter
