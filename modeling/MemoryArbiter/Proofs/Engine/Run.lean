import MemoryArbiter.Engine.Step

/-! # Runs of the engine

Whatever is asked of an engine is a `Request`.  A run starts with an engine that tracks nothing and
takes requests one after the other, accepted or not.
-/

namespace MemoryArbiter

inductive Request
  | event (ev : Event)
  | switchTo (account : Int)
  | expireBoost (pid : Int) (token : Nat)
  | noteKilled (uid : Int)
  | retain (live : List Int)
  deriving DecidableEq, Repr, Inhabited

/-- An event about the process `pid` of `uid`, of a bundle without a name. -/
def Request.sent (reason : Reason) (pid uid : Int) (callerUid : Option Int) : Request :=
  .event { pid := pid, callerUid := callerUid, targetUid := uid, reason := reason }

namespace Engine

/-- The engine after one request. -/
def after (e : Engine) : Request → Engine
  | .event ev => (e.update ev).1
  | .switchTo account => (e.switchTo account).1
  | .expireBoost pid token => (e.expireBoost pid token).1
  | .noteKilled uid => (e.noteKilled uid).1
  | .retain live => (e.retain live).1

/-- The engine after all `requests`, from a new one. -/
def run (settings : Settings) (requests : List Request) : Engine :=
  requests.foldl after (new settings)

/-- What a new engine has and every request keeps holds after every run. -/
theorem run_induction {settings : Settings} {P : Engine → Prop} (start : P (new settings))
    (step : ∀ e r, P e → P (e.after r)) (requests : List Request) : P (run settings requests) := by
  have key : ∀ (rs : List Request) (e : Engine), P e → P (rs.foldl after e) := by
    intro rs
    induction rs with
    | nil => exact fun e he => he
    | cons r rs ih => exact fun e he => ih (e.after r) (step e r he)
  exact key requests (new settings) start

end Engine

end MemoryArbiter
