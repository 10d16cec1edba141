import MemoryArbiter.Command.Daemon
import MemoryArbiter.Command.Doctor
import MemoryArbiter.Command.Simulate

/-! # Invocations

What the words of a command line ask for, and running it on a host.
-/

namespace MemoryArbiter

inductive Invocation
  /-- Run the arbiter for some milliseconds over the events of a file. -/
  | daemon (events : Option String) (ms : Nat)
  /-- Replay a script with some megabytes free. -/
  | simulate (script : String) (bufferMb : Nat)
  | status
  | doctor
  | validateConfig
  | showConfig
  | printConfigPath
  deriving DecidableEq, Repr, Inhabited

namespace Invocation

def usage : List String :=
  ["usage: reclaimd daemon [--events FILE] [--run-ms N] < NAMES",
    "       reclaimd simulate SCRIPT [--buffer-mb N]",
    "       reclaimd status < NAMES",
    "       reclaimd doctor < NAMES",
    "       reclaimd config (validate | show | path)",
    "NAMES are the names in the process root, one per line."]

def daemonOf? (events : Option String) (ms : Nat) : List String → Option Invocation
  | [] => some (.daemon events ms)
  | "--events" :: path :: rest => daemonOf? (some path) ms rest
  | "--run-ms" :: n :: rest => (Text.nat64? n.toList).bind fun ms => daemonOf? events ms rest
  | _ => none

def ofWords? : List String → Option Invocation
  | "daemon" :: rest => daemonOf? none 0 rest
  | ["simulate", script] => some (.simulate script 1024)
  | ["simulate", script, "--buffer-mb", n] => (Text.nat64? n.toList).map (.simulate script)
  | ["status"] => some .status
  | ["doctor"] => some .doctor
  | ["config", "validate"] => some .validateConfig
  | ["config", "show"] => some .showConfig
  | ["config", "path"] => some .printConfigPath
  | _ => none

def readsProcesses : Invocation → Bool
  | daemon .. | status | doctor => true
  | _ => false

def namedFile? : Invocation → Option String
  | daemon events _ => events
  | simulate script _ => some script
  | _ => none

/-- What a command prints, the error that ends it, and the files after it. -/
structure Result where
  text : String
  error? : Option String
  files : FileTree

def Result.of {ε : Type} (o : Output ε) (message : ε → String) (files : FileTree) : Result where
  text := o.text
  error? := o.error?.map message
  files := files

def run (h : Host) : Invocation → Result
  | daemon events ms =>
    let done := h.daemon events ms
    .of done.1 Failure.message done.2
  | simulate script bufferMb => .of (h.simulate script bufferMb) Failure.message h.files
  | status => .of h.status id h.files
  | doctor => .of h.doctor id h.files
  | validateConfig => .of h.validateConfig ConfigError.message h.files
  | showConfig => .of h.showConfig id h.files
  | printConfigPath => .of h.printConfigPath id h.files

end Invocation

/-! ### The files that a command may read -/

def Host.mountPoint (h : Host) : String :=
  match h.loadConfig with
  | .ok c => c.procRoot
  | .error _ => ({} : Config).procRoot

/-- The process files below `root` that count, given the names in it. -/
def Procfs.paths (root : String) (names : List String) : List String :=
  let below := FileTree.join root
  [below "meminfo", FileTree.join (below "pressure") "memory"]
    ++ names.flatMap fun name =>
      [FileTree.join (below name) "status", FileTree.join (below name) "oom_score_adj"]

end MemoryArbiter
