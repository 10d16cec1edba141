import MemoryArbiter.FileTree
import MemoryArbiter.Kernel.Stall
import MemoryArbiter.Scale
import MemoryArbiter.Table.Basic
import MemoryArbiter.Text.Integer

/-! # The process file system

The kernel's files under a root directory (`ProcfsKernel`): free memory (`current_buffer_kb`), one
directory for each process (`resident_kb`), and the stall averages (`memory_pressure`).  Signals reach
the processes of a given set only, and a process that is reached is gone.
-/

namespace MemoryArbiter

open Text

/-- The amount that a file of labelled amounts gives under `label` (`find_kb_field`): the first word
behind the label on the first line that begins with it. -/
def labelledAmount? (label contents : List Char) : Option Nat :=
  (lines contents).findSome? (after? label)
    |>.bind (fun rest => (words rest).head?)
    |>.bind nat64?

structure Procfs where
  root : String
  files : FileTree
  /-- The processes that a signal ends. -/
  reachable : IdSet := ∅
  deriving DecidableEq

namespace Procfs

/-! ### Paths -/

def bufferPath (k : Procfs) : String := FileTree.join k.root "meminfo"

def processPath (k : Procfs) (pid : Int) (name : String) : String :=
  FileTree.join (FileTree.join k.root (toString pid)) name

def stallPath (k : Procfs) : String := FileTree.join (FileTree.join k.root "pressure") "memory"

def fileFault (path : String) (e : FileError) : KernelError := .io path e.message

/-! ### The interface -/

def bufferLabel : List Char := "MemAvailable:".toList

def residentLabel : List Char := "VmRSS:".toList

def readBuffer (k : Procfs) : Except KernelError Nat :=
  match k.files.readText k.bufferPath with
  | .error e => .error (fileFault k.bufferPath e)
  | .ok contents =>
    match labelledAmount? bufferLabel contents.toList with
    | some kb => .ok kb
    | none => .error (.parse k.bufferPath "no MemAvailable line")

/-- Every directory entry whose name is a positive number counts as a process. -/
def livePids (k : Procfs) : Except KernelError (List Int) :=
  match k.files.entryNames k.root with
  | .error e => .error (fileFault k.root e)
  | .ok names =>
    .ok (((names.filterMap fun s => int32? s.toList).filter fun pid => 0 < pid).mergeSort)

/-- The resident size of a process; kernel threads have none. -/
def resident (k : Procfs) (pid : Int) : Except KernelError Nat :=
  let path := k.processPath pid "status"
  match k.files.readText path with
  | .error .notFound => .error (.noSuchProcess pid)
  | .error e => .error (fileFault path e)
  | .ok contents => .ok ((labelledAmount? residentLabel contents.toList).getD 0)

def kill (k : Procfs) (pid : Int) : Except KernelError Nat × Procfs :=
  match k.resident pid with
  | .error e => (.error e, k)
  | .ok kb =>
    if pid ∈ k.reachable then (.ok kb, { k with reachable := Table.erase k.reachable pid })
    else (.error (.noSuchProcess pid), k)

def writeScore (k : Procfs) (pid priority : Int) : Except KernelError Unit × Procfs :=
  let path := k.processPath pid "oom_score_adj"
  match k.files.writeText path (toString (oomScore priority)) with
  | (.ok (), files) => (.ok (), { k with files })
  | (.error .notFound, _) => (.error (.noSuchProcess pid), k)
  | (.error e, _) => (.error (fileFault path e), k)

/-- Kernels without stall averages have no file of them. -/
def readStall (k : Procfs) : Except KernelError (Option Stall) :=
  match k.files.readText k.stallPath with
  | .error .notFound => .ok none
  | .error e => .error (fileFault k.stallPath e)
  | .ok contents =>
    match Stall.read contents.toList with
    | .ok stall => .ok (some stall)
    | .error reason => .error (.parse k.stallPath reason)

instance : Kernel Procfs where
  name := "procfs"
  readBuffer k := (k.readBuffer, k)
  livePids := livePids
  kill := kill
  writeScore := writeScore
  readStall := readStall

end Procfs

end MemoryArbiter
