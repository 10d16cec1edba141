import MemoryArbiter.Command.Status

/-! # The doctor command

A list of checks of the machine; some of them only warn, the others count as issues.
-/

namespace MemoryArbiter

namespace Doctor

structure Finding where
  line : String
  issue : Bool := false
  deriving DecidableEq, Repr, Inhabited

def good (text : String) : Finding := { line := "  ✅ " ++ text }

def unusual (text : String) : Finding := { line := "  ⚠️  " ++ text }

def bad (text : String) : Finding := { line := "  ❌ " ++ text, issue := true }

/-- The configuration to go on with, and what there is to say about its file. -/
def config (h : Host) : Config × Finding :=
  if h.files.contains h.configPath then
    match h.loadConfig with
    | .ok c => (c, good s!"Config file valid ({h.configPath})")
    | .error e => ({}, bad ("Config file invalid: " ++ e.message))
  else ({}, unusual s!"No config file at {h.configPath}, using defaults")

def buffer (k : Procfs) : Finding :=
  match k.readBuffer with
  | .ok kb => good s!"meminfo readable ({kb / 1024} MB available)"
  | .error e => bad ("Cannot read free memory: " ++ e.message)

def processes (k : Procfs) : Finding :=
  match k.livePids with
  | .ok pids => good s!"Process list readable ({pids.length} pids)"
  | .error e => bad ("Cannot enumerate processes: " ++ e.message)

def stall (k : Procfs) : Finding :=
  match k.readStall with
  | .ok (some _) => good "PSI memory pressure available"
  | .ok none => unusual "PSI unavailable, monitor falls back to buffer polling"
  | .error e => { line := "  ⚠️  PSI unreadable: " ++ e.message, issue := true }

def scores (k : Procfs) : Finding :=
  let path := FileTree.join (FileTree.join k.root "self") "oom_score_adj"
  if k.files.contains path then good "oom_score_adj present"
  else bad s!"{path} missing, priorities cannot be mirrored"

def killer (c : Config) : Finding :=
  if c.killer.enabled then good "Low-memory killer enabled"
  else unusual "Low-memory killer disabled in config"

def findings (h : Host) : List Finding :=
  let first := config h
  let kernel := h.procfs first.1
  [first.2, buffer kernel, processes kernel, stall kernel, scores kernel, killer first.1]

def summary (issues : Nat) : String :=
  if issues = 0 then "  🎉 All checks passed!"
  else s!"  ⚠️  {issues} issue(s) found. See above for details."

end Doctor

open Doctor in
def Host.doctor (h : Host) : Output String :=
  let found := findings h
  { lines :=
      ["🩺 reclaimd Doctor — System Diagnostics",
        "=======================================",
        ""]
      ++ found.map Finding.line
      ++ ["", summary (found.countP Finding.issue)] }

end MemoryArbiter
