import MemoryArbiter.Command.Invocation

/-! # The command line

Reads the environment and the files that a command may look at, runs the command, prints what it
prints and writes back the files that it changed.
-/

namespace MemoryArbiter

def fetch (path : String) : IO (Option FileNode) := do
  try
    return some (.file (← IO.FS.readBinFile path).toList)
  catch
    | .inappropriateType .. => return some .directory
    | _ => return none

/-- Add what is found at the given paths. -/
def fetchAll (t : FileTree) (paths : List String) : IO FileTree :=
  paths.foldlM
    (fun t path => do
      match ← fetch path with
      | some node => return t.addPath [] path node
      | none => return t)
    t

def inputLines : IO (List String) := do
  let contents ← (← IO.getStdin).readToEnd
  return (Text.lines contents.toList).map String.ofList

/-- Write the files that differ from those in `old`. -/
def store (old new : FileTree) : IO Unit :=
  new.nodes.forM fun (names, node) => do
    match node with
    | .file contents =>
      unless old.node? names = some node do
        IO.FS.writeBinFile ("/" ++ "/".intercalate names) ⟨contents.toArray⟩
    | .directory => return

/-- The host, as far as a command looks at it. -/
def observe (i : Invocation) : IO Host := do
  let known := ["RECLAIMD_CONFIG", "RECLAIMD_PROC_ROOT", "RECLAIMD_PRIORITY_SHIFT"]
  let environment ← known.filterMapM fun name => do return (← IO.getEnv name).map (name, ·)
  let bare : Host := { environment }
  let files ← fetchAll {} (bare.configPath :: i.namedFile?.toList)
  let h : Host := { environment, files }
  if i.readsProcesses then
    let names ← inputLines
    let root := h.mountPoint
    let listed := names.foldl
      (fun t name => t.add (FileTree.namesOf root ++ [name]) .directory) files
    return { environment, files := ← fetchAll listed (Procfs.paths root names) }
  else return h

end MemoryArbiter

open MemoryArbiter in
def main (args : List String) : IO UInt32 := do
  match Invocation.ofWords? args with
  | none =>
    for line in Invocation.usage do IO.eprintln line
    return 2
  | some i =>
    let h ← observe i
    let result := i.run h
    IO.print result.text
    store h.files result.files
    match result.error? with
    | some e =>
      IO.eprintln ("Error: " ++ e)
      return 1
    | none => return 0
