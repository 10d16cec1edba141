import MemoryArbiter.Config.Error
import MemoryArbiter.Config.Record
import MemoryArbiter.FileTree
import MemoryArbiter.Text.Integer
import MemoryArbiter.Toml.Reader
import MemoryArbiter.Toml.Record

/-! # Loading the configuration

The configuration is read from a file (`load_from`), or has its defaults if there is none.
Environment variables name the file (`config_path`) and override single members (`load`); the result
is checked last.
-/

namespace MemoryArbiter

def Config.ofText? (text : String) : Option Config :=
  (Toml.read? text.toList).bind fun ms => Config.ofDocument? (Toml.table .header ms)

def FileTree.readConfig (files : FileTree) (path : String) : Except ConfigError Config :=
  if !files.contains path then .ok {}
  else
    match files.readText path with
    | .error e => .error (.unreadable path e.message)
    | .ok text =>
      match Config.ofText? text with
      | some c => .ok c
      | none => .error (.unparsable path)

def Config.checked (c : Config) : Except ConfigError Config :=
  match c.defect? with
  | some d => .error (.invalid d)
  | none => .ok c

def FileTree.loadConfig (files : FileTree) (path : String) : Except ConfigError Config :=
  (files.readConfig path).bind Config.checked

namespace Host

/-- The file that the configuration is read from. -/
def configPath (h : Host) : String :=
  (h.setting? "RECLAIMD_CONFIG").getD "/etc/reclaimd/config.toml"

/-- Override the mount point, if the environment names one. -/
def overrideRoot (h : Host) (c : Config) : Config :=
  { c with procRoot := (h.setting? "RECLAIMD_PROC_ROOT").getD c.procRoot }

def overrideShift (h : Host) (c : Config) : Except ConfigError Config :=
  match h.setting? "RECLAIMD_PRIORITY_SHIFT" with
  | none => .ok c
  | some value =>
    match hvalue : Text.int32? value.toList with
    | some shift =>
      let account := { c.account with
        priorityShift := shift, priorityShift_fits := fitsInt32_of_int32? hvalue }
      .ok { c with account }
    | none => .error (.invalid (.shiftVariable value))

def loadConfig (h : Host) : Except ConfigError Config :=
  (h.files.readConfig h.configPath).bind fun c =>
    (h.overrideShift (h.overrideRoot c)).bind Config.checked

end Host

end MemoryArbiter
