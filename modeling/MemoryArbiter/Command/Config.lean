import MemoryArbiter.Command.Output
import MemoryArbiter.Config.Load
import MemoryArbiter.Text.Column
import MemoryArbiter.Toml.Writer

/-! # The commands on the configuration

`validateConfig` reports what is unusual about a valid configuration, `showConfig` prints it as a
file, and `printConfigPath` tells where it is read from.
-/

namespace MemoryArbiter

def Config.warnings (c : Config) : List String :=
  (if c.pinnedBundles.isEmpty then ["No pinned bundles: every bundle is killable"] else [])
    ++ (if c.gracePeriod = 0 then
        ["Grace period disabled: boosts persist until an explicit end event"] else [])
    ++ (if c.killer.enabled then [] else ["Low-memory killer disabled"])
    ++ (if c.account.clampShiftedPriority && c.account.priorityShift = 0 then
        ["clamp_shifted_priority has no effect with priority_shift = 0"] else [])

def Tier.line (t : Tier) : String :=
  "     < " ++ Text.padLeft 6 (toString t.bufferKb) ++ " KB → priority >= "
    ++ toString t.minPriority

def Config.report (c : Config) : List String :=
  (if c.warnings.isEmpty then ["   ✅ All checks passed"]
    else "" :: c.warnings.map fun w => "   ⚠️  " ++ w)
    ++ ["",
      "   Pinned:     " ++ ", ".intercalate c.pinnedBundles,
      "   Shift:      " ++ toString c.account.priorityShift,
      "   Kill tiers: " ++ toString c.killTiers.length]
    ++ c.killTiers.map Tier.line

namespace Host

def validateConfig (h : Host) : Output ConfigError :=
  let title := "🔍 Validating configuration..."
  match h.loadConfig with
  | .ok c => { lines := title :: "   ✅ Config parsed and validated" :: c.report }
  | .error e => { lines := [title, "   ❌ Config error: " ++ e.message], error? := some e }

def loadFailure (e : ConfigError) : String := "Failed to load config: " ++ e.message

def showConfig (h : Host) : Output String :=
  match h.loadConfig with
  | .ok c => { lines := [Toml.write c.toToml] }
  | .error e => .failed (loadFailure e)

def printConfigPath (h : Host) : Output String := { lines := [h.configPath] }

end Host

end MemoryArbiter
