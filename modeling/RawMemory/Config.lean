import RawMemory.Log.Event

/-!
# Configuration

Which accessor to prefer and whether arguments are checked. Settings come as words; one that means
nothing is reported and otherwise treated as if it were not there.
-/

namespace RawMemory

/-- The settings from which a memory handle is made. -/
structure Config where
  /-- The accessor to try first. -/
  preferred : Option AccessorKind := none
  /-- Whether arguments are checked. -/
  checked : Bool := true
deriving DecidableEq

namespace Config

/-- The truth value that a word means, in any case and with any blanks around it. -/
def flag? (word : String) : Option Bool :=
  let word := Keyword.fold (Keyword.trim word)
  if ["1", "true", "yes", "on"].contains word then some true
  else if ["0", "false", "no", "off"].contains word then some false
  else none

/-- Take the setting of the accessor, if there is one. -/
def readAccessor (config : Config) : Option String → Traced Config
  | none => pure config
  | some word =>
    match AccessorKind.ofWord? word with
    | some kind => pure { config with preferred := some kind }
    | none => do
      Traced.report (.accessorIgnored word)
      return config

/-- Take the setting of the checked mode, if there is one. -/
def readChecked (config : Config) : Option String → Traced Config
  | none => pure config
  | some word =>
    match flag? word with
    | some checked => pure { config with checked }
    | none => do
      Traced.report (.checkedIgnored word)
      return config

/-- The configuration that two settings give. -/
def ofSettings (accessor checked : Option String) : Traced Config := do
  let config ← readAccessor {} accessor
  readChecked config checked

/-- The configuration with an accessor to be tried first. -/
def prefer (config : Config) (kind : AccessorKind) : Config := { config with preferred := some kind }

/-- The configuration with the checked mode on or off. -/
def withChecked (config : Config) (checked : Bool) : Config := { config with checked }

end Config

end RawMemory
