/-
The environment variables that the shell looks at.
-/
import DeviceConfig.Shell.Files

namespace DeviceConfig

/-- The variables, each of which may be unset. -/
structure Environment where
  home : Option String := none
  userProfile : Option String := none
  topic : Option String := none
  logFormat : Option String := none
  dumpPath : Option String := none
  deriving DecidableEq, Repr, Inhabited

namespace Environment

/-- The user's directory, or the directory that the shell runs in. -/
def homeDirectory (env : Environment) : String := (env.home <|> env.userProfile).getD "."

/-- The directory of the settings. -/
def settingsDirectory (env : Environment) : String := joinPath env.homeDirectory ".devconf"

/-- The file of the settings. -/
def settingsPath (env : Environment) : String := joinPath env.settingsDirectory "config.toml"

end Environment

end DeviceConfig
