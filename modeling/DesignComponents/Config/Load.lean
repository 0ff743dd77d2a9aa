import DesignComponents.Config.Basic
import DesignComponents.Host.Basic

/-!
Settings read from a file.
-/

namespace DesignComponents.Config

/-- The settings in a file. Without the file there are none, and what is no object counts as
none. -/
def load (path : String) : Run Json := do
  let tidy := Path.tidy path
  if ← Run.isThereStrict tidy then
    match ← Run.readJson tidy with
    | .obj fs => do
      validate (.obj fs)
      pure (.obj fs)
    | _ => do
      Run.warn (.configNotObject path)
      pure (.obj [])
  else pure (.obj [])

end DesignComponents.Config
