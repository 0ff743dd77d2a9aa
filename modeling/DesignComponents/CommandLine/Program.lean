import DesignComponents.CommandLine.Arguments
import DesignComponents.Watch.Run

/-!
The whole program: arguments, settings, and the command.
-/

namespace DesignComponents.CommandLine

def versionText : String := "figma-compgen 0.3.0"

def usageText : String :=
  "usage: figma-compgen [-h] [--config CONFIG] [--version]\n" ++
  "                     \x7bsnapshot,display,debug,react,generate,watch\x7d ..."

/-- How a run ends: of itself or with a status, and the watch if there was one. -/
structure Finish where
  status : Option Nat
  watching : Option Watch.Watching

def Finish.normal : Finish := ⟨none, none⟩

/-- The path of the settings; an option without its value leaves none. -/
def Arguments.configPath (args : Arguments) : Except Fault String :=
  match args.config with
  | some path => .ok path
  | none => .error (.notPath .arr)

def perform (args : Arguments) (turns : List Watch.Turn) : Run Finish := do
  let configPath ← args.configPath
  let config ← Config.load configPath
  match args.action with
  | .snapshot fileKey => do
    Session.snapshot fileKey config
    pure .normal
  | .display sources nodeIds save => do
    Session.display sources nodeIds save config
    pure .normal
  | .debug sources => do
    Session.debug sources config
    pure .normal
  | .generate sources nodeIds output => do
    Session.generateCommand sources nodeIds output config
    pure .normal
  | .watch => do
    let w ← Watch.run config configPath turns
    pure ⟨none, some w⟩
  | .idle => do
    Run.print usageText
    pure .normal

def program (args : List String) (turns : List Watch.Turn) : Run Finish :=
  match parse args with
  | .ok args => perform args turns
  | .error .help => do
    Run.print usageText
    pure ⟨some 0, none⟩
  | .error .version => do
    Run.print versionText
    pure ⟨some 0, none⟩
  | .error .invalid => pure ⟨some 2, none⟩

end DesignComponents.CommandLine
