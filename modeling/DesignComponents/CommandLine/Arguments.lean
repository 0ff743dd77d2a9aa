import DesignComponents.CommandLine.Options
import DesignComponents.Config.Basic
import DesignComponents.Session.Load

/-!
The commands of the program and their options.
-/

namespace DesignComponents.CommandLine

inductive Action
  | snapshot (fileKey : Option String)
  | display (sources : Sources) (nodeIds : List (Option String)) (save : Bool)
  | debug (sources : Sources)
  | generate (sources : Sources) (nodeIds : List (Option String)) (output : Option String)
  | watch
  | idle

structure Arguments where
  config : Option String
  action : Action

def helpOption : OptionSpec := ⟨["-h", "--help"], .help⟩

def generalOptions : List OptionSpec :=
  [helpOption, ⟨["--config", "-c"], .takes .config⟩, ⟨["--version", "-v"], .version⟩]

def fileKeyOption : OptionSpec := ⟨["--file-key"], .takes .fileKey⟩

def sourceOptions : List OptionSpec :=
  [⟨["--document"], .takes .documentFile⟩, ⟨["--variables"], .takes .variablesFile⟩, fileKeyOption]

def nodeIdOption : OptionSpec := ⟨["--node-id"], .takes .nodeId⟩

def saveOption : OptionSpec := ⟨["--save"], .switches .save⟩

def outputOption : OptionSpec := ⟨["--output", "-o"], .takes .output⟩

def commands : List (String × List OptionSpec) :=
  let generate := helpOption :: sourceOptions ++ [nodeIdOption, outputOption]
  [("snapshot", [helpOption, fileKeyOption]),
   ("display", helpOption :: sourceOptions ++ [nodeIdOption, saveOption]),
   ("debug", helpOption :: sourceOptions), ("react", generate), ("generate", generate),
   ("watch", [helpOption])]

def all (settings : Settings) (s : Setting) : List (Option String) :=
  (settings.filter (·.1 = s)).map Prod.snd

/-- Of several values the last one counts, even if it got lost. -/
def last? (settings : Settings) (s : Setting) : Option String :=
  (all settings s).getLast?.join

def isMade (settings : Settings) (s : Setting) : Bool := settings.any (·.1 = s)

def sourcesOf (settings : Settings) : Sources :=
  ⟨last? settings .documentFile, last? settings .variablesFile, last? settings .fileKey⟩

def actionOf (command : String) (settings : Settings) : Action :=
  if command = "snapshot" then .snapshot (last? settings .fileKey)
  else if command = "display" then
    .display (sourcesOf settings) (all settings .nodeId) (isMade settings .save)
  else if command = "debug" then .debug (sourcesOf settings)
  else if command = "watch" then .watch
  else .generate (sourcesOf settings) (all settings .nodeId) (last? settings .output)

def parse (args : List String) : Except Stop Arguments := do
  let general ← scan generalOptions true (← tokens generalOptions args)
  let config := (all general.settings .config).getLast?.getD (some Config.defaultPath)
  match general.command with
  | none | some [] => if general.surplus then throw .invalid else pure ⟨config, .idle⟩
  | some (command :: rest) =>
    match commands.lookup command with
    | none => throw .invalid
    | some options => do
      let own ← scan options false (← tokens options rest)
      if general.surplus || own.surplus then throw .invalid
      else pure ⟨config, actionOf command own.settings⟩

end DesignComponents.CommandLine
