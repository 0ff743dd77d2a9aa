import DesignComponents.CommandLine.Program
import Std.Time.Format

/-!
The program on a real machine. The files that a run looks at are read beforehand, the run is made
on their image, and what it changed is written back. There is no network.
-/

namespace DesignComponents.Main

open CommandLine

def readFile? (path : String) : IO (Option String) :=
  try
    let text ← IO.FS.readFile path
    pure (some text)
  catch _ => pure none

def clock : IO String := do
  let now ← Std.Time.Timestamp.now
  let utc := Std.Time.DateTime.ofTimestamp now Std.Time.TimeZone.ZoneRules.UTC
  pure (utc.format "uuuu-MM-dd'T'HH:mm:ss.SSSSSSxxx")

def addFiles (here : Location) : List String → Files → IO Files
  | [], files => pure files
  | path :: paths, files => do
    match ← readFile? path with
    | some text => addFiles here paths (files.place (Path.resolve here path) text)
    | none => addFiles here paths files

def inputs (args : Arguments) (config : Json) : List String :=
  let directory := match Config.snapshotDir config with
    | .ok (.str d) => d
    | _ => Config.defaultSnapshotDir
  let given := match args.action with
    | .display s .. | .debug s | .generate s .. => [s.documentFile, s.variablesFile].filterMap id
    | _ => []
  args.config.toList ++ given ++
    [Path.join directory Snapshot.documentName, Path.join directory Snapshot.variablesName]

def image (here : Location) (args : Arguments) : IO Files := do
  let start : Files := [(here, .directory)]
  let text ← match args.config with
    | some path => readFile? path
    | none => pure none
  let config := match text.map Json.read with
    | some (.ok (.obj fs)) => Json.obj fs
    | _ => .obj []
  addFiles here (inputs args config) start

def writeAll : List (Location × String) → IO Unit
  | [] => pure ()
  | (l, text) :: rest => do
    IO.FS.createDirAll l.parent.text
    IO.FS.writeFile l.text text
    writeAll rest

/-- Make a run and show on the machine what it did; returns the host after it. -/
def carryOut {α : Type} (run : Run α) (h : Host) : IO (Except Fault α × Host) := do
  let (result, after) := run.run h
  IO.print after.printed
  writeAll (Files.changedSince h.files after.files)
  pure (result, { after with printed := "" })

def changes (before after : Files) : List Watch.Event :=
  (Files.changedSince before after).map fun f => ⟨f.1.text, false⟩

/-- Look at the files every second. A dump is due at the first look without changes. -/
partial def watch (args : Arguments) (w : Watch.Watching) (h : Host) : IO Unit := do
  IO.sleep 1000
  let files ← image h.workingDirectory args
  let events := changes h.files files
  let quiet : Watch.Turn :=
    { writes := [], deletes := [], events := events, elapses := events.isEmpty }
  let (result, h) ← carryOut (Watch.turn w quiet) { h with files := files }
  match result with
  | .ok w => watch args w h
  | .error _ => watch args w h

def start (args : List String) : IO UInt32 := do
  let here := Path.resolve [] (toString (← IO.currentDir))
  let token ← IO.getEnv "FIGMA_TOKEN"
  let time ← clock
  let files ← match parse args with
    | .ok args => image here args
    | .error _ => pure []
  let h : Host := {
    files := files
    workingDirectory := here
    token := token
    network := fun _ => .unreachable "no network"
    clock := time
    printed := ""
    requests := [] }
  match parse args with
  | .ok arguments@⟨_, .watch⟩ => do
    let begin_ : Run Watch.Watching := do
      let path ← arguments.configPath
      let config ← Config.load path
      Watch.start config path
    let (result, h) ← carryOut begin_ h
    match result with
    | .ok w => do
      watch arguments w h
      pure 0
    | .error e => do
      IO.eprintln e.message
      pure 1
  | _ => do
    let (result, _) ← carryOut (program args []) h
    match result with
    | .ok finish => pure (finish.status.getD 0).toUInt32
    | .error e => do
      IO.eprintln e.message
      pure 1

end DesignComponents.Main

def main (args : List String) : IO UInt32 := DesignComponents.Main.start args
