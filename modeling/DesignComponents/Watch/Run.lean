import DesignComponents.Session.Commands
import DesignComponents.Watch.Handler

/-!
Watching: the selection is shown once at the start and again after changes of the snapshot or of
the settings. A dump that fails is reported and ends nothing.
-/

namespace DesignComponents.Watch

/-- A watch under way: the file of the settings, the directories observed, and the handler. -/
structure Watching where
  configPath : Location
  directories : List Location
  handler : Handler

/-- Read the settings and the snapshot anew and show the selection. -/
def dump (configPath : Location) : Run Unit := do
  let config ← Config.load configPath.text
  match ← Session.loadDocument .unspecified config with
  | none => pure ()
  | some d => do
    let ids ← Session.selectedIds [] config
    let selection ← d.select ids
    let _ ← Session.carryOut d .display selection

def attempt (run : Run Unit) : Run Ending := fun h =>
  match run h with
  | (.ok _, h) => (.ok .finished, h)
  | (.error e, h) => (.ok (.failed e.message), h)

def watchedNames (configPath : Location) : List String :=
  [Snapshot.documentName, Snapshot.variablesName, configPath.name]

def resolve (path : String) : Run Location := do
  if path.toList.contains Path.nulByte then throw .nulInPath
  let h ← get
  pure (Path.resolve h.workingDirectory path)

def start (config : Json) (path : String) : Run Watching := do
  let configPath ← resolve path
  let directory ← resolve (← Run.pathOf (← Config.snapshotDir config))
  Run.provideDirectories directory.text
  Run.print ("👀 Watching '" ++ directory.text ++ "' and '" ++ configPath.name ++
    "' for changes...")
  Run.print "   Press Ctrl+C to stop."
  match ← attempt (dump configPath) with
  | .failed message => Run.print ("   ⚠️  Initial dump failed: " ++ message)
  | _ => pure ()
  let debounce ← Config.debounceSeconds config
  let parent := configPath.parent
  pure {
    configPath := configPath
    directories := if directory = parent then [directory] else [directory, parent]
    handler := .start (watchedNames configPath) (.double debounce) }

def dumps (configPath : Location) (path : Option String) : Nat → Run Unit
  | 0 => pure ()
  | n + 1 => do
    Run.print (changedText path)
    let ending ← attempt (dump configPath)
    Run.printAll ending.report
    dumps configPath path n

def elapse (w : Watching) : Run Watching := do
  dumps w.configPath w.handler.lastPath (w.handler.timers.countP Timer.pending)
  pure { w with handler := w.handler.elapse }

/-- What others do to the files between two looks, what the network answers from then on if its
answers change, and whether time passes. -/
structure Turn where
  writes : List (Location × String)
  deletes : List Location
  network : Option (Request → Reply) := none
  events : List Event
  elapses : Bool

def Turn.change (t : Turn) (h : Host) : Host :=
  let written := t.writes.foldl (fun fs f => Files.place fs f.1 f.2) h.files
  { h with
    files := t.deletes.foldl Files.remove written
    network := t.network.getD h.network }

def turn (w : Watching) (t : Turn) : Run Watching := do
  modify t.change
  let w := { w with handler := t.events.foldl Handler.notice w.handler }
  if t.elapses then elapse w else pure w

def turns (w : Watching) : List Turn → Run Watching
  | [] => pure w
  | t :: ts => do
    let w ← turn w t
    turns w ts

def stop (w : Watching) : Run Watching := do
  Run.print "\n👋 Stopping watch..."
  pure { w with handler := w.handler.cancel }

/-- A whole watch, up to its interruption after the given turns. -/
def run (config : Json) (path : String) (ts : List Turn) : Run Watching := do
  let w ← start config path
  let w ← turns w ts
  stop w

end DesignComponents.Watch
