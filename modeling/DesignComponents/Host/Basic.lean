import DesignComponents.Host.Files
import DesignComponents.Json.Writer
import DesignComponents.Traced

/-!
What a run of the program works on: files, an environment, a network that answers requests, and
the text printed so far.
-/

namespace DesignComponents

inductive Reply
  | unreachable (reason : String)
  | response (status : Int) (reason : String) (body : String)

structure Request where
  url : String
  token : Json
  timeout : Nat

/-- Answers that are the same whoever asks. -/
instance : Coe (String → Reply) (Request → Reply) := ⟨fun answers r => answers r.url⟩

structure Host where
  files : Files
  workingDirectory : Location
  token : Option String
  network : Request → Reply
  clock : String
  printed : String
  requests : List Request

/-- Steps on a host that may fail; what was done before a failure remains. -/
abbrev Run := ExceptT Fault (StateM Host)

namespace Run

def print (text : String) : Run Unit :=
  modify fun h => { h with printed := h.printed ++ text ++ "\n" }

def warn (w : Warning) : Run Unit := print w.line

def ofExcept {α : Type} (x : Except Fault α) : Run α :=
  match x with
  | .ok a => pure a
  | .error e => throw e

def printAll : List String → Run Unit
  | [] => pure ()
  | t :: ts => do
    print t
    printAll ts

def ofTraced {α : Type} (x : Traced α) : Run α := do
  printAll (x.log.map Warning.line)
  ofExcept x.result

instance : MonadLift (Except Fault) Run := ⟨ofExcept⟩

instance : MonadLift Traced Run := ⟨ofTraced⟩

def isThere (path : String) : Run Bool := do
  let h ← get
  pure (h.files.isThere h.workingDirectory path)

def isThereStrict (path : String) : Run Bool := do
  let h ← get
  h.files.isThereStrict h.workingDirectory path

def readText (path : String) : Run String := do
  let h ← get
  h.files.read h.workingDirectory path

def readJson (path : String) : Run Json := do
  match Json.read (← readText path) with
  | .ok v => pure v
  | .error e => throw (.unreadable e)

def writeText (path text : String) : Run Unit := do
  let h ← get
  let files ← h.files.write h.workingDirectory path text
  set { h with files := files }

def writeJson (path : String) (v : Json) : Run Unit := writeText path v.lines

def makeDirectories (path : String) : Run Unit := do
  let h ← get
  let files ← h.files.makeDirectories h.workingDirectory path
  set { h with files := files }

def provideDirectories (path : String) : Run Unit := do
  let h ← get
  let files ← h.files.provideDirectories h.workingDirectory path
  set { h with files := files }

def pathOf (v : Json) : Run String :=
  match v with
  | .str s => pure s
  | v => throw (.notPath v.kind)

end Run

end DesignComponents
