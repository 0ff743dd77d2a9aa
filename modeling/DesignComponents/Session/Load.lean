import DesignComponents.Config.Basic
import DesignComponents.Document.Basic
import DesignComponents.Host.Remote

/-!
Snapshots of designs in a directory, and documents loaded from them, or from the network if there
is no snapshot.
-/

namespace DesignComponents

/-- Where a document is to come from; what is not given or empty is found in the settings. -/
structure Sources where
  documentFile : Option String
  variablesFile : Option String
  fileKey : Option String

namespace Sources

def unspecified : Sources := ⟨none, none, none⟩

def given (s : Option String) : Option String := s.filter (· != "")

end Sources

namespace Snapshot

def documentName : String := "document.json"

def variablesName : String := "variables.json"

def pathFor (given : Option String) (directory : Json) (name : String) : Run String :=
  match Sources.given given with
  | some path => pure path
  | none => do pure (Path.join (← Run.pathOf directory) name)

/-- A document from files; the variables may be missing. -/
def load (documentPath variablesPath : String) : Run Document := do
  let file ← Run.readJson documentPath
  let vars ← if ← Run.isThere variablesPath then Run.readJson variablesPath else pure .null
  Document.ofJson file vars

/-- Write a file and its variables; returns the paths written. -/
def save (file : Json) (vars : Option Json) (directory : Json) : Run (List String) := do
  let directory ← Run.pathOf directory
  Run.makeDirectories directory
  let documentPath := Path.join directory documentName
  Run.writeJson documentPath file
  match vars with
  | none => pure [documentPath]
  | some v => do
    let variablesPath := Path.join directory variablesName
    Run.writeJson variablesPath v
    pure [documentPath, variablesPath]

end Snapshot

namespace Session

/-- The key of the file that is to be fetched: the one given, else the one in the settings. -/
def fileKey (given : Option String) (config : Json) : Run Json :=
  match Sources.given given with
  | some key => pure (.str key)
  | none => do (← config.getOr "figma" (.obj [])).get "fileKey"

def token (config : Json) : Run Json := do
  let h ← get
  Config.token config h.token

/-- A document from a snapshot or from the network; none if there is neither. -/
def loadDocument (sources : Sources) (config : Json) : Run (Option Document) := do
  let directory ← Config.snapshotDir config
  let documentPath ← Snapshot.pathFor sources.documentFile directory Snapshot.documentName
  let variablesPath ← Snapshot.pathFor sources.variablesFile directory Snapshot.variablesName
  if ← Run.isThere documentPath then
    let d ← Snapshot.load documentPath variablesPath
    pure (some d)
  else
    let token ← token config
    let key ← fileKey sources.fileKey config
    if !token.isTruthy || !key.isTruthy then
      Run.print ("❌ 找不到快照 '" ++ documentPath ++ "'，且未設定 FIGMA_TOKEN 與 file key。")
      Run.print "   請先執行 'figma-compgen snapshot --file-key KEY'，或使用 --document 指定檔案。"
      pure none
    else
      Run.print ("📥 Fetching Figma file: " ++ key.display)
      match ← Remote.fetchDocument token key.display with
      | .error e => do
        Run.print (e.report key.display)
        pure none
      | .ok (file, vars) => do
        let d ← Document.ofJson file (vars.getD .null)
        pure (some d)

end Session

end DesignComponents
