import DesignComponents.Config.Load
import DesignComponents.Scene.NodeId
import DesignComponents.Session.Load
import DesignComponents.Session.Pipeline

/-!
What the commands of the program do on a host.
-/

namespace DesignComponents.Session

def snapshot (given : Option String) (config : Json) : Run Unit := do
  let token ← token config
  let key ← fileKey given config
  if !token.isTruthy then
    Run.print "❌ 請設定 FIGMA_TOKEN 環境變數，或在 figma-compgen.config.json 的 figma.personalAccessToken 設定。"
    Run.print "   取得方式：Figma → Settings → Personal access tokens → 新增"
  else if !key.isTruthy then
    Run.print "❌ 請使用 --file-key 或在 config 的 figma.fileKey 設定 Figma 檔案 key。"
  else
    Run.print ("📥 Snapshot Figma file: " ++ key.display)
    match ← Remote.fetchDocument token key.display with
    | .error e => Run.print (e.report key.display)
    | .ok (file, vars) => do
      let paths ← Snapshot.save file vars (← Config.snapshotDir config)
      Run.printAll (paths.map ("   ✅ Saved to " ++ ·))

/-- Pass a message on to the user; source goes to a file if one is given. -/
def deliver (output : Option String) (m : Message) : Run Unit :=
  match m with
  | .error text => Run.print ("❌ " ++ text)
  | .component source =>
    match Sources.given output with
    | none => Run.print source
    | some path => do
      let path := Path.tidy path
      Run.provideDirectories (Path.parent path)
      Run.writeText path source
      Run.print ("✅ Component written to " ++ path)

def deliverAll (output : Option String) : List Message → Run Unit
  | [] => pure ()
  | m :: ms => do
    deliver output m
    deliverAll output ms

def outlineName : String := "selection-ir.json"

/-- Save outlines in the snapshot directory; returns the path written. -/
def saveOutlines (os : List Outline) (directory : Json) : Run String := do
  let directory ← Run.pathOf directory
  Run.makeDirectories directory
  let h ← get
  let path := Path.join directory outlineName
  Run.writeJson path
    (.obj [("generatedAt", .str h.clock), ("roots", .arr (os.map Outline.toJson))])
  pure path

def carryOut (d : Document) (command : Command) (selection : List Node) : Run Answer := do
  let session ← Session.ofDocument d
  let answer ← session.handle command selection
  Run.printAll answer.printed
  pure answer

def givenIds : List (Option String) → Except Fault (List String)
  | [] => .ok []
  | none :: _ => .error (.noMember .arr "strip")
  | some id :: ids => (givenIds ids).map (id :: ·)

/-- The identifiers given, else those in the settings, in the form that documents use. -/
def selectedIds (given : List (Option String)) (config : Json) : Except Fault (List Json) := do
  let ids ← if given.isEmpty then Config.selectedIds config else givenIds given
  pure (ids.map fun id => .str (NodeId.normalize id))

def onSelection (sources : Sources) (nodeIds : List (Option String)) (config : Json)
    (run : Document → List Node → Run Unit) : Run Unit := do
  match ← loadDocument sources config with
  | none => pure ()
  | some d => do
    let ids ← selectedIds nodeIds config
    if ids.isEmpty then
      Run.print "❌ 請使用 --node-id 或在 config 的 selection.nodeIds 指定要處理的節點。"
    else
      let selection ← d.select ids
      run d selection

def display (sources : Sources) (nodeIds : List (Option String)) (save : Bool)
    (config : Json) : Run Unit :=
  onSelection sources nodeIds config fun d selection => do
    match ← carryOut d .display selection with
    | .outlines os =>
      if save then
        let path ← saveOutlines os (← Config.snapshotDir config)
        Run.print ("📄 IR saved to " ++ path)
    | _ => pure ()

def debug (sources : Sources) (config : Json) : Run Unit := do
  match ← loadDocument sources config with
  | none => pure ()
  | some d => do
    let _ ← carryOut d .debug []

def generateCommand (sources : Sources) (nodeIds : List (Option String)) (output : Option String)
    (config : Json) : Run Unit :=
  onSelection sources nodeIds config fun d selection => do
    let answer ← carryOut d .generate selection
    deliverAll output answer.posted

end DesignComponents.Session
