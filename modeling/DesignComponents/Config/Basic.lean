import DesignComponents.Traced

/-!
Settings: where designs come from, which nodes are selected, where snapshots are kept, and how
long to wait after a change. A section that is no object counts as empty.
-/

namespace DesignComponents.Config

def sections : List (String × List String) :=
  [("figma", ["fileKey", "personalAccessToken"]), ("selection", ["nodeIds"]),
   ("export", ["snapshotDir"]), ("watch", ["debounceSeconds"])]

def sectionNames : List String := ["export", "figma", "selection", "watch"]

def defaultPath : String := "figma-compgen.config.json"

def defaultSnapshotDir : String := ".figma-compgen"

def part (config : Json) (name : String) : Except Fault Json := do
  match ← config.getOr name (.obj []) with
  | .obj fs => pure (.obj fs)
  | _ => pure (.obj [])

def setting (config : Json) (name key : String) : Except Fault Json := do
  (← part config name).get key

def checkNames : List Json → Traced Unit
  | [] => pure ()
  | v :: vs => do
    match ← v.key with
    | .str name =>
      if sectionNames.contains name then checkNames vs
      else do
        Traced.warn (.unknownSection name sectionNames)
        checkNames vs
    | key => do
      Traced.warn (.unknownSection key.toJson.display sectionNames)
      checkNames vs

def checkSettings (name : String) (known : List String) : List (String × Json) → Traced Unit
  | [] => pure ()
  | (key, _) :: fs =>
    if known.contains key then checkSettings name known fs
    else do
      Traced.warn (.unknownSetting name key known)
      checkSettings name known fs

def checkSections (config : Json) : List (String × List String) → Traced Unit
  | [] => pure ()
  | (name, known) :: rest => do
    match ← config.getOr name (.obj []) with
    | .obj fs => checkSettings name known fs
    | v => Traced.warn (.sectionNotObject name v.kind)
    checkSections config rest

def isTextList : Json → Bool
  | .arr xs => xs.all Json.isString
  | _ => false

/-- A number that is not below zero; what is not a number at all is not below anything. -/
def isDebounce (v : Json) : Bool :=
  match v.number? with
  | some n => !n.lessThan 0
  | none => false

def isNull : Json → Bool
  | .null => true
  | _ => false

def validate (config : Json) : Traced Unit := do
  if config.isTruthy then
    checkNames (← config.elements)
    checkSections config sections
    let ids ← setting config "selection" "nodeIds"
    if !isNull ids && !isTextList ids then Traced.warn .nodeIdsNotTexts
    let debounce ← setting config "watch" "debounceSeconds"
    if !isNull debounce && !isDebounce debounce then Traced.warn (.badDebounce debounce)

/-- The token in the settings, else the one in the environment; null if there is none. -/
def token (config : Json) (environment : Option String) : Except Fault Json := do
  let own ← setting config "figma" "personalAccessToken"
  pure (if own.isTruthy then own
    else match environment with
      | some t => .str t
      | none => .null)

def snapshotDir (config : Json) : Except Fault Json := do
  let dir ← setting config "export" "snapshotDir"
  pure (if dir.isTruthy then dir else .str defaultSnapshotDir)

def textsAmong : List Json → List String
  | [] => []
  | .str s :: vs => s :: textsAmong vs
  | _ :: vs => textsAmong vs

def selectedIds (config : Json) : Except Fault (List String) := do
  let ids ← setting config "selection" "nodeIds"
  pure (textsAmong (← ids.elementsOrNone))

/-- One second, unless a number that is not negative is set. -/
def debounceSeconds (config : Json) : Except Fault Double := do
  let v ← setting config "watch" "debounceSeconds"
  match v.number? with
  | some n =>
    if n.atLeast 0 then
      match n.toDouble? with
      | some x => pure x
      | none => throw .numberTooLarge
    else pure (.ofRatio false 1 1)
  | none => pure (.ofRatio false 1 1)

@[simp] theorem textsAmong_nil : textsAmong [] = [] := rfl
@[simp] theorem textsAmong_str (s : String) (vs : List Json) :
    textsAmong (.str s :: vs) = s :: textsAmong vs := rfl

end DesignComponents.Config
