import DesignComponents.Component.Assemble
import DesignComponents.Json.Writer
import DesignComponents.Variable.Resolve

/-!
Commands on a selection of nodes: show their outlines, show the variables, or make a component.
Components and complaints are posted as messages.
-/

namespace DesignComponents

/-- A message to the user: the source of a component, or what went wrong. -/
inductive Message
  | component (source : String)
  | error (text : String)

namespace Message

def type : Message → String
  | .component _ => "react"
  | .error _ => "error"

def text : Message → String
  | .component s => s
  | .error s => s

def toJson (m : Message) : Json := .obj [("type", .str m.type), ("message", .str m.text)]

end Message

inductive Command
  | display
  | debug
  | generate
  | unknown (name : String)
  deriving DecidableEq, Repr

namespace Command

def names : List String := ["generate", "react", "debug", "display"]

def ofName (name : String) : Command :=
  if name = "display" then .display
  else if name = "debug" then .debug
  else if name = "react" ∨ name = "generate" then .generate
  else .unknown name

end Command

inductive Answer
  | outlines (os : List Outline)
  | collections (cs : List ResolvedCollection)
  | message (m : Message)

namespace Answer

def toJson : Answer → Json
  | .outlines os => .arr (os.map Outline.toJson)
  | .collections cs => .arr (cs.map ResolvedCollection.toJson)
  | .message m => m.toJson

def printed : Answer → List String
  | .outlines os => os.map (·.text 0)
  | .collections cs => [(ResolvedCollection.dump cs).lines]
  | .message _ => []

def posted : Answer → List Message
  | .message m => [m]
  | _ => []

end Answer

structure Session where
  document : Document
  vars : Variables

namespace Session

def ofDocument (d : Document) : Except Fault Session := do
  let vars ← d.localVariables
  let collections ← d.localCollections
  pure ⟨d, ⟨vars, collections⟩⟩

/-- A component from the only selected node. What cannot be assembled is explained. -/
def generate (d : Document) (selection : List Node) : Traced Message :=
  match selection with
  | [root] =>
    let component := d.assemble root
    match component.result with
    | .error (.refused r) => ⟨component.log, .ok (.error r.message)⟩
    | _ => do
      let c ← component
      let source ← c.source
      pure (.component source)
  | _ => pure (.error "Select exactly one Component Set")

def unknownCommand (name : String) : Message :=
  .error ("Unknown command '" ++ name ++ "' (expected one of " ++
    ", ".intercalate Command.names ++ ")")

def handle (s : Session) (command : Command) (selection : List Node) : Traced Answer :=
  match command with
  | .display => .outlines <$> s.document.visitAll selection
  | .debug => .collections <$> s.vars.resolveAll
  | .generate => .message <$> generate s.document selection
  | .unknown name => pure (.message (unknownCommand name))

end Session

end DesignComponents
