import DesignComponents.Scene.Node
import DesignComponents.Traced

/-!
Documents: a scene with an index of its nodes, the components it names, and its variables. Of
nodes that have the same identifier the last one counts, in the order from the top down. What
lies below a node without identifier is not indexed.
-/

namespace DesignComponents

/-- A node of the index, and the identifier of the node it is a child of. -/
structure Entry where
  node : Node
  parent : Option Key

abbrev Index := OrderedMap Key Entry

namespace Index

mutual

def addNode (parent : Option Key) (index : Index) : Node → Except Fault Index
  | .node site children => do
    match ← site.value.get "id" with
    | .null => pure index
    | id => do
      let key ← id.key
      let _ ← (← site.value.get "children").elementsOrNone
      addChildren key (OrderedMap.put key ⟨.node site children, parent⟩ index) children

def addChildren (parent : Key) (index : Index) : List Node → Except Fault Index
  | [] => .ok index
  | n :: ns => do
    let index ← addNode (some parent) index n
    addChildren parent index ns

end

def ofRoot (root : Node) : Except Fault Index := addNode none [] root

end Index

structure Document where
  root : Node
  index : Index
  /-- What is known of components by their identifiers, also of those elsewhere. -/
  components : Json
  variableData : Json
  collectionData : Json

namespace Document

def ofJson (file variableFile : Json) : Except Fault Document := do
  let file := file.orEmpty
  let root ← file.getOr "document" (.obj [])
  let components ← file.getOr "components" (.obj [])
  let data := (← variableFile.orEmpty.getOr "meta" (.obj [])).orEmpty
  let vars ← data.getOr "variables" (.obj [])
  let collections ← data.getOr "variableCollections" (.obj [])
  let root := Node.ofJson (some []) root
  let index ← Index.ofRoot root
  pure ⟨root, index, components.orEmpty, vars.orEmpty, collections.orEmpty⟩

def entry? (d : Document) (id : Key) : Option Entry := OrderedMap.get? id d.index

def node? (d : Document) (id : Key) : Option Node := (d.entry? id).map Entry.node

/-- The identifier of a node that belongs to the document: the very node that the index holds
under it. -/
def require (d : Document) (n : Node) : Except Fault Key := do
  match ← n.value.get "id" with
  | .null => throw (.foreignNode .null)
  | id => do
    let key ← id.key
    match d.node? key with
    | some m => if m.place.isSome && m.place = n.place then pure key else throw (.foreignNode id)
    | none => throw (.foreignNode id)

def select (d : Document) : List Json → Traced (List Node)
  | [] => pure []
  | id :: ids => do
    match d.node? (← id.key) with
    | some n => do
      let ns ← select d ids
      pure (n :: ns)
    | none => do
      Traced.warn (.unknownNode id)
      select d ids

end Document

end DesignComponents
