import DesignComponents.Proofs.Component.Definitions
import DesignComponents.Proofs.Component.Wrapped

/-!
One level in the assembly of a component: what is put together for a set, and where the definitions
come from that its main component lacks.
-/

namespace DesignComponents.Document

variable {d : Document} {root main p : Node} {s : Schema} {seen : List Key}
  {ascend : Option (List Key → Node → Traced Component)}

/-- The component of a set and of what it wraps, with the definitions given for the latter. -/
def combine (d : Document) (root main : Node) (inherited : Schema) : Traced Component := do
  let own ← d.ownSchema root
  let tree ← d.convert main
  let name ← root.value.getOr "name" (.str "")
  pure ⟨name, own.merge inherited, tree⟩

/-- Neither name nor tree depend on the definitions. -/
structure Combined (d : Document) (root main : Node) (s : Schema) (c : Component) : Prop where
  name : c.name = .str (root.fieldText "name")
  tree : (d.convert main).result = .ok c.tree
  printable : c.tree.IsPrintable
  schema : c.schema = (d.definitions root).merge s

theorem combine_yields (d : Document) (hroot : root.IsScene) (hmain : main.IsScene) (s : Schema) :
    Yields (d.combine root main s).result (d.Combined root main s) := by
  obtain ⟨tree, htree, hprintable⟩ := convert_yields d hmain
  simp only [combine, Traced.bind_result, Traced.lift_result, ownSchema_eq d hroot, htree, ok_bind,
    hroot.getOr_text "name" rfl]
  exact Yields.ok_iff.2 ⟨rfl, htree, hprintable, rfl⟩

theorem assembleLevel_eq {id : Key} (hroot : root.IsScene) (hmain : main.IsScene)
    (hw : (d.wrapped root).result = .ok (id, main)) :
    (d.assembleLevel ascend seen root).result =
      match d.declared? main with
      | some s => (d.combine root main s).result
      | none => (d.inheritedSchema ascend (id :: seen) main).result >>= fun s =>
          (d.combine root main s).result := by
  simp only [assembleLevel, combine, Traced.bind_result, hw, ok_bind, ownSchema_eq d hroot,
    declared?_eq d hmain]
  cases d.declared? main <;> simp only [pure_bind, Traced.bind_result]

theorem inheritedSchema_orphan (hparent : (d.parent main).soft.result = .ok none) :
    (d.inheritedSchema ascend seen main).result = .ok [] := by
  simp [inheritedSchema, hparent]

theorem inheritedSchema_below (hd : d.IsTyped) (hp : d.Holds p)
    (hparent : (d.parent main).soft.result = .ok (some p)) :
    (d.inheritedSchema ascend seen main).result =
      match ascend with
      | none => .ok []
      | some ascend =>
        if seen.contains (.str p.idText) then .ok []
        else
          match (ascend seen p).result with
          | .ok c => .ok c.schema
          | .error (.refused _) => .ok (d.definitions p)
          | .error e => .error e := by
  obtain ⟨id, hid, -⟩ := hd.require_eq hp
  simp only [inheritedSchema, Traced.bind_result, Traced.lift_result, hparent, ok_bind, hid,
    Json.key_str, Node.idText_of_get hid]
  cases ascend with
  | none => rfl
  | some ascend =>
    dsimp only
    split
    · rfl
    · cases h : (ascend seen p).result with
      | ok c => rfl
      | error e =>
        cases e with
        | refused r => simp [ownSchema_eq d (hd.scene hp)]
        | _ => rfl

end DesignComponents.Document
