import DesignComponents.Proofs.Component.Chain

/-!
The definitions of an assembled component are those of the sets of its chain and those that the
chain ends with.
-/

namespace DesignComponents.Document

variable {d : Document} {root : Node} {levels : List Node} {last : Schema}

/-- There is a chain from the set up, and its definitions put together are those of the component:
the last set that has a key gives its definition, and the key stands where it came first. -/
theorem assemble_schema {file variableFile : Json} (hfile : Shape.file file = true)
    (hvariables : Shape.orNull Shape.variableFile variableFile = true)
    (hd : ofJson file variableFile = .ok d) (hroot : root.IsScene) {c : Component}
    (hc : (d.assemble root).result = .ok c) :
    (∃ levels last, d.Chain [] root levels last) ∧
      ∀ levels last, d.Chain [] root levels last →
        let schemas := levels.map d.definitions ++ [last]
        c.schema = OrderedMap.mergeAll schemas ∧
          (∀ key, OrderedMap.get? key c.schema =
            schemas.reverse.findSome? (OrderedMap.get? key)) ∧
          OrderedMap.keys c.schema = (schemas.flatMap OrderedMap.keys).eraseDups ∧
          (levels.map Node.idText).Nodup ∧ levels.length ≤ maxSchemaDepth := by
  have htyped : d.IsTyped := typed_of_file hfile hvariables hd
  have hassembled := assemble_ends htyped hroot
  rw [hc] at hassembled
  obtain ⟨levels, last, hchain, hschema⟩ := Assembled.schema hassembled
  refine ⟨⟨levels, last, hchain⟩, ?_⟩
  intro levels' last' hchain'
  obtain ⟨rfl, rfl⟩ := hchain.unique htyped hroot hchain'
  have hnodup := hchain.keys_nodup htyped hroot
  refine ⟨hschema, ?_, ?_, (hchain.nodup (by simp)).1, ?_⟩
  · intro key
    rw [hschema, OrderedMap.get?_mergeAll key hnodup]
  · rw [hschema, (OrderedMap.keys_mergeAll hnodup).1]
  · simpa using hchain.length_le (by decide)

/-- A set with a variant that shows a component of another set, in which a component with its own
definitions is shown. -/
def stackedSets : Json :=
  let scene (id type : String) (own : List (String × Json)) (children : List Json) : Json :=
    .obj ([("id", .str id), ("type", .str type), ("children", .arr children)] ++ own)
  let shows (id component : String) : Json :=
    scene id "INSTANCE" [("componentId", .str component)] []
  let defines (types : List (String × String)) : List (String × Json) :=
    [("componentPropertyDefinitions",
      .obj (types.map fun t => (t.1, .obj [("type", .str t.2)])))]
  scene "1" "COMPONENT_SET" (defines [("Size", "VARIANT"), ("Label", "TEXT")]) [
    scene "1:1" "COMPONENT" [] [shows "1:2" "2:1"],
    scene "2" "COMPONENT_SET" (defines [("Label", "BOOLEAN"), ("Icon", "INSTANCE_SWAP")]) [
      scene "2:1" "COMPONENT" [] [shows "2:2" "3"]],
    scene "3" "COMPONENT" (defines [("Icon", "TEXT"), ("Size", "TEXT")]) []]

theorem assemble_schema_stacked :
    let root := Node.ofJson (some []) stackedSets
    ∃ d c, ofJson (.obj [("document", stackedSets)]) .null = .ok d ∧
      (d.assemble root).result = .ok c ∧
      (∃ levels last, d.Chain [] root levels last ∧ OrderedMap.keys c.schema =
        ((levels.map d.definitions ++ [last]).flatMap OrderedMap.keys).eraseDups) ∧
      c.schema.map (fun p => (p.1, p.2.type)) =
        [("Size", .text), ("Label", .boolean), ("Icon", .text)] := by
  intro root
  have hrun : ((ofJson (.obj [("document", stackedSets)]) .null >>= fun d =>
      (d.assemble root).result.map fun c => c.schema.map fun p => (p.1, p.2.type))).toOption =
        some [("Size", .text), ("Label", .boolean), ("Icon", .text)] := by
    decide +kernel
  obtain ⟨d, hd, hrun⟩ := bind_eq_ok.1 (toOption_eq_some.1 hrun)
  obtain ⟨c, hc, htypes⟩ := map_eq_ok.1 hrun
  have hroot : root.IsScene := ⟨some [], stackedSets, rfl, by decide⟩
  obtain ⟨⟨levels, last, hchain⟩, hall⟩ := assemble_schema (by decide) (by decide) hd hroot hc
  obtain ⟨-, -, hkeys, -⟩ := hall levels last hchain
  exact ⟨d, c, hd, hc, ⟨levels, last, hchain, hkeys⟩, htypes⟩

end DesignComponents.Document
