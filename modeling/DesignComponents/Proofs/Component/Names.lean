import DesignComponents.Proofs.Component.Chain

/-!
What the properties of a component are called in its source: by what stands before the mark of
their keys. Keys that differ behind it only are distinct and give the same name.
-/

namespace DesignComponents

/-- What is left of a key, the case of its first letter aside. -/
def stem (key : String) : List Char := compactChars (beforeFirst '#' key.toList)

theorem propertyName_eq_iff {k k' : String} :
    propertyName k = propertyName k' ↔ lowerFirst (stem k) = lowerFirst (stem k') :=
  String.ofList_inj

theorem beforeFirst_append (sep : Char) (cs ds : List Char) :
    beforeFirst sep (cs ++ sep :: ds) = beforeFirst sep cs := by
  induction cs with
  | nil => simp [beforeFirst]
  | cons c cs ih =>
    simp only [beforeFirst] at ih
    simp only [beforeFirst, List.cons_append, List.takeWhile_cons, ih]

/-- What stands behind a mark does not matter. -/
theorem propertyName_mark (name id : String) :
    propertyName (name ++ "#" ++ id) = propertyName name := by
  have hlist : (name ++ "#" ++ id).toList = name.toList ++ '#' :: id.toList := by simp
  rw [propertyName_eq_iff, stem, stem, hlist, beforeFirst_append]

namespace Component

/-- The properties under their names, in order. -/
def named (s : Schema) : List (String × PropertyDefinition) :=
  s.map fun p => (propertyName p.1, p.2)

def declared (p : String × PropertyDefinition) : String :=
  "  " ++ p.1 ++ ": " ++ propertyType p.2 ++ ";"

def bound (p : String × PropertyDefinition) : String :=
  match p.2.default with
  | .null => p.1
  | v => p.1 ++ " = " ++ defaultText v

def declaration (tag : String) : List (String × PropertyDefinition) → List String
  | [] => ["export type " ++ tag ++ "Props = \x7b\x7d;"]
  | ps => ["export type " ++ tag ++ "Props = \x7b"] ++ ps.map declared ++ ["\x7d;"]

def binding : List (String × PropertyDefinition) → String
  | [] => "\x7b\x7d"
  | ps => "\x7b " ++ ", ".intercalate (ps.map bound) ++ " \x7d"

/-- The source of a component whose type declares and whose pattern binds the properties, both under
the names that are given with them. -/
def printed (tag markup : String) (ps : List (String × PropertyDefinition)) : String :=
  "\n".intercalate (declaration tag ps ++
    ["", "export const " ++ tag ++ " = (" ++ binding ps ++ ": " ++ tag ++ "Props) => \x7b",
      "  return (", markup, "  );", "\x7d;", ""])

theorem declaration_named (tag : String) (s : Schema) :
    declaration tag (named s) = typeLines tag s := by
  cases s with
  | nil => rfl
  | cons p s =>
    have hlines : (named (p :: s)).map declared = (p :: s).map typeLine := List.map_map
    exact congrArg (["export type " ++ tag ++ "Props = \x7b"] ++ · ++ ["\x7d;"]) hlines

theorem binding_named (s : Schema) : binding (named s) = pattern s := by
  cases s with
  | nil => rfl
  | cons p s =>
    have hparts : (named (p :: s)).map bound = (p :: s).map parameter := List.map_map
    exact congrArg (fun ps => "\x7b " ++ ", ".intercalate ps ++ " \x7d") hparts

theorem source_named {c : Component} {name : String} (hname : c.name = .str name) :
    c.source = (c.tree.render 2).map fun markup =>
      printed (componentName name) markup (named c.schema) := by
  cases hmarkup : c.tree.render 2 with
  | error e => rw [source, hname, hmarkup]; rfl
  | ok markup =>
    rw [source_eq hname hmarkup, map_ok, printed, declaration_named, binding_named]
    rfl

theorem source_yields {c : Component} {name : String} (hname : c.name = .str name)
    (htree : c.tree.IsPrintable) : Yields c.source fun text => ∃ markup,
      c.tree.render 2 = .ok markup ∧
        text = printed (componentName name) markup (named c.schema) := by
  obtain ⟨lines, hlines, -⟩ := htree 2
  have hmarkup : c.tree.render 2 = .ok ("\n".intercalate lines) := by
    rw [Markup.render, hlines, map_ok]
  refine ⟨_, ?_, _, hmarkup, rfl⟩
  rw [source_named hname, hmarkup, map_ok]

/-- A component with a name and with markup that can be printed, and with each of its keys once. -/
structure IsTyped (c : Component) : Prop where
  name : ∃ name, c.name = .str name
  tree : c.tree.IsPrintable
  keys : (OrderedMap.keys c.schema).Nodup

theorem names_nodup_iff {s : Schema} (h : (OrderedMap.keys s).Nodup) :
    ((named s).map Prod.fst).Nodup ↔ ∀ k ∈ OrderedMap.keys s, ∀ k' ∈ OrderedMap.keys s,
      lowerFirst (stem k) = lowerFirst (stem k') → k = k' := by
  have hnames : (named s).map Prod.fst = (OrderedMap.keys s).map propertyName := by
    simp [named, OrderedMap.keys]
  rw [hnames, List.nodup_map_iff_inj_on h]
  simp only [propertyName_eq_iff]

end Component

theorem Document.assemble_typed {file variableFile : Json} {d : Document} {root : Node}
    {c : Component} (hfile : Shape.file file = true)
    (hvariables : Shape.orNull Shape.variableFile variableFile = true)
    (hd : ofJson file variableFile = .ok d) (hroot : root.IsScene)
    (hc : (d.assemble root).result = .ok c) : c.IsTyped := by
  have htyped := typed_of_file hfile hvariables hd
  have hassembled := assemble_ends htyped hroot
  rw [hc] at hassembled
  obtain ⟨hname, htree, levels, last, hchain, hschema⟩ := hassembled
  refine ⟨hname, htree, ?_⟩
  rw [hschema]
  exact (OrderedMap.keys_mergeAll (hchain.keys_nodup htyped hroot)).2

namespace Component

/-- The source of a component, also of one whose keys come from several sets, declares and binds one
property for each key, named after what stands before the mark of the key. So no two have the same
name if and only if no two keys agree in that, and keys that differ behind the mark agree. -/
theorem source_names :
    (∀ c : Component, c.IsTyped → Yields c.source fun text => ∃ name markup,
      c.name = .str name ∧ c.tree.render 2 = .ok markup ∧
        text = printed (componentName name) markup (named c.schema) ∧
        (((named c.schema).map Prod.fst).Nodup ↔ ∀ k ∈ OrderedMap.keys c.schema,
          ∀ k' ∈ OrderedMap.keys c.schema, lowerFirst (stem k) = lowerFirst (stem k') → k = k')) ∧
    (∀ (file variableFile : Json) (d : Document) (root : Node) (c : Component),
      Shape.file file = true → Shape.orNull Shape.variableFile variableFile = true →
      Document.ofJson file variableFile = .ok d → root.IsScene →
      (d.assemble root).result = .ok c → c.IsTyped) ∧
    ∀ name id : String, propertyName (name ++ "#" ++ id) = propertyName name := by
  refine ⟨?_, ?_, propertyName_mark⟩
  · intro c hc
    obtain ⟨name, hname⟩ := hc.name
    apply (source_yields hname hc.tree).mono
    rintro text ⟨markup, hmarkup, htext⟩
    exact ⟨name, markup, hname, hmarkup, htext, names_nodup_iff hc.keys⟩
  · intro file variableFile d root c hfile hvariables hd hroot hc
    exact Document.assemble_typed hfile hvariables hd hroot hc

/-- A set and a component shown in it, with definitions for the same text. -/
def labelledSets : Json :=
  let scene (id type : String) (own : List (String × Json)) (children : List Json) : Json :=
    .obj ([("id", .str id), ("type", .str type), ("children", .arr children)] ++ own)
  let labelled (key : String) : String × Json :=
    ("componentPropertyDefinitions", .obj [(key, .obj [("type", .str "TEXT")])])
  scene "1" "COMPONENT_SET" [("name", .str "Card"), labelled "Label#1:0"] [
    scene "1:1" "COMPONENT" [] [scene "1:2" "INSTANCE" [("componentId", .str "2")] []],
    scene "2" "COMPONENT" [labelled "Label#2:0"] []]

def cardSource : String :=
  "export type CardProps = \x7b\n  label: string;\n  label: string;\n\x7d;\n\n" ++
    "export const Card = (\x7b label, label \x7d: CardProps) => \x7b\n  return (\n" ++
    "    <Box />\n  );\n\x7d;\n"

theorem source_labelled :
    let root := Node.ofJson (some []) labelledSets
    ∃ d c, Document.ofJson (.obj [("document", labelledSets)]) .null = .ok d ∧
      (d.assemble root).result = .ok c ∧ OrderedMap.keys c.schema = ["Label#1:0", "Label#2:0"] ∧
      c.source = .ok cardSource := by
  intro root
  have hrun : ((Document.ofJson (.obj [("document", labelledSets)]) .null >>= fun d =>
      (d.assemble root).result >>= fun c =>
        c.source.map fun text => (OrderedMap.keys c.schema, text)).toOption) =
      some (["Label#1:0", "Label#2:0"], cardSource) := by
    decide +kernel
  obtain ⟨d, hd, hrun⟩ := bind_eq_ok.1 (toOption_eq_some.1 hrun)
  obtain ⟨c, hc, hrun⟩ := bind_eq_ok.1 hrun
  obtain ⟨text, htext, heq⟩ := map_eq_ok.1 hrun
  obtain ⟨hkeys, rfl⟩ := Prod.mk.inj heq
  exact ⟨d, c, hd, hc, hkeys, htext⟩

/-- The keys differ, and one property is declared and bound twice. -/
theorem source_repeats :
    let root := Node.ofJson (some []) labelledSets
    ∃ d c, Document.ofJson (.obj [("document", labelledSets)]) .null = .ok d ∧
      (d.assemble root).result = .ok c ∧ (OrderedMap.keys c.schema).Nodup ∧
      (OrderedMap.keys c.schema).map propertyName = ["label", "label"] ∧
      c.source = .ok cardSource := by
  obtain ⟨d, c, hd, hc, hkeys, htext⟩ := source_labelled
  refine ⟨d, c, hd, hc, ?_, ?_, htext⟩
  · rw [hkeys]
    decide
  · rw [hkeys]
    decide +kernel

theorem source_names_labelled :
    let root := Node.ofJson (some []) labelledSets
    ∃ d c, Document.ofJson (.obj [("document", labelledSets)]) .null = .ok d ∧
      (d.assemble root).result = .ok c ∧ c.IsTyped ∧ (∃ text, c.source = .ok text) ∧
      ¬ ((named c.schema).map Prod.fst).Nodup := by
  obtain ⟨d, c, hd, hc, hkeys, -⟩ := source_labelled
  obtain ⟨hsource, hassembled, hmark⟩ := source_names
  have hroot : (Node.ofJson (some []) labelledSets).IsScene :=
    ⟨some [], labelledSets, rfl, by decide⟩
  have htyped := hassembled _ _ d _ c (by decide) (by decide) hd hroot hc
  obtain ⟨text, htext, name, markup, -, -, -, hnames⟩ := hsource c htyped
  refine ⟨d, c, hd, hc, htyped, ⟨text, htext⟩, ?_⟩
  intro hnodup
  have hsame : propertyName ("Label" ++ "#" ++ "1:0") = propertyName ("Label" ++ "#" ++ "2:0") := by
    rw [hmark, hmark]
  have heq := hnames.1 hnodup "Label#1:0" (by simp [hkeys]) "Label#2:0" (by simp [hkeys])
    (propertyName_eq_iff.1 hsame)
  exact absurd heq (by decide)

end Component

end DesignComponents
