import DesignComponents.Document.Query
import DesignComponents.Proofs.Css.Regular
import DesignComponents.Proofs.Outline.Pruned
import DesignComponents.Proofs.Property.Schema

/-!
Documents of regular data. All their nodes are regular, and so is what they tell about a node.
-/

namespace DesignComponents

/-- The values of the node and of those below it are regular. -/
def Node.IsRegular (n : Node) : Prop := ∀ s ∈ n.preorder, s.value.IsRegular

namespace Node

variable {n : Node} {v : Json}

theorem isRegular_node {s : Site} {ns : List Node} :
    IsRegular (.node s ns) ↔ s.value.IsRegular ∧ ∀ n ∈ ns, n.IsRegular := by
  simp only [IsRegular, Tree.preorder_node, List.forall_mem_cons, List.mem_flatMap,
    forall_exists_index, and_imp]
  exact and_congr_right fun _ => ⟨fun h n hn s hs => h s n hn hs, fun h s n hn hs => h n hn s hs⟩

theorem IsRegular.value (h : n.IsRegular) : n.value.IsRegular := by
  cases n
  exact (isRegular_node.1 h).1

theorem IsRegular.children (h : n.IsRegular) : ∀ m ∈ n.children, IsRegular m := by
  cases n
  exact (isRegular_node.1 h).2

theorem isRegular_bare (s : String) : (bare (.str s)).IsRegular :=
  isRegular_node.2 ⟨.str s, List.forall_mem_nil _⟩

theorem isRegular_ofElements {xs : List Json}
    (h : ∀ x ∈ xs, ∀ place, (ofJson place x).IsRegular) (place : Option Place) (i : Nat) :
    ∀ n ∈ ofElements place i xs, n.IsRegular := by
  induction xs generalizing i with
  | nil => exact List.forall_mem_nil _
  | cons x xs ih =>
    rw [List.forall_mem_cons] at h
    exact List.forall_mem_cons.2 ⟨h.1 _, ih h.2 (i + 1)⟩

/-- A node is made of its own data and of that of its children, which are found in a list below. -/
theorem isRegular_ofJson (hv : v.IsRegular) : ∀ place,
    (ofJson place v).IsRegular ∧ ∀ n ∈ childrenOf place v, n.IsRegular := by
  have hleaf {v : Json} (hv : v.IsRegular) (place : Option Place) :
      IsRegular (.node ⟨v, place⟩ []) := isRegular_node.2 ⟨hv, List.forall_mem_nil _⟩
  induction hv with
  | null => exact fun place => ⟨hleaf .null place, List.forall_mem_nil _⟩
  | bool b => exact fun place => ⟨hleaf (.bool b) place, List.forall_mem_nil _⟩
  | num hn => exact fun place => ⟨hleaf (.num hn) place, List.forall_mem_nil _⟩
  | str s =>
    refine fun place => ⟨hleaf (.str s) place, fun n hn => ?_⟩
    obtain ⟨c, -, rfl⟩ := List.mem_map.1 hn
    exact isRegular_bare _
  | arr h ih =>
    exact fun place => ⟨hleaf (.arr h) place, isRegular_ofElements (fun x hx p => (ih x hx p).1) _ _⟩
  | @obj fs hkeys h ih =>
    refine fun place => ⟨isRegular_node.2 ⟨.obj hkeys h, ?_⟩, fun n hn => ?_⟩
    · rw [childrenIn_eq]
      cases hcs : fs.lookup "children" with
      | none => exact List.forall_mem_nil _
      | some cs =>
        obtain ⟨before, after, rfl, -⟩ := List.lookup_eq_some_iff.1 hcs
        exact (ih ("children", cs) (List.mem_append_right _ (.head _)) place).2
    · obtain ⟨f, -, rfl⟩ := List.mem_map.1 hn
      exact isRegular_bare _

end Node

/-! ### The index -/

def Index.IsRegular (index : Index) : Prop := ∀ e ∈ index, e.2.node.IsRegular

namespace Index

mutual

theorem addNode_regular {parent : Option Key} {index : Index} (hi : index.IsRegular) :
    ∀ {n : Node}, n.IsRegular → Returns (addNode parent index n) IsRegular
  | .node site children, hn => by
    rw [addNode]
    refine Returns.step fun id _ => ?_
    split
    · exact hi
    · refine Returns.step fun key _ => Returns.step fun _ _ => Returns.step fun _ _ => ?_
      have hput : IsRegular (OrderedMap.put key ⟨.node site children, parent⟩ index) :=
        OrderedMap.forall_mem_put (P := fun _ (e : Entry) => e.node.IsRegular) hi hn fun _ _ => hn
      exact addChildren_regular hput (Node.isRegular_node.1 hn).2

theorem addChildren_regular {parent : Key} {index : Index} (hi : index.IsRegular) :
    ∀ {ns : List Node}, (∀ n ∈ ns, n.IsRegular) → Returns (addChildren parent index ns) IsRegular
  | [], _ => by
    rw [addChildren]
    exact hi
  | n :: ns, hns => by
    rw [List.forall_mem_cons] at hns
    rw [addChildren]
    exact (addNode_regular hi hns.1).bind fun _ hi => addChildren_regular hi hns.2

end

end Index

/-! ### What is told about a node -/

/-- The identifier, name and key of a component are regular. -/
structure MainComponent.IsRegular (m : MainComponent) : Prop where
  id : m.id.IsRegular
  name : m.name.IsRegular
  key : m.key.IsRegular

namespace PropertyDefinition

theorem isRegular_toJson {d : PropertyDefinition} (hdefault : d.default.IsRegular)
    (hoptions : ∀ xs ∈ d.options, (Json.arr xs).IsRegular) : d.toJson.IsRegular := by
  obtain ⟨type, default, options⟩ := d
  cases default <;> cases options <;> refine .obj (by simp) ?_ <;> simp_all

theorem Declares.isRegular {f : String × Json} {p : String × PropertyDefinition} (h : Declares f p)
    (hf : f.2.IsRegular) : p.2.toJson.IsRegular := by
  have hdefault := (hf.get "defaultValue").of_ok h.default
  obtain ⟨given, hgiven, hlists⟩ := h.options
  have hgiven := (hf.get "variantOptions").of_ok hgiven
  refine isRegular_toJson hdefault fun xs hxs => ?_
  rw [Option.mem_def.1 hxs] at hlists
  cases hlists with
  | given hxs => exact hgiven.elements.of_ok hxs

end PropertyDefinition

namespace Schema

theorem fields_of_declares {fs : List (String × Json)} {s : Schema}
    (h : List.Forall₂ PropertyDefinition.Declares fs s) (hfs : ∀ f ∈ fs, f.2.IsRegular) :
    OrderedMap.keys s.toFields = OrderedMap.keys fs ∧ ∀ g ∈ s.toFields, g.2.IsRegular := by
  induction h with
  | nil => exact ⟨rfl, List.forall_mem_nil _⟩
  | cons hfirst _ ih =>
    rw [List.forall_mem_cons] at hfs
    obtain ⟨hkeys, hvalues⟩ := ih hfs.2
    refine ⟨?_, List.forall_mem_cons.2 ⟨hfirst.isRegular hfs.1, hvalues⟩⟩
    rw [toFields_cons, OrderedMap.keys_cons, OrderedMap.keys_cons, hkeys, hfirst.name]

theorem parse_regular {raw : Json} (hraw : raw.IsRegular) :
    Returns (parse raw).result fun s => s.toJson.IsRegular := by
  simp only [parse, Traced.bind_result, Traced.lift_result]
  refine hraw.fields.bind fun fs hfs => Returns.of_forall fun s hs => ?_
  obtain ⟨hdistinct, hfs⟩ := Json.isRegular_obj.1 hfs
  have hkept : (kept fs).Sublist fs := List.filter_sublist
  obtain ⟨hkeys, hvalues⟩ :=
    fields_of_declares (declares_of_parseFields hs) fun f hf => hfs f (hkept.subset hf)
  exact .obj (hkeys ▸ (hkept.map Prod.fst).nodup hdistinct) hvalues

end Schema

structure Document.IsRegular (d : Document) : Prop where
  index : d.index.IsRegular
  components : d.components.IsRegular

namespace Document

variable {d : Document} {n : Node}

/-- A document of regular data is regular, whatever its variables are. -/
theorem ofJson_regular {file : Json} (hfile : file.IsRegular) (variableFile : Json) :
    Returns (ofJson file variableFile) IsRegular := by
  rw [ofJson]
  refine (hfile.orEmpty.getOr "document" Json.isRegular_obj_nil).bind fun root hroot => ?_
  refine (hfile.orEmpty.getOr "components" Json.isRegular_obj_nil).bind fun components hc => ?_
  refine Returns.step fun _ _ => Returns.step fun _ _ => Returns.step fun _ _ => ?_
  have hindex : Returns (Index.ofRoot (Node.ofJson (some []) root)) Index.IsRegular :=
    Index.addNode_regular (List.forall_mem_nil _) (Node.isRegular_ofJson hroot (some [])).1
  exact hindex.bind fun index hi => ⟨hi, hc.orEmpty⟩

theorem IsRegular.node (hd : d.IsRegular) {k : Key} {m : Node} (h : d.node? k = some m) :
    m.IsRegular := by
  obtain ⟨e, he, rfl⟩ := Option.map_eq_some_iff.1 h
  obtain ⟨k', -, hmem⟩ := OrderedMap.exists_mem_of_get? he
  exact hd.index _ hmem

theorem select_regular (hd : d.IsRegular) (ids : List Json) :
    Returns (d.select ids).result fun ns => ∀ n ∈ ns, n.IsRegular := by
  induction ids with
  | nil => exact List.forall_mem_nil _
  | cons id ids ih =>
    simp only [select, Traced.bind_result, Traced.lift_result]
    refine Returns.step fun key _ => ?_
    cases hm : d.node? key with
    | none =>
      simp only [Traced.bind_result, Traced.warn_result, ok_bind]
      exact ih
    | some m =>
      simp only [Traced.bind_result, Traced.pure_result]
      exact ih.bind fun ns hns => List.forall_mem_cons.2 ⟨hd.node hm, hns⟩

/-! ### What is told about a node -/

theorem css_regular (d : Document) (hn : n.IsRegular) :
    Returns (d.css n).result fun r => ∀ css ∈ r, (Json.obj css).IsRegular := by
  simp only [css, Traced.bind_result, Traced.lift_result]
  refine Returns.step fun _ _ => (Css.extract_regular hn.value).bind fun css hcss => ?_
  simpa using hcss

theorem componentData_regular (hd : d.IsRegular) (id : Json) :
    Returns (d.componentData id) Json.IsRegular := by
  have hc := hd.components
  unfold componentData
  split
  case h_1 fs heq =>
    rw [heq, Json.isRegular_obj] at hc
    refine Returns.step fun key _ => ?_
    split
    · exact Json.IsRegular.lookup hc.2 Json.isRegular_obj_nil _
    · exact Json.isRegular_obj_nil
  case h_2 => trivial

theorem mainComponent_regular (hd : d.IsRegular) (hn : n.IsRegular) :
    Returns (d.mainComponent n).result fun r => ∀ m ∈ r, m.IsRegular := by
  have hempty : (Json.str "").IsRegular := .str ""
  simp only [mainComponent, Traced.bind_result, Traced.lift_result]
  refine Returns.step fun _ _ => (hn.value.get "componentId").bind fun id hid => ?_
  split
  case isFalse => simp
  case isTrue =>
    simp only [Traced.bind_result, Traced.lift_result]
    refine (componentData_regular hd id).bind fun data hdata => Returns.step fun key _ => ?_
    have hmain {name : Json} (hname : name.IsRegular) (node : Option Node) :
        Returns (do pure (some ⟨id, name, ← data.getOr "key" (.str ""), node⟩) :
          Traced (Option MainComponent)).result fun r => ∀ m ∈ r, m.IsRegular := by
      simp only [Traced.bind_result, Traced.lift_result]
      refine (hdata.getOr "key" hempty).bind fun key hkey => ?_
      simpa using ⟨hid, hname, hkey⟩
    cases hm : d.node? key with
    | none =>
      dsimp only
      split
      case isFalse => simp
      case isTrue =>
        rw [Traced.bind_result, Traced.lift_result]
        exact (hdata.getOr "name" hempty).bind fun name hname => hmain hname none
    | some m =>
      simp only [Traced.bind_result, Traced.lift_result]
      refine ((hd.node hm).value.get "name").bind fun own hown => ?_
      split
      · exact hmain hown (some m)
      · rw [Traced.bind_result, Traced.lift_result]
        exact (hdata.getOr "name" hempty).bind fun name hname => hmain hname (some m)

theorem propertyDefinitions_regular (d : Document) (hn : n.IsRegular) :
    Returns (d.propertyDefinitions n).result fun r => ∀ s ∈ r, s.toJson.IsRegular := by
  simp only [propertyDefinitions, Traced.bind_result, Traced.lift_result]
  refine Returns.step fun _ _ => ?_
  refine (hn.value.get "componentPropertyDefinitions").bind fun raw hraw => ?_
  split
  case isFalse => simp
  case isTrue =>
    simp only [Traced.bind_result]
    refine (Schema.parse_regular hraw).bind fun s hs => ?_
    simpa using hs

theorem keys_variantValues (ps : List (String × Json)) :
    Returns (variantValues ps) fun m => (OrderedMap.keys m).Sublist (OrderedMap.keys ps) := by
  induction ps with
  | nil => exact .slnil
  | cons p ps ih =>
    rw [variantValues]
    refine Returns.step fun type _ => Returns.step fun value _ => ih.bind fun rest hrest => ?_
    rw [pure_eq_ok, Ends.ok_iff]
    split
    · exact hrest.cons_cons _
    · exact hrest.cons _

theorem nodup_someValues {m : OrderedMap String String} (h : (OrderedMap.keys m).Nodup) :
    ∀ m' ∈ someValues m, (OrderedMap.keys m').Nodup := by
  unfold someValues
  split <;> simp [h]

theorem variantProperties_regular (d : Document) (hn : n.IsRegular) :
    Returns (d.variantProperties n).result fun r => ∀ m ∈ r, (OrderedMap.keys m).Nodup := by
  simp only [variantProperties, Traced.bind_result, Traced.lift_result]
  refine Returns.step fun id _ => Returns.step fun type _ => ?_
  split
  · simp only [Traced.bind_result, Traced.lift_result]
    refine (hn.value.get "componentProperties").bind fun ps hps => ?_
    refine hps.orEmpty.fields.bind fun fs hfs => (keys_variantValues fs).bind fun m hm => ?_
    exact nodup_someValues (hm.nodup (Json.isRegular_obj.1 hfs).1)
  · split
    · split
      · simp
      · simp only [Traced.bind_result, Traced.lift_result]
        refine Returns.step fun _ _ => ?_
        split
        · simp only [Traced.bind_result, Traced.lift_result]
          refine Returns.step fun _ _ => Returns.step fun name _ => ?_
          exact nodup_someValues (OrderedMap.nodup_ofList _)
        · simp
    · simp

end Document

end DesignComponents
