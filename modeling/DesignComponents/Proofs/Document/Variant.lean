import DesignComponents.Proofs.Document.Ownership

/-!
Which variant a node is, as its document tells it: a component by its name if its parent is a
component set, an instance by the properties set on it. The parent is the one that is told when it
is asked for by itself.
-/

namespace DesignComponents

namespace Shape

/-- A node whose name is a text and whose properties are objects. -/
def named : Shape :=
  record [("name", text), ("componentProperties", orNull (tableOf (record [])))]

end Shape

namespace Node

variable {n : Node}

/-- The property of an instance that selects a variant, with the text of its value. -/
def selection? (p : String × Json) : Option (String × String) :=
  if ((p.2.lookup? "type").getD .null).isText "VARIANT" then
    some (p.1, ((p.2.lookup? "value").getD .null).display)
  else none

/-- The variant properties that are set on an instance, in order. -/
def selections (n : Node) : OrderedMap String String :=
  match (n.value.lookup? "componentProperties").getD .null with
  | .obj fs => fs.filterMap selection?
  | _ => []

theorem get_of_named (hn : Shape.named n.value = true) (field : String) :
    ∃ v, n.value.get field = .ok v := by
  obtain ⟨fs, hfs, -⟩ := Shape.exists_of_record hn
  exact ⟨_, by rw [hfs, Json.get_obj]⟩

end Node

namespace Document

/-- The values that tell a variant, given the parent of a node. There is at least one if there are
any. -/
structure TellsVariant (n : Node) (parent : Option Node)
    (values : Option (OrderedMap String String)) : Prop where
  component : n.fieldText "type" = "COMPONENT" → ∀ m, values = some m ↔
    (∃ p, parent = some p ∧ p.fieldText "type" = "COMPONENT_SET") ∧
      m = VariantName.parse (n.fieldText "name") ∧ m ≠ []
  instance_ : n.fieldText "type" = "INSTANCE" → ∀ m, values = some m ↔ m = n.selections ∧ m ≠ []
  other : n.fieldText "type" ∉ ["COMPONENT", "INSTANCE"] → values = none

variable {d : Document} {n p : Node} {parent : Option Node}

theorem someValues_eq_some {m m' : OrderedMap String String} :
    someValues m = some m' ↔ m' = m ∧ m' ≠ [] := by
  unfold someValues
  cases m with
  | nil => simp
  | cons e m =>
    simp only [List.isEmpty_cons, Bool.false_eq_true, if_false, Option.some.injEq]
    constructor
    · rintro rfl
      simp
    · rintro ⟨rfl, -⟩
      rfl

namespace TellsVariant

theorem of_instance (h : n.fieldText "type" = "INSTANCE") :
    TellsVariant n parent (someValues n.selections) where
  component := by simp [h]
  instance_ := fun _ _ => someValues_eq_some
  other := by simp [h]

theorem of_variant (h : n.fieldText "type" = "COMPONENT")
    (hp : p.fieldText "type" = "COMPONENT_SET") :
    TellsVariant n (some p) (someValues (VariantName.parse (n.fieldText "name"))) where
  component := by simp [hp, someValues_eq_some]
  instance_ := by simp [h]
  other := by simp [h]

theorem of_single (h : n.fieldText "type" = "COMPONENT")
    (hp : ∀ p, parent = some p → p.fieldText "type" ≠ "COMPONENT_SET") :
    TellsVariant n parent none where
  component := by
    intro _ m
    simp only [reduceCtorEq, false_iff]
    rintro ⟨⟨p, hparent, hset⟩, -⟩
    exact hp p hparent hset
  instance_ := by simp [h]
  other := fun _ => rfl

theorem of_other (hi : n.fieldText "type" ≠ "INSTANCE") (hc : n.fieldText "type" ≠ "COMPONENT") :
    TellsVariant n parent none where
  component := fun h => absurd h hc
  instance_ := fun h => absurd h hi
  other := fun _ => rfl

theorem ne_nil {values : Option (OrderedMap String String)} (h : TellsVariant n parent values) :
    values ≠ some [] := by
  intro hnil
  by_cases hc : n.fieldText "type" = "COMPONENT"
  · exact ((h.component hc []).1 hnil).2.2 rfl
  by_cases hi : n.fieldText "type" = "INSTANCE"
  · exact ((h.instance_ hi []).1 hnil).2 rfl
  · simp [h.other (by simp [hc, hi])] at hnil

end TellsVariant

theorem variantValues_eq {fs : List (String × Json)}
    (h : ∀ f ∈ fs, Shape.record [] f.2 = true) :
    variantValues fs = .ok (fs.filterMap Node.selection?) := by
  induction fs with
  | nil => rfl
  | cons f fs ih =>
    rw [List.forall_mem_cons] at h
    obtain ⟨name, v⟩ := f
    obtain ⟨gs, rfl, -⟩ := Shape.exists_of_record h.1
    have hvariant : PropertyType.variant.name = "VARIANT" := rfl
    rw [variantValues, Json.get_obj, Json.get_obj, ih h.2]
    by_cases htype : ((gs.lookup "type").getD .null).isText "VARIANT" = true
    · have hselected : Node.selection? (name, .obj gs) =
          some (name, ((gs.lookup "value").getD .null).display) := if_pos htype
      simp [hvariant, htype, List.filterMap_cons_some hselected]
    · have hskipped : Node.selection? (name, .obj gs) = none := if_neg htype
      simp [hvariant, htype, List.filterMap_cons_none hskipped]

/-- The properties of an instance give what is selected by them. -/
theorem variantValues_properties (hn : Shape.named n.value = true) :
    ∃ properties fs, n.value.get "componentProperties" = .ok properties ∧
      properties.orEmpty.fields = .ok fs ∧ variantValues fs = .ok n.selections := by
  obtain ⟨properties, hget, hshape⟩ := Shape.record_get "componentProperties" hn rfl
  have hfield := Json.get_eq_ok hget
  rcases hshape.elim .inl fun h => Shape.orNull_iff.1 h with rfl | htable
  · exact ⟨.null, [], hget, rfl, by rw [Node.selections, hfield]; rfl⟩
  · obtain ⟨fs, rfl, hfs⟩ := Shape.exists_of_tableOf htable
    have hfields : (Json.obj fs).orEmpty.fields = .ok fs := by cases fs <;> rfl
    exact ⟨.obj fs, fs, hget, hfields, by rw [variantValues_eq hfs, Node.selections, hfield]⟩

namespace IsIndexed

variable {i : String} {l : Lineage Site}

theorem node?_empty (hd : d.IsIndexed) : d.node? (.str "") = none := by
  rw [hd.toIsPlain.node?_str, Option.map_eq_none_iff, Option.eq_none_iff_forall_ne_some]
  intro l hl
  obtain ⟨hmem, hid⟩ := Node.mem_of_last? hl
  have htext := hd.textIds l (Node.mem_identified.1 hmem).1
  rcases htext.get_id (Node.get_of_id? hid) with ⟨hnull, -⟩ | ⟨s, hs, heq, -⟩
  · cases hnull
  · exact hs (Json.str.inj heq).symm

/-- Where no identifier is empty, the empty one may stand for that of a missing parent. -/
theorem parent_eq_lookup (hd : d.IsIndexed) (h : d.root.last? i = some l) :
    (d.parent l.node).result =
      .ok (d.node? (((d.entry? (.str i)).bind Entry.parent).getD (.str ""))) := by
  have hentry : (d.entry? (.str i)).bind Entry.parent =
      (l.parent?.bind Node.id?).map .str := by
    rw [hd.toIsPlain.entry?_str, h]
    rfl
  rw [hd.parent_eq h, hentry]
  cases l.parent?.bind Node.id? with
  | none => rw [Option.map_none, Option.getD_none, hd.node?_empty, Option.bind_none]
  | some j => rw [Option.map_some, Option.getD_some, Option.bind_some]

/-- The nodes that the index holds are among those of the document. -/
theorem mem_of_node? (hd : d.IsIndexed) {k : Key} (h : d.node? k = some n) :
    ∃ l ∈ d.root.lineages, l.node = n := by
  obtain ⟨e, he, rfl⟩ := Option.map_eq_some_iff.1 h
  obtain ⟨i, l, -, hl, rfl⟩ := hd.toIsPlain.exists_of_entry? he
  exact ⟨l, (Node.mem_identified.1 (Node.mem_of_last? hl).1).1, rfl⟩

theorem variantProperties_yields (hd : d.IsIndexed)
    (hnodes : ∀ l ∈ d.root.lineages, Shape.named (Node.value l.node) = true)
    (h : d.root.last? i = some l) {parent : Option Node}
    (hparent : (d.parent l.node).result = .ok parent) :
    Yields (d.variantProperties l.node).result (TellsVariant l.node parent) := by
  have hnode := hnodes l (Node.mem_identified.1 (Node.mem_of_last? h).1).1
  obtain rfl := Except.ok.inj ((hd.parent_eq_lookup h).symm.trans hparent)
  obtain ⟨type, htype⟩ := Node.get_of_named hnode "type"
  simp only [variantProperties, Traced.bind_result, Traced.lift_result, hd.toIsPlain.require_eq h,
    htype, ok_bind]
  split
  case isTrue hinstance =>
    rw [Node.isText_iff htype (by decide)] at hinstance
    obtain ⟨properties, fs, hproperties, hfs, hvalues⟩ := variantValues_properties hnode
    simp only [Traced.bind_result, Traced.lift_result, hproperties, hfs, hvalues, ok_bind]
    exact Yields.ok_iff.2 (.of_instance hinstance)
  case isFalse hinstance =>
    rw [Node.isText_iff htype (by decide)] at hinstance
    split
    case isTrue hcomponent =>
      rw [Node.isText_iff htype (by decide)] at hcomponent
      cases hp : d.node? (((d.entry? (.str i)).bind Entry.parent).getD (.str "")) with
      | none => exact Yields.ok_iff.2 (.of_single hcomponent (by simp))
      | some p =>
        obtain ⟨l', hl', rfl⟩ := hd.mem_of_node? hp
        obtain ⟨kind, hkind⟩ := Node.get_of_named (hnodes l' hl') "type"
        simp only [Traced.bind_result, Traced.lift_result, hkind, ok_bind]
        split
        case isTrue hset =>
          rw [Node.isText_iff hkind (by decide)] at hset
          have hname := Node.getOr_text "name" hnode rfl
          simp only [Traced.bind_result, Traced.lift_result, hname, ok_bind, Json.text_str]
          exact Yields.ok_iff.2 (.of_variant hcomponent hset)
        case isFalse hset =>
          rw [Node.isText_iff hkind (by decide)] at hset
          exact Yields.ok_iff.2 (.of_single hcomponent (by simpa using hset))
    case isFalse hcomponent =>
      rw [Node.isText_iff htype (by decide)] at hcomponent
      exact Yields.ok_iff.2 (.of_other hinstance hcomponent)

end IsIndexed

/-- A document whose identifiers are texts that are not empty, be they repeated or not, tells of
each node that it holds the parent and the variant, and the second by the first. -/
theorem variantProperties_tells {file variableFile : Json} (hd : ofJson file variableFile = .ok d)
    (hids : d.root.HasTextIds)
    (hnodes : ∀ l ∈ d.root.lineages, Shape.named (Node.value l.node) = true) (hn : d.Indexes n) :
    ∃ parent values, (d.parent n).result = .ok parent ∧
      (d.variantProperties n).result = .ok values ∧ TellsVariant n parent values ∧
      values ≠ some [] := by
  obtain ⟨root, -, hroot, hindex⟩ := root_of_ofJson hd
  have hindexed : d.IsIndexed := .of_ofRoot ⟨root, hroot⟩ hindex hids
  obtain ⟨i, l, hl, rfl⟩ := hindexed.toIsPlain.exists_last?_of_indexes hn
  have hparent := hindexed.parent_eq hl
  obtain ⟨values, hvalues, htells⟩ := hindexed.variantProperties_yields hnodes hl hparent
  exact ⟨_, values, hparent, hvalues, htells, htells.ne_nil⟩

def largeButton : Json :=
  .obj [("id", .str "2"), ("type", .str "COMPONENT"),
    ("name", .str "Size=Small, State=On hover, Size = Large")]

def smallButton : Json :=
  let property (type : String) (value : Json) : Json :=
    .obj [("type", .str type), ("value", value)]
  .obj [("id", .str "3"), ("type", .str "INSTANCE"), ("componentProperties", .obj [
    ("Size", property "VARIANT" (.str "Small")), ("Label#1:0", property "TEXT" (.str "Send")),
    ("Round", property "VARIANT" (.bool true))])]

/-- A component in a frame whose identifier comes again at a component set, and an instance. -/
def buttons : Json :=
  let scene (id type : String) (children : List Json) : Json :=
    .obj [("id", .str id), ("type", .str type), ("children", .arr children)]
  scene "0" "CANVAS" [scene "1" "FRAME" [largeButton], scene "1" "COMPONENT_SET" [], smallButton]

theorem variantProperties_tells_buttons :
    let component := Node.ofJson (some [0, 0]) largeButton
    let shown := Node.ofJson (some [2]) smallButton
    ∃ d set parent, ofJson (.obj [("document", buttons)]) .null = .ok d ∧
      d.Indexes component ∧ d.Indexes shown ∧ (d.parent component).result = .ok set ∧
      TellsVariant component set (some [("Size", "Large"), ("State", "On hover")]) ∧
      TellsVariant shown parent (some [("Size", "Small"), ("Round", "True")]) := by
  intro component shown
  have hrun : (ofJson (.obj [("document", buttons)]) .null >>= fun d =>
      (d.variantProperties component).result >>= fun large =>
        (d.variantProperties shown).result.map fun small => (large, small)).toOption =
      some (some [("Size", "Large"), ("State", "On hover")],
        some [("Size", "Small"), ("Round", "True")]) := by
    decide +kernel
  simp only [toOption_eq_some, bind_eq_ok, map_eq_ok, Prod.mk.injEq] at hrun
  obtain ⟨d, hd, _, hlarge, _, hsmall, rfl, rfl⟩ := hrun
  obtain ⟨root, hroot, heq, -⟩ := root_of_ofJson hd
  obtain rfl : buttons = root := Except.ok.inj hroot
  have hlineages : ∀ l ∈ d.root.lineages,
      Node.HasTextId l.node ∧ Shape.named (Node.value l.node) = true := by
    rw [heq]
    decide
  have hheld : d.Indexes component ∧ d.Indexes shown := by
    obtain rfl := Except.ok.inj (hd.symm.trans rfl)
    exact ⟨⟨"2", rfl, rfl⟩, ⟨"3", rfl, rfl⟩⟩
  have htells (n : Node) (hn : d.Indexes n) := variantProperties_tells hd
    (fun l hl => (hlineages l hl).1) (fun l hl => (hlineages l hl).2) hn
  obtain ⟨set, _, hset, hlarge', hcomponent, -⟩ := htells component hheld.1
  obtain ⟨parent, _, -, hsmall', hshown, -⟩ := htells shown hheld.2
  obtain rfl := Except.ok.inj (hlarge.symm.trans hlarge')
  obtain rfl := Except.ok.inj (hsmall.symm.trans hsmall')
  exact ⟨d, set, parent, hd, hheld.1, hheld.2, hset, hcomponent, hshown⟩

end Document

end DesignComponents
