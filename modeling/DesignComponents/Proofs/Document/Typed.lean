import DesignComponents.Document.Basic
import DesignComponents.Proofs.OrderedMap
import DesignComponents.Proofs.Scene.Shape

/-!
Files and variables with fields of their types, and the documents made from them. A document's
index holds nodes of such a file only, each under its own identifier.
-/

namespace DesignComponents

namespace Shape

def component : Shape := record [("name", text), ("key", text)]

def file : Shape := record [("document", scene), ("components", tableOf component)]

/-- A value of a variable; an alias names its target. -/
def variableValue : Shape
  | .obj fs => record [("type", text), ("id", text)] (.obj fs)
  | .arr _ | .null => false
  | _ => true

def variable_ : Shape :=
  record [("name", text), ("resolvedType", text), ("description", text),
    ("valuesByMode", tableOf variableValue)]

def mode : Shape := fun v => has "modeId" text v && record [("name", text)] v

def collection : Shape :=
  record [("name", text), ("modes", listOf mode), ("variableIds", listOf text)]

def variableFile : Shape :=
  record [("meta", record [("variables", tableOf variable_),
    ("variableCollections", tableOf collection)])]

theorem orEmpty_tableOf {s : Shape} {v : Json} (h : v = .null ∨ tableOf s v = true) :
    tableOf s v.orEmpty = true := by
  rcases h with rfl | h
  · simp [Json.orEmpty, tableOf]
  · obtain ⟨fs, rfl, -⟩ := exists_of_tableOf h
    cases fs <;> simpa [Json.orEmpty] using h

end Shape

/-- The entry is a node of a scene, part of its document, under its own identifier. -/
structure Entry.IsTyped (k : Key) (e : Entry) : Prop where
  scene : e.node.IsScene
  placed : e.node.place.isSome
  id : ∃ s, k = .str s ∧ e.node.value.get "id" = .ok (.str s)
  parent : ∀ p, e.parent = some p → ∃ s, p = .str s

def Index.IsTyped (index : Index) : Prop := ∀ e ∈ index, e.2.IsTyped e.1

namespace Index

mutual

theorem addNode_yields {parent : Option Key} {index : Index} (hi : index.IsTyped)
    (hp : ∀ p, parent = some p → ∃ s, p = .str s) :
    ∀ {n : Node}, n.IsScene → n.place.isSome → Yields (addNode parent index n) IsTyped
  | .node site children, hn, hplace => by
    rw [addNode]
    obtain ⟨id, hid, hshape⟩ := Shape.record_get "id" hn.node rfl
    rw [Node.value_node] at hid
    rw [hid, ok_bind]
    rcases hshape with rfl | hshape
    · exact Yields.ok_iff.2 hi
    · obtain ⟨s, rfl⟩ := Shape.exists_of_text hshape
      obtain ⟨cs, hcs, hlist⟩ := Shape.record_get "children" hn.node rfl
      obtain ⟨xs, hxs, -⟩ := Shape.elementsOrNone_listOf hlist
      rw [Node.value_node] at hcs
      simp only [Json.key_str, ok_bind, hcs, hxs]
      have hput : IsTyped (OrderedMap.put (.str s) ⟨.node site children, parent⟩ index) := by
        have hentry : Entry.IsTyped (.str s) ⟨.node site children, parent⟩ :=
          ⟨hn, hplace, ⟨s, rfl, hid⟩, hp⟩
        refine OrderedMap.forall_mem_put hi hentry ?_
        intro k hk
        rw [Key.beq_str_iff.1 hk]
        exact hentry
      refine addChildren_yields hput ?_
      intro m hm
      obtain ⟨hscene, hplaced⟩ := hn.mem_children hm
      exact ⟨hscene, hplaced hplace⟩

theorem addChildren_yields {s : String} {index : Index} (hi : index.IsTyped) :
    ∀ {ns : List Node}, (∀ n ∈ ns, n.IsScene ∧ n.place.isSome) →
      Yields (addChildren (.str s) index ns) IsTyped
  | [], _ => by
    rw [addChildren]
    exact Yields.ok_iff.2 hi
  | n :: ns, hns => by
    rw [addChildren]
    obtain ⟨hscene, hplaced⟩ := hns n (.head _)
    apply (addNode_yields hi (by simp) hscene hplaced).bind
    intro index hi
    exact addChildren_yields hi fun m hm => hns m (.tail _ hm)

end

end Index

structure Document.IsTyped (d : Document) : Prop where
  index : d.index.IsTyped
  components : Shape.tableOf Shape.component d.components = true
  variableData : Shape.tableOf Shape.variable_ d.variableData = true
  collectionData : Shape.tableOf Shape.collection d.collectionData = true

namespace Document

theorem ofRoot_yields {root : Json} (h : Shape.scene root = true) :
    Yields (Index.ofRoot (Node.ofJson (some []) root)) Index.IsTyped :=
  Index.addNode_yields (by simp [Index.IsTyped]) (by simp) ⟨_, root, rfl, h⟩
    (by simp [Node.place_ofJson])

theorem ofJson_yields {file variableFile : Json} (hf : Shape.file file = true)
    (hv : Shape.orNull Shape.variableFile variableFile = true) :
    Yields (ofJson file variableFile) IsTyped := by
  have hf : Shape.file file.orEmpty = true := Shape.orEmpty_record (.inr hf)
  have hv : Shape.variableFile variableFile.orEmpty = true :=
    Shape.orEmpty_record (Shape.orNull_iff.1 hv)
  apply (Shape.record_getOr "document" hf rfl rfl).bind
  intro root hr
  apply (Shape.record_getOr "components" hf rfl rfl).bind
  intro components hc
  apply (Shape.record_getOr "meta" hv rfl rfl).bind
  intro data hd
  have hd := Shape.orEmpty_record (.inr hd)
  apply (Shape.record_getOr "variables" hd rfl rfl).bind
  intro vars hvars
  apply (Shape.record_getOr "variableCollections" hd rfl rfl).bind
  intro collections hcol
  apply (ofRoot_yields hr).bind
  intro index hi
  exact Yields.ok_iff.2
    { index := hi
      components := Shape.orEmpty_tableOf (.inr hc)
      variableData := Shape.orEmpty_tableOf (.inr hvars)
      collectionData := Shape.orEmpty_tableOf (.inr hcol) }

variable {d : Document} {n : Node}

theorem typed_of_file {file variableFile : Json} (hf : Shape.file file = true)
    (hv : Shape.orNull Shape.variableFile variableFile = true)
    (h : ofJson file variableFile = .ok d) : d.IsTyped := by
  obtain ⟨d', hd', htyped⟩ := ofJson_yields hf hv
  exact Except.ok.inj (hd'.symm.trans h) ▸ htyped

theorem IsTyped.entry (hd : d.IsTyped) {s : String} {e : Entry}
    (h : d.entry? (.str s) = some e) : e.IsTyped (.str s) := by
  obtain ⟨k, hk, hmem⟩ := OrderedMap.exists_mem_of_get? h
  rw [← Key.beq_str_iff.1 hk]
  exact hd.index _ hmem

/-- A node that the index holds under its identifier. -/
def Holds (d : Document) (m : Node) : Prop := ∃ s, d.node? (.str s) = some m

theorem IsTyped.scene (hd : d.IsTyped) (h : d.Holds n) : n.IsScene := by
  obtain ⟨s, hs⟩ := h
  obtain ⟨e, he, rfl⟩ := Option.map_eq_some_iff.1 hs
  exact (hd.entry he).scene

/-- What the index holds is the document's own. -/
theorem IsTyped.require_eq (hd : d.IsTyped) (h : d.Holds n) :
    ∃ s, n.value.get "id" = .ok (.str s) ∧ d.require n = .ok (.str s) := by
  obtain ⟨s, hs⟩ := h
  obtain ⟨e, he, rfl⟩ := Option.map_eq_some_iff.1 hs
  have ht := hd.entry he
  obtain ⟨t, ht', hid⟩ := ht.id
  obtain rfl := Key.str.inj ht'
  exact ⟨s, hid, by simp [require, hid, hs, ht.placed]⟩

theorem require_ends (d : Document) (hn : n.IsScene) :
    Ends Fault.IsForeign (d.require n) fun k => ∃ s, k = .str s := by
  obtain ⟨id, hid, hshape⟩ := Shape.record_get "id" hn.node rfl
  rcases hshape with rfl | hshape
  · simp [require, hid, Fault.IsForeign]
  · obtain ⟨s, rfl⟩ := Shape.exists_of_text hshape
    rw [require, hid]
    simp only [ok_bind, Json.key_str]
    split
    · split
      · exact Ends.ok_iff.2 ⟨s, rfl⟩
      · exact ⟨_, rfl⟩
    · exact ⟨_, rfl⟩

end Document

end DesignComponents
