import DesignComponents.Document.Query
import DesignComponents.Proofs.Document.Typed
import DesignComponents.Proofs.Scene.Identified
import Mathlib.Data.List.Induction

/-!
What the index of a document holds: of the nodes that have an identifier, as all above them do, the
last one with each identifier, together with the identifier of its parent.
-/

namespace DesignComponents

theorem Key.str_beq_iff {k : Key} {s : String} : (.str s == k) = true ↔ k = .str s := by
  cases k <;> simp [BEq.beq, same, number?, eq_comm]

namespace OrderedMap

variable {α : Type}

theorem get?_put_str (k : Key) (s : String) (a : α) (m : OrderedMap Key α) :
    get? k (put (.str s) a m) = if k = .str s then some a else get? k m := by
  induction m with
  | nil => simp [put, get?, Key.str_beq_iff]
  | cons e m ih =>
    by_cases he : e.1 == .str s
    · rw [Key.beq_str_iff] at he
      by_cases hk : k = .str s
      · simp [put, get?, he, hk]
      · have hne : (Key.str s == k) = false := by simpa [← Key.str_beq_iff] using hk
        simp [put, get?, he, hk, hne]
    · rw [Bool.not_eq_true] at he
      simp only [put, he, get?, ih, Bool.false_eq_true, if_false]
      by_cases hek : e.1 == k
      · have hk : k ≠ .str s := by
          rintro rfl
          simp [hek] at he
        simp [hek, hk]
      · simp [hek]

end OrderedMap

namespace Lineage

/-- What the index is to hold of a node. -/
def entry (l : Lineage Site) : Key × Entry :=
  (.str (l.id?.getD ""), ⟨l.node, (l.parent?.bind Node.id?).map .str⟩)

end Lineage

namespace Index

open Node Lineage

mutual

/-- The entries that a node and those below it add. -/
theorem addNode_eq {above : List Node} {index index' : Index}
    (habove : ∀ m ∈ above, (id? m).isSome) :
    ∀ {n : Node}, (∀ l ∈ n.lineagesFrom above, HasPlainId l.node) →
      addNode ((above.head?.bind id?).map .str) index n = .ok index' →
      index' = OrderedMap.merge index (((n.lineagesFrom above).filter isIdentified).map entry)
  | .node site children, hids, h => by
    rw [addNode] at h
    obtain ⟨v, hv, h⟩ := bind_eq_ok.1 h
    have hself := hids ⟨.node site children, above⟩ (by simp [Tree.lineagesFrom])
    rcases hself.get_id hv with ⟨rfl, hnone⟩ | ⟨s, rfl, hsome⟩
    · have hfilter : ((Tree.node site children).lineagesFrom above).filter isIdentified = [] := by
        rw [List.filter_eq_nil_iff]
        intro l hl hidentified
        have hmem := (Tree.path_suffix hl).subset (List.mem_cons_self ..)
        have := List.all_eq_true.1 hidentified _ hmem
        simp [hnone] at this
      obtain rfl : index = index' := Except.ok.inj h
      rw [hfilter]
      rfl
    · simp only [Json.key_str, ok_bind] at h
      obtain ⟨cs, -, h⟩ := bind_eq_ok.1 h
      obtain ⟨-, -, h⟩ := bind_eq_ok.1 h
      have hhere : isIdentified ⟨.node site children, above⟩ = true := by
        simp only [isIdentified, path_mk, List.all_cons, hsome, Option.isSome_some, Bool.true_and,
          List.all_eq_true]
        exact habove
      rw [Tree.lineagesFrom, Tree.lineagesFromAll_eq] at hids ⊢
      rw [List.filter_cons_of_pos hhere, List.map_cons, OrderedMap.merge_cons]
      have hpath : ∀ m ∈ Tree.node site children :: above, (id? m).isSome := by
        simpa [hsome] using habove
      have hentry : entry ⟨.node site children, above⟩ =
          (.str s, ⟨.node site children, (above.head?.bind id?).map .str⟩) := by
        simp [entry, Lineage.id?, parent?, hsome]
      rw [hentry]
      exact addChildren_eq hpath (by simp [hsome]) (fun l hl => hids l (.tail _ hl)) h

theorem addChildren_eq {above : List Node} {index index' : Index} {s : String}
    (habove : ∀ m ∈ above, (id? m).isSome) (hs : above.head?.bind id? = some s) :
    ∀ {ns : List Node}, (∀ l ∈ ns.flatMap (Tree.lineagesFrom above), HasPlainId l.node) →
      addChildren (.str s) index ns = .ok index' →
      index' = OrderedMap.merge index
        (((ns.flatMap (Tree.lineagesFrom above)).filter isIdentified).map entry)
  | [], _, h => by
    obtain rfl : index = index' := Except.ok.inj h
    rfl
  | n :: ns, hids, h => by
    rw [addChildren] at h
    obtain ⟨middle, hmiddle, h⟩ := bind_eq_ok.1 h
    have hn : ∀ l ∈ n.lineagesFrom above, HasPlainId l.node := fun l hl => hids l (by simp [hl])
    have hns : ∀ l ∈ ns.flatMap (Tree.lineagesFrom above), HasPlainId l.node := by
      intro l hl
      exact hids l (by simp only [List.flatMap_cons, List.mem_append, hl, or_true])
    have hparent : (some (Key.str s) : Option Key) = (above.head?.bind id?).map .str := by
      rw [hs]
      rfl
    rw [hparent] at hmiddle
    rw [addChildren_eq habove hs hns h, addNode_eq habove hn hmiddle, List.flatMap_cons,
      List.filter_append, List.map_append, OrderedMap.merge_append]

end

mutual

theorem addNode_of_element {parent : Option Key} {above : List Node} {index : Index} :
    ∀ {n : Node},
      (∀ l ∈ n.lineagesFrom above, HasTextId l.node ∧ Shape.element (value l.node) = true) →
      Yields (addNode parent index n) fun _ => True
  | .node site children, h => by
    obtain ⟨htext, helement⟩ := h ⟨.node site children, above⟩ (by simp [Tree.lineagesFrom])
    rw [Tree.lineagesFrom, Tree.lineagesFromAll_eq] at h
    obtain ⟨fs, hfs, -⟩ := Shape.exists_of_record helement
    have hget : site.value.get "id" = .ok ((fs.lookup "id").getD .null) := by
      rw [value_node] at hfs
      rw [hfs, Json.get_obj]
    rw [addNode, hget, ok_bind]
    rcases htext.get_id hget with ⟨hnull, -⟩ | ⟨s, -, hs, -⟩
    · simp [hnull]
    · obtain ⟨cs, hcs, xs, hxs, -⟩ := children_yields helement
      rw [value_node] at hcs
      simp only [hs, Json.key_str, ok_bind, hcs, hxs]
      exact addChildren_of_element fun l hl => h l (.tail _ hl)

theorem addChildren_of_element {parent : Key} {above : List Node} {index : Index} :
    ∀ {ns : List Node},
      (∀ l ∈ ns.flatMap (Tree.lineagesFrom above),
        HasTextId l.node ∧ Shape.element (value l.node) = true) →
      Yields (addChildren parent index ns) fun _ => True
  | [], _ => by
    rw [addChildren]
    exact Yields.ok_iff.2 trivial
  | n :: ns, h => by
    rw [List.flatMap_cons] at h
    rw [addChildren]
    apply (addNode_of_element fun l hl => h l (List.mem_append_left _ hl)).bind
    intro index _
    exact addChildren_of_element fun l hl => h l (List.mem_append_right _ hl)

end

/-- The last entry with a key counts. -/
theorem get?_entries (k : Key) (ls : List (Lineage Site)) :
    OrderedMap.get? k (OrderedMap.merge [] (ls.map entry)) =
      ((ls.filter fun l => l.entry.1 = k).getLast?).map fun l => l.entry.2 := by
  induction ls using List.reverseRecOn with
  | nil => rfl
  | append_singleton ls l ih =>
    rw [List.map_append, OrderedMap.merge_append, List.filter_append, List.getLast?_append]
    change OrderedMap.get? k (OrderedMap.put (.str _) _ _) = _
    rw [OrderedMap.get?_put_str, ih]
    by_cases hk : k = .str (l.id?.getD "")
    · subst hk
      simp [entry]
    · have hne : ¬ l.entry.1 = k := fun h => hk h.symm
      simp [hk, hne]

end Index

namespace Document

variable {d : Document} {i : String} {l : Lineage Site}

/-- The document is a file with the index of its nodes, whose identifiers are texts. -/
structure IsPlain (d : Document) : Prop where
  file : ∃ v, d.root = Node.ofJson (some []) v
  index : Index.ofRoot d.root = .ok d.index
  ids : d.root.HasPlainIds

/-- The document is a file with the index of its nodes, whose identifiers are texts that are not
empty. -/
structure IsIndexed (d : Document) : Prop extends d.IsPlain where
  textIds : d.root.HasTextIds

theorem IsIndexed.of_ofRoot (hfile : ∃ v, d.root = Node.ofJson (some []) v)
    (hindex : Index.ofRoot d.root = .ok d.index) (hids : d.root.HasTextIds) : d.IsIndexed where
  file := hfile
  index := hindex
  ids := fun l hl => (hids l hl).plain
  textIds := hids

theorem root_of_ofJson {file variableFile : Json} (h : ofJson file variableFile = .ok d) :
    ∃ root, file.orEmpty.getOr "document" (.obj []) = .ok root ∧
      d.root = Node.ofJson (some []) root ∧ Index.ofRoot d.root = .ok d.index := by
  rw [ofJson] at h
  obtain ⟨root, hroot, h⟩ := bind_eq_ok.1 h
  obtain ⟨components, -, h⟩ := bind_eq_ok.1 h
  obtain ⟨data, -, h⟩ := bind_eq_ok.1 h
  obtain ⟨vars, -, h⟩ := bind_eq_ok.1 h
  obtain ⟨collections, -, h⟩ := bind_eq_ok.1 h
  obtain ⟨index, hindex, h⟩ := bind_eq_ok.1 h
  obtain rfl := Except.ok.inj h
  exact ⟨root, hroot, rfl, hindex⟩

/-- A document can be made if its nodes can be indexed and its variables are what they are to be. -/
theorem ofJson_of_ofRoot {file root variableFile : Json}
    (hroot : file.orEmpty.getOr "document" (.obj []) = .ok root)
    (hindex : Yields (Index.ofRoot (Node.ofJson (some []) root)) fun _ => True)
    (hv : Shape.orNull Shape.variableFile variableFile = true) :
    Yields (ofJson file variableFile) fun _ => True := by
  have hv : Shape.variableFile variableFile.orEmpty = true :=
    Shape.orEmpty_record (Shape.orNull_iff.1 hv)
  have hcomponents : Yields (file.orEmpty.getOr "components" (.obj [])) fun _ => True := by
    cases hfile : file.orEmpty with
    | obj fs => simp
    | _ => simp [hfile, Json.getOr] at hroot
  rw [ofJson, hroot, ok_bind]
  apply hcomponents.bind
  intro _ _
  apply (Shape.record_getOr "meta" hv rfl rfl).bind
  intro data hd
  have hd := Shape.orEmpty_record (.inr hd)
  apply (Shape.record_getOr "variables" hd rfl rfl).bind
  intro _ _
  apply (Shape.record_getOr "variableCollections" hd rfl rfl).bind
  intro _ _
  apply hindex.bind
  intro _ _
  exact Yields.ok_iff.2 trivial

namespace IsPlain

theorem entry?_eq (hd : d.IsPlain) (k : Key) :
    d.entry? k =
      ((d.root.identified.filter fun l => l.entry.1 = k).getLast?).map fun l => l.entry.2 := by
  have habove : ∀ m ∈ ([] : List Node), (Node.id? m).isSome := by simp
  have hentries := Index.addNode_eq habove hd.ids hd.index
  unfold entry?
  rw [hentries]
  exact Index.get?_entries k _

theorem entry?_str (hd : d.IsPlain) (i : String) :
    d.entry? (.str i) = (d.root.last? i).map fun l => l.entry.2 := by
  rw [hd.entry?_eq, Node.last?]
  congr 2
  apply List.filter_congr
  intro l hl
  obtain ⟨j, hj⟩ := Node.exists_id?_of_mem_identified hl
  simp [Lineage.entry, hj]

theorem node?_str (hd : d.IsPlain) (i : String) :
    d.node? (.str i) = (d.root.last? i).map Lineage.node := by
  rw [node?, hd.entry?_str, Option.map_map]
  rfl

theorem exists_of_entry? (hd : d.IsPlain) {k : Key} {e : Entry} (h : d.entry? k = some e) :
    ∃ i l, k = .str i ∧ d.root.last? i = some l ∧ e = l.entry.2 := by
  have hk := h
  rw [hd.entry?_eq, Option.map_eq_some_iff] at hk
  obtain ⟨l, hl, -⟩ := hk
  have hkey : l.entry.1 = k := by simpa using (List.mem_filter.1 (List.mem_of_getLast? hl)).2
  obtain rfl : Key.str (l.id?.getD "") = k := hkey
  rw [hd.entry?_str, Option.map_eq_some_iff] at h
  obtain ⟨l', hl', rfl⟩ := h
  exact ⟨_, l', rfl, hl', rfl⟩

theorem require_eq (hd : d.IsPlain) (h : d.root.last? i = some l) :
    d.require l.node = .ok (.str i) := by
  obtain ⟨v, hv⟩ := hd.file
  obtain ⟨hmem, hid⟩ := Node.mem_of_last? h
  have hplace : (Node.place l.node).isSome := by
    apply Node.place_isSome_of_id? (v := v)
    · exact hv ▸ (Node.mem_identified.1 hmem).1
    · exact Option.isSome_of_mem hid
  rw [require, Node.get_of_id? hid]
  simp [hd.node?_str, h, hplace]

end IsPlain

namespace IsIndexed

theorem parent_eq (hd : d.IsIndexed) (h : d.root.last? i = some l) :
    (d.parent l.node).result =
      .ok ((l.parent?.bind Node.id?).bind fun j => d.node? (.str j)) := by
  have hmem := (Node.mem_of_last? h).1
  simp only [parent, Traced.bind_result, Traced.lift_result, hd.toIsPlain.require_eq h, ok_bind,
    hd.toIsPlain.entry?_str, h]
  cases hp : l.parent?.bind Node.id? with
  | none =>
    have hentry : l.entry.2.parent = none := by simp only [Lineage.entry, hp, Option.map_none]
    simp [hentry]
  | some j =>
    have hentry : l.entry.2.parent = some (.str j) := by
      simp only [Lineage.entry, hp, Option.map_some]
    obtain ⟨p, hparent, hj⟩ := Option.bind_eq_some_iff.1 hp
    obtain ⟨rest, hrest⟩ := List.head?_eq_some_iff.1 hparent
    have hpmem := Tree.parent_mem (Node.mem_identified.1 hmem).1 hrest
    have hne : j ≠ "" := by
      rcases (hd.textIds _ hpmem).get_id (Node.get_of_id? hj) with ⟨hnull, -⟩ | ⟨s, hs, hjs, -⟩
      · simp at hnull
      · exact (Json.str.inj hjs) ▸ hs
    simp [hentry, Key.toJson, Json.isTruthy, hne]

end IsIndexed

/-- The index holds, and the parents are those of, the last of the identified nodes with each
identifier. -/
structure IndexesLast (d : Document) : Prop where
  node? : ∀ i, d.node? (.str i) = (d.root.last? i).map Lineage.node
  parent : ∀ i l, d.root.last? i = some l →
    (d.parent l.node).result = .ok ((l.parent?.bind Node.id?).bind fun j => d.node? (.str j))
  parent_none : ∀ i l, d.root.last? i = some l → (d.parent l.node).result = .ok none →
    l = ⟨d.root, []⟩ ∧ ∀ l' ∈ d.root.identified, l'.id? = some i → l' = l
  not_indexed : ∀ l ∈ d.root.lineages, l.isIdentified = false → ∀ k, d.node? k ≠ some l.node
  entry : ∀ k e, d.entry? k = some e →
    ∃ i l, k = .str i ∧ d.root.last? i = some l ∧ e = l.entry.2
  parent_of_nodup : (d.root.identified.map Lineage.id?).Nodup →
    ∀ l ∈ d.root.identified, (d.parent l.node).result = .ok l.parent?

theorem IsIndexed.indexesLast (hd : d.IsIndexed) : d.IndexesLast where
  node? := hd.toIsPlain.node?_str
  parent := fun i l h => hd.parent_eq h
  parent_none := by
    intro i l h hnone
    obtain ⟨hmem, hid⟩ := Node.mem_of_last? h
    cases habove : l.above with
    | nil =>
      obtain rfl := Node.eq_root_of_above (Node.mem_identified.1 hmem).1 habove
      exact ⟨rfl, fun l' hl' hid' => Node.eq_of_last?_root h hl' hid'⟩
    | cons p rest =>
      have hp := Node.parent_mem_identified hmem habove
      obtain ⟨j, hj⟩ := Node.exists_id?_of_mem_identified hp
      obtain ⟨l', hl'⟩ := Node.exists_last? hp hj
      have hparent : l.parent? = some p := by simp [Lineage.parent?, habove]
      have hj : Node.id? p = some j := hj
      simp [hd.parent_eq h, hparent, hj, hd.toIsPlain.node?_str, hl'] at hnone
  not_indexed := by
    intro l hl hno k hk
    obtain ⟨v, hv⟩ := hd.file
    obtain ⟨e, he, hnode⟩ := Option.map_eq_some_iff.1 hk
    obtain ⟨i, l', rfl, hl', rfl⟩ := hd.toIsPlain.exists_of_entry? he
    have hnode : l'.node = l.node := hnode
    obtain ⟨hmem, hid⟩ := Node.mem_of_last? hl'
    obtain ⟨hlineage, hyes⟩ := Node.mem_identified.1 hmem
    rw [hv] at hl hlineage
    have hplace := Node.place_isSome_of_id? hlineage (Option.isSome_of_mem hid)
    obtain ⟨p, hp⟩ := Option.isSome_iff_exists.1 hplace
    obtain rfl := Node.eq_of_place_eq hlineage hl hp (hnode ▸ hp)
    simp [hno] at hyes
  entry := fun k e h => hd.toIsPlain.exists_of_entry? h
  parent_of_nodup := by
    intro hnodup l hl
    obtain ⟨i, hi⟩ := Node.exists_id?_of_mem_identified hl
    rw [hd.parent_eq (Node.last?_eq_of_nodup hnodup hl hi)]
    cases habove : l.above with
    | nil => simp [Lineage.parent?, habove]
    | cons p rest =>
      have hp := Node.parent_mem_identified hl habove
      obtain ⟨j, hj⟩ := Node.exists_id?_of_mem_identified hp
      have hlast := Node.last?_eq_of_nodup hnodup hp hj
      have hj : Node.id? p = some j := hj
      simp [Lineage.parent?, habove, hj, hd.toIsPlain.node?_str, hlast]

/-- A document that was made from a file holds the last of its nodes with each identifier; one is
made of every file with elements for nodes. -/
theorem ofJson_indexesLast {file root : Json}
    (hroot : file.orEmpty.getOr "document" (.obj []) = .ok root)
    (hids : (Node.ofJson (some []) root).HasTextIds) :
    (∀ variableFile d, ofJson file variableFile = .ok d →
      d.root = Node.ofJson (some []) root ∧ d.IndexesLast) ∧
    ((∀ l ∈ (Node.ofJson (some []) root).lineages, Shape.element (Node.value l.node) = true) →
      ∀ variableFile, Shape.orNull Shape.variableFile variableFile = true →
        ∃ d, ofJson file variableFile = .ok d) := by
  constructor
  · intro variableFile d hd
    obtain ⟨root', hroot', heq, hindex⟩ := root_of_ofJson hd
    obtain rfl : root = root' := Except.ok.inj (hroot.symm.trans hroot')
    have hindexed : d.IsIndexed := .of_ofRoot ⟨root, heq⟩ hindex (heq ▸ hids)
    exact ⟨heq, hindexed.indexesLast⟩
  · intro helements variableFile hv
    have hindex : Yields (Index.ofRoot (Node.ofJson (some []) root)) fun _ => True :=
      Index.addNode_of_element fun l hl => ⟨hids l hl, helements l hl⟩
    exact (ofJson_of_ofRoot hroot hindex hv).exists_ok

/-- The root's identifier comes again below `"2"`, which comes twice and once more below a node
without an identifier. -/
def shadowed : Json :=
  let scene (id : List (String × Json)) (children : List Json) : Json :=
    .obj (id ++ [("children", .arr children)])
  scene [("id", .str "0")] [
    scene [("id", .str "2")] [scene [("id", .str "1")] []],
    scene [("id", .str "2")] [scene [("id", .str "0")] []],
    scene [] [scene [("id", .str "2")] []]]

theorem ofJson_indexesLast_shadowed :
    ∃ d, ofJson (.obj [("document", shadowed)]) .null = .ok d ∧ d.IndexesLast ∧
      (d.root.last? "2").map (fun l => Node.place l.node) = some (some [1]) ∧
      (d.root.last? "0").map (fun l => Node.place l.node) = some (some [1, 0]) := by
  have hroot : (Json.obj [("document", shadowed)]).orEmpty.getOr "document" (.obj []) =
      .ok shadowed := rfl
  have hlineages : ∀ l ∈ (Node.ofJson (some []) shadowed).lineages,
      Node.HasTextId l.node ∧ Shape.element (Node.value l.node) = true := by
    decide
  obtain ⟨hmade, hmake⟩ := ofJson_indexesLast hroot fun l hl => (hlineages l hl).1
  obtain ⟨d, hd⟩ := hmake (fun l hl => (hlineages l hl).2) .null rfl
  obtain ⟨heq, hindexes⟩ := hmade .null d hd
  refine ⟨d, hd, hindexes, ?_, ?_⟩
  · rw [heq]
    decide
  · rw [heq]
    decide

end Document

end DesignComponents
