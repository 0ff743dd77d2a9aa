import DesignComponents.Proofs.Json.Shape
import DesignComponents.Proofs.Scene.Place
import Mathlib.Data.List.Nodup

/-!
Nodes that have an identifier, as all above them do, and the last of them with an identifier.
-/

namespace DesignComponents

namespace Shape

def identifier : Shape
  | .null => true
  | .str s => s != ""
  | _ => false

/-- A node as a file holds it, with a list of children if there are any. -/
def element : Shape := record [("children", orNull (listOf any))]

theorem identifier_iff {v : Json} : identifier v = true ↔ v = .null ∨ ∃ s ≠ "", v = .str s := by
  cases v <;> simp [identifier]

end Shape

namespace Lineage

/-- The node has an identifier, and so do all above it. -/
def isIdentified (l : Lineage Site) : Bool := l.path.all fun n => (Node.id? n).isSome

def id? (l : Lineage Site) : Option String := Node.id? l.node

end Lineage

namespace Node

/-- The identifier of a node, if it has one, is a text that is not empty. -/
def HasTextId (n : Node) : Prop := ∀ v ∈ n.value.lookup? "id", Shape.identifier v = true

instance (n : Node) : Decidable n.HasTextId :=
  inferInstanceAs (Decidable (∀ v ∈ n.value.lookup? "id", Shape.identifier v = true))

def HasTextIds (n : Node) : Prop := ∀ l ∈ n.lineages, HasTextId l.node

/-- The identifier of a node, if it has one, is a text, be it empty. -/
def HasPlainId (n : Node) : Prop := ∀ v ∈ n.value.lookup? "id", Shape.orNull Shape.text v = true

instance (n : Node) : Decidable n.HasPlainId :=
  inferInstanceAs (Decidable (∀ v ∈ n.value.lookup? "id", Shape.orNull Shape.text v = true))

def HasPlainIds (n : Node) : Prop := ∀ l ∈ n.lineages, HasPlainId l.node

def identified (n : Node) : List (Lineage Site) := n.lineages.filter Lineage.isIdentified

/-- The last node with an identifier, from the top down. -/
def last? (n : Node) (i : String) : Option (Lineage Site) :=
  (n.identified.filter fun l => l.id? = some i).getLast?

theorem children_yields {n : Node} (hn : Shape.element n.value = true) :
    ∃ v, n.value.get "children" = .ok v ∧ Yields v.elementsOrNone fun _ => True := by
  obtain ⟨v, hv, hshape⟩ := Shape.record_get "children" hn rfl
  refine ⟨v, hv, ?_⟩
  have hlist : v = .null ∨ Shape.listOf Shape.any v = true :=
    hshape.elim .inl fun h => Shape.orNull_iff.1 h
  rcases hlist with rfl | hlist
  · simp
  · obtain ⟨xs, rfl, -⟩ := Shape.exists_of_listOf hlist
    simp

theorem HasPlainId.get_id {n : Node} (hn : n.HasPlainId) {v : Json}
    (h : n.value.get "id" = .ok v) : v = .null ∧ n.id? = none ∨ ∃ s, v = .str s ∧ n.id? = some s := by
  unfold HasPlainId id? at *
  cases hvalue : n.value with
  | obj fs =>
    rw [hvalue] at h hn
    obtain rfl : (fs.lookup "id").getD .null = v := Except.ok.inj h
    cases hid : fs.lookup "id" with
    | none => simp [hid]
    | some v =>
      rcases Shape.orNull_iff.1 (hn v hid) with rfl | htext
      · simp [hid]
      · obtain ⟨s, rfl⟩ := Shape.exists_of_text htext
        simp [hid]
  | _ => simp [hvalue, Json.get] at h

theorem HasTextId.plain {n : Node} (hn : n.HasTextId) : n.HasPlainId := by
  intro v hv
  rcases Shape.identifier_iff.1 (hn v hv) with rfl | ⟨s, -, rfl⟩ <;> rfl

theorem HasTextId.get_id {n : Node} (hn : n.HasTextId) {v : Json}
    (h : n.value.get "id" = .ok v) :
    v = .null ∧ n.id? = none ∨ ∃ s ≠ "", v = .str s ∧ n.id? = some s := by
  rcases hn.plain.get_id h with hnull | ⟨s, rfl, hs⟩
  · exact .inl hnull
  · have hlookup : n.value.lookup? "id" = some (.str s) := by
      unfold id? at hs
      split at hs
      case h_1 heq => rw [heq, Option.some.inj hs]
      case h_2 => cases hs
    rcases Shape.identifier_iff.1 (hn _ hlookup) with hnull | ⟨t, ht, hst⟩
    · cases hnull
    · exact .inr ⟨t, ht, hst, Json.str.inj hst ▸ hs⟩

variable {n : Node} {i : String} {l : Lineage Site}

theorem get_of_id? (h : n.id? = some i) : n.value.get "id" = .ok (.str i) := by
  unfold id? at h
  cases hvalue : n.value with
  | obj fs =>
    rw [hvalue, Json.lookup?_obj] at h
    cases hid : fs.lookup "id" with
    | none => simp [hid] at h
    | some v =>
      cases v with
      | str s =>
        obtain rfl : s = i := by simpa [hid] using h
        simp [hid]
      | _ => simp [hid] at h
  | _ => simp [hvalue, Json.lookup?] at h

theorem mem_identified : l ∈ n.identified ↔ l ∈ n.lineages ∧ l.isIdentified = true :=
  List.mem_filter

theorem exists_id?_of_mem_identified (h : l ∈ n.identified) : ∃ i, l.id? = some i :=
  Option.isSome_iff_exists.1 (List.all_eq_true.1 (mem_identified.1 h).2 _ (List.mem_cons_self ..))

theorem mem_of_last? (h : n.last? i = some l) : l ∈ n.identified ∧ l.id? = some i := by
  simpa using List.mem_of_getLast? h

theorem exists_last? (h : l ∈ n.identified) (hid : l.id? = some i) : ∃ l', n.last? i = some l' := by
  have hmem : l ∈ n.identified.filter fun l => l.id? = some i := by simp [h, hid]
  exact ⟨_, List.getLast?_eq_getLast_of_ne_nil (List.ne_nil_of_mem hmem)⟩

/-- The parent of an identified node is one. -/
theorem parent_mem_identified {p : Node} {rest : List Node} (h : l ∈ n.identified)
    (hp : l.above = p :: rest) : ⟨p, rest⟩ ∈ n.identified := by
  rw [mem_identified] at h ⊢
  refine ⟨Tree.parent_mem h.1 hp, ?_⟩
  have hpath := List.all_eq_true.1 h.2
  rw [Lineage.path, hp] at hpath
  exact List.all_eq_true.2 fun m hm => hpath m (.tail _ hm)

theorem eq_root_of_above (h : l ∈ n.lineages) (hl : l.above = []) : l = ⟨n, []⟩ := by
  have hsuffix := Tree.path_suffix h
  rw [Lineage.path, hl] at hsuffix
  obtain ⟨node, above⟩ := l
  obtain rfl : n = node := by simpa using (hsuffix.eq_of_length rfl)
  rw [← hl]

/-- An identifier that is last at the root is nowhere else. -/
theorem eq_of_last?_root (h : n.last? i = some ⟨n, []⟩) (hl : l ∈ n.identified)
    (hid : l.id? = some i) : l = ⟨n, []⟩ := by
  obtain ⟨hmem, hidentified⟩ := mem_identified.1 hl
  let below := n.children.flatMap (Tree.lineagesFrom [n])
  have hlineages : n.lineages = [⟨n, []⟩] ++ below := Tree.lineagesFrom_eq [] n
  rw [hlineages, List.mem_append, List.mem_singleton] at hmem
  refine hmem.resolve_right fun hbelow => ?_
  have hmatches : l ∈ (below.filter Lineage.isIdentified).filter fun l => l.id? = some i := by
    simp [hbelow, hidentified, hid]
  rw [last?, identified, hlineages, List.filter_append, List.filter_append,
    List.getLast?_append_of_ne_nil _ (List.ne_nil_of_mem hmatches)] at h
  have hroot : ⟨n, []⟩ ∈ below :=
    List.mem_of_mem_filter (List.mem_of_mem_filter (List.mem_of_getLast? h))
  obtain ⟨c, -, hc⟩ := List.mem_flatMap.1 hroot
  simpa using (Tree.path_suffix hc).length_le

theorem last?_eq_of_nodup (h : (n.identified.map Lineage.id?).Nodup) (hl : l ∈ n.identified)
    (hid : l.id? = some i) : n.last? i = some l := by
  obtain ⟨l', hl'⟩ := exists_last? hl hid
  obtain ⟨hmem', hid'⟩ := mem_of_last? hl'
  rw [hl', List.inj_on_of_nodup_map h hmem' hl (hid'.trans hid.symm)]

end Node

end DesignComponents
