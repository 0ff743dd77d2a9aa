import DesignComponents.Proofs.Outline.Pruned
import DesignComponents.Proofs.Tree.Lineage

/-!
Places in a document: each leads to one node of it, and the nodes without a place are texts.
-/

namespace DesignComponents.Node

/-- The identifier of a node, if it is a text. -/
def id? (n : Node) : Option String :=
  match n.value.lookup? "id" with
  | some (.str s) => some s
  | _ => none

theorem getElem?_ofElements (place : Option Place) (k i : Nat) (xs : List Json) :
    (ofElements place k xs)[i]? = xs[i]?.map fun x => ofJson (extend place (k + i)) x := by
  induction xs generalizing k i with
  | nil => rfl
  | cons x xs ih =>
    cases i with
    | zero => rfl
    | succ i => simp [ofElements, ih, Nat.add_assoc, Nat.add_comm 1 i]

/-- A child of a node with a place is at the next place, or a text. -/
theorem getElem?_children_ofJson {p : Place} {v : Json} {i : Nat} {c : Node}
    (h : (ofJson (some p) v).children[i]? = some c) :
    (∃ x, c = ofJson (some (p ++ [i])) x) ∨ ∃ s, c = bare (.str s) := by
  rw [children_ofJson] at h
  cases hv : (v.lookup? "children").getD .null with
  | arr xs =>
    rw [hv, childrenOf, getElem?_ofElements, Option.map_eq_some_iff] at h
    obtain ⟨x, -, rfl⟩ := h
    exact .inl ⟨x, by simp [extend]⟩
  | str s =>
    rw [hv, childrenOf, List.getElem?_map, Option.map_eq_some_iff] at h
    obtain ⟨c, -, rfl⟩ := h
    exact .inr ⟨_, rfl⟩
  | obj fs =>
    rw [hv, childrenOf, List.getElem?_map, Option.map_eq_some_iff] at h
    obtain ⟨f, -, rfl⟩ := h
    exact .inr ⟨_, rfl⟩
  | _ => simp [hv, childrenOf] at h

/-- A place leads to the node that has it, and a node without a place has no identifier. -/
theorem lineageAt?_of_mem {p : Place} {v : Json} {above : List Node} {l : Lineage Site}
    (h : l ∈ (ofJson (some p) v).lineagesFrom above) :
    (∃ r, place l.node = some (p ++ r) ∧ (ofJson (some p) v).lineageAt? above r = some l) ∨
      place l.node = none ∧ id? l.node = none := by
  generalize ht : ofJson (some p) v = t at h
  induction t using Tree.induction generalizing p v above with
  | node a ts ih =>
    rw [Tree.lineagesFrom_eq, List.mem_cons, List.mem_flatMap] at h
    rcases h with rfl | ⟨c, hc, hl⟩
    · refine .inl ⟨[], ?_, rfl⟩
      rw [← ht, place_ofJson, List.append_nil]
    · obtain ⟨i, hi⟩ := List.mem_iff_getElem?.1 hc
      have hchild := hi
      rw [Tree.children_node, ← Tree.children_node a ts, ← ht] at hchild
      rcases getElem?_children_ofJson hchild with ⟨x, rfl⟩ | ⟨s, rfl⟩
      · rcases ih _ hc rfl hl with ⟨r, hplace, hat⟩ | hnone
        · refine .inl ⟨i :: r, by simp [hplace], ?_⟩
          rw [Tree.lineageAt?, hi]
          exact hat
        · exact .inr hnone
      · rw [Tree.lineagesFrom_eq] at hl
        obtain rfl : l = ⟨bare (.str s), _⟩ := by simpa [bare] using hl
        exact .inr ⟨rfl, rfl⟩

/-- Nodes at one place are one node. -/
theorem eq_of_place_eq {v : Json} {l l' : Lineage Site} {p : Place}
    (h : l ∈ (ofJson (some []) v).lineages) (h' : l' ∈ (ofJson (some []) v).lineages)
    (hp : place l.node = some p) (hp' : place l'.node = some p) : l = l' := by
  rcases lineageAt?_of_mem h with ⟨r, hr, hat⟩ | ⟨hnone, -⟩
  · rcases lineageAt?_of_mem h' with ⟨r', hr', hat'⟩ | ⟨hnone, -⟩
    · obtain rfl : r = r' := by simpa [hp, hp'] using hr.symm.trans (hp.trans (hp'.symm.trans hr'))
      exact Option.some.inj (hat.symm.trans hat')
    · simp [hp'] at hnone
  · simp [hp] at hnone

/-- What has an identifier has a place. -/
theorem place_isSome_of_id? {v : Json} {l : Lineage Site} (h : l ∈ (ofJson (some []) v).lineages)
    (hid : (id? l.node).isSome) : (place l.node).isSome := by
  rcases lineageAt?_of_mem h with ⟨r, hr, -⟩ | ⟨-, hnone⟩
  · simp [hr]
  · simp [hnone] at hid

end DesignComponents.Node
