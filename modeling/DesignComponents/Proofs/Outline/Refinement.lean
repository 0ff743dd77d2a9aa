import DesignComponents.Proofs.Host.Printed
import DesignComponents.Proofs.Outline.EventLoop

/-!
A walk that succeeds gives the outline of a walk in depth, of the shape of the pruned scene, and
warns of the nodes of that scene level by level.
-/

namespace DesignComponents.Document

variable {d : Document} {n : Node} {o : Outline}

/-- What is so at every node that is visited is so of a walk, at the places of the pruned scene. -/
theorem walk_map {α : Type} {f : Traced Facts → α} {g : Site → α}
    (hfg : ∀ n p, (d.observe n).result = .ok p → f (Prod.fst <$> d.observe n) = g n.label)
    (hn : n.IsHost) (ho : (d.walk n).map Traced.result = o.map .ok) :
    (d.walk n).map f = n.pruned.map g := by
  induction n using Tree.induction generalizing o with
  | node s ns ih =>
    obtain ⟨facts, us⟩ := o
    rw [walk_node, Tree.map_node, Tree.map_node, Tree.node.injEq, Traced.map_result,
      map_eq_ok] at ho
    obtain ⟨⟨⟨facts, below⟩, hobs, rfl⟩, hbelow⟩ := ho
    obtain ⟨k, hk, -, -, hdescent⟩ := observe_eq_ok hobs
    have hkept : below.kept ns = s.kept ns := by
      have hs : s.kept ns = k.kept ns := by
        rw [Site.kept, show NodeKind.ofNode s.value = .ok k from hk]
      rw [hs]
      exact descent_kept hn hdescent
    simp only [descentOf, hobs, hkept] at hbelow
    rw [walk_node, Node.pruned_node, Tree.map_node, Tree.map_node, hfg _ _ hobs]
    simp only [descentOf, hobs, hkept, List.map_map, Tree.label_node]
    congr 1
    apply List.map_congr_left
    intro m hm
    have hmem : m ∈ ns := below.mem_of_mem_kept (hkept ▸ hm)
    have hwalk : (d.walk m).map Traced.result ∈ us.map (Tree.map .ok) := by
      rw [← hbelow]
      exact List.mem_map_of_mem (List.mem_map_of_mem hm)
    obtain ⟨u, -, hu⟩ := List.mem_map.1 hwalk
    exact ih m hmem (hn.mem_children hmem) hu.symm

theorem walk_log (hn : n.IsHost) (ho : (d.walk n).map Traced.result = o.map .ok) :
    (d.walk n).map Traced.log = n.pruned.map d.ownWarnings := by
  refine walk_map (fun m p hp => ?_) hn ho
  rw [Traced.map_log]
  exact d.observe_remarks m p hp

theorem walk_names (hn : n.IsHost) (ho : (d.walk n).map Traced.result = o.map .ok) :
    o.map (fun f => (Except.ok f.name, Except.ok f.id)) =
      n.pruned.map fun s => (s.value.getOr "name" (.str ""), s.value.getOr "id" (.str "")) := by
  let names (r : Except Fault Facts) := (r.map Facts.name, r.map Facts.id)
  have hfg (m : Node) (p : Facts × Descent) (hp : (d.observe m).result = .ok p) :
      names (Prod.fst <$> d.observe m).result =
        (m.label.value.getOr "name" (.str ""), m.label.value.getOr "id" (.str "")) := by
    obtain ⟨k, -, hname, hid, -⟩ := observe_eq_ok hp
    rw [Traced.map_result, hp]
    exact Prod.ext hname.symm hid.symm
  calc o.map (fun f => (Except.ok f.name, Except.ok f.id))
      _ = (o.map .ok).map names := (Tree.map_map names .ok o).symm
      _ = (d.walk n).map fun x => names x.result := by
        rw [← ho, Tree.map_map]
        rfl
      _ = _ := walk_map hfg hn ho

/-- The outline has the shape, names and identifiers of the pruned scene and is that of a walk in
depth. The warnings are those of the nodes of the pruned scene, level by level, and a run prints
them in this order, each on a line. A loop that begins visits in the order of the requests comes to
this outline and these warnings, whatever its steps have been. -/
theorem visit_refines (d : Document) (place : Option Place) (v : Json) (o : Outline)
    (h : (d.visit (Node.ofJson place v)).result = .ok o) :
    let n := Node.ofJson place v
    o.map (fun f => (Except.ok f.name, Except.ok f.id)) =
        n.pruned.map (fun s => (s.value.getOr "name" (.str ""), s.value.getOr "id" (.str ""))) ∧
      (d.visitInDepth n).result = .ok o ∧
      (d.visit n).log = n.pruned.levels.flatten.flatMap d.ownWarnings ∧
      (∀ h, (Run.ofTraced (d.visit n)).on h =
        (.ok o, { h with
          printed := h.printed ++
            Run.linesOf ((n.pruned.levels.flatten.flatMap d.ownWarnings).map Warning.line) })) ∧
      ∀ s, Loop.Steps d (.start n) s → Loop.Steps d s (.finished o (d.visit n).log) := by
  intro n
  have hn : n.IsHost := Node.isHost_ofJson place v
  have hwalk : (d.walk n).map Traced.result = o.map .ok := Traced.settle_eq_ok.1 h
  have hlog : (d.visit n).log = n.pruned.levels.flatten.flatMap d.ownWarnings := by
    rw [visit, Traced.settle_log, walk_log hn hwalk, Tree.levels_map, List.flatMap_def,
      List.map_flatten]
  refine ⟨walk_names hn hwalk, visit_eq_ok.1 h, hlog, fun k => ?_, fun s => Loop.finishes h⟩
  rw [Run.ofTraced_on, hlog, h]

/-- A text with a node of an unknown type, a component set, and below another text again a node of
an unknown type; nothing below the unknown nodes and only one child of the set is walked. -/
def mixedScene : Json :=
  let scene (type name : String) (children : List Json) : Json :=
    .obj [("type", .str type), ("name", .str name), ("children", .arr children)]
  scene "TEXT" "page" [
    scene "TEXT" "label" [scene "WIDGET" "late" []],
    scene "WIDGET" "early" [scene "TEXT" "hidden" []],
    scene "COMPONENT_SET" "set" [scene "VECTOR" "first" [], scene "TEXT" "second" []]]

def mixedOutline : Outline :=
  let outline (name : String) (ts : List Outline) : Outline :=
    .node { name := .str name, id := .str "" } ts
  outline "page" [
    outline "label" [outline "late" []],
    outline "early" [],
    outline "set" [outline "first" []]]

theorem visit_refines_mixed :
    let d : Document := ⟨Node.bare (.obj []), [], .obj [], .obj [], .obj []⟩
    (d.visit (Node.foreign mixedScene)).result = .ok mixedOutline ∧
      (d.visit (Node.foreign mixedScene)).log =
        [.unhandledNode (.str "WIDGET") (.str "early") (.str ""),
          .unhandledNode (.str "WIDGET") (.str "late") (.str "")] := by
  intro d
  have h : (d.visit (Node.foreign mixedScene)).result = .ok mixedOutline := visit_eq_ok.2 rfl
  obtain ⟨-, -, hlog, -⟩ := visit_refines d none mixedScene mixedOutline h
  exact ⟨h, hlog⟩

end DesignComponents.Document
