import DesignComponents.Proofs.Outline.Pruned
import DesignComponents.Proofs.Outline.Settle

/-!
Walks in depth, one node after another. They give the same outlines as walks by a queue.
-/

namespace DesignComponents.Document

mutual

/-- Visit a node, then one after another what is walked below it. -/
def visitInDepth (d : Document) : Node → Traced Outline
  | .node site children => do
    let (facts, below) ← d.observe (.node site children)
    let ts ← visitBelow d below children
    pure (.node facts ts)

def visitBelow (d : Document) : Descent → List Node → Traced (List Outline)
  | .none, _ => pure []
  | _, [] => pure []
  | .first, n :: _ => do
    let t ← visitInDepth d n
    pure [t]
  | .all, n :: ns => do
    let t ← visitInDepth d n
    let ts ← visitBelow d .all ns
    pure (t :: ts)

end

variable {d : Document} {n : Node} {o : Outline}

theorem visitBelow_eq (d : Document) (below : Descent) (ns : List Node) :
    visitBelow d below ns = visitBelow d .all (below.kept ns) := by
  cases below with
  | none => simp [visitBelow, Descent.kept]
  | first => cases ns <;> simp [visitBelow, Descent.kept]
  | all => rfl

theorem walk_node (d : Document) (s : Site) (ns : List Node) :
    d.walk (.node s ns) = .node (Prod.fst <$> d.observe (.node s ns))
      (((descentOf (d.observe (.node s ns))).kept ns).map d.walk) := by
  rw [walk, walkBelow_eq]

theorem visitBelow_all_eq_ok {ns : List Node} {os : List Outline}
    (h : ∀ n ∈ ns, ∀ o : Outline,
      (d.walk n).map Traced.result = o.map .ok ↔ (d.visitInDepth n).result = .ok o) :
    (ns.map d.walk).map (Tree.map Traced.result) = os.map (Tree.map .ok) ↔
      (visitBelow d .all ns).result = .ok os := by
  induction ns generalizing os with
  | nil => cases os <;> simp [visitBelow]
  | cons n ns ih =>
    have ih {us : List Outline} := @ih us fun m hm => h m (.tail _ hm)
    simp only [visitBelow, Traced.bind_result, bind_eq_ok, ← h n (.head _), ← ih]
    cases os with
    | nil => simp
    | cons o os => simp

/-- The outline does not depend on the order of the visits. -/
theorem walk_eq_ok {n : Node} {o : Outline} :
    (d.walk n).map Traced.result = o.map .ok ↔ (d.visitInDepth n).result = .ok o := by
  induction n using Tree.induction generalizing o with
  | node s ns ih =>
    obtain ⟨f, us⟩ := o
    have hbelow (below : Descent) :=
      @visitBelow_all_eq_ok d (below.kept ns) us fun n hn _ => ih n (below.mem_of_mem_kept hn)
    rw [walk_node, visitInDepth]
    simp only [Tree.map_node, Traced.map_result, Traced.bind_result, descentOf]
    cases (d.observe (.node s ns)).result with
    | error e => simp
    | ok p =>
      obtain ⟨facts, below⟩ := p
      simp only [map_ok, ok_bind, visitBelow_eq d below, Tree.node.injEq, Except.ok.injEq,
        hbelow, bind_eq_ok]
      constructor
      · rintro ⟨rfl, hus⟩
        exact ⟨us, hus, by simp⟩
      · rintro ⟨ts, hts, h⟩
        obtain ⟨rfl, rfl⟩ : facts = f ∧ ts = us := by simpa using h
        exact ⟨rfl, hts⟩

theorem visit_eq_ok : (d.visit n).result = .ok o ↔ (d.visitInDepth n).result = .ok o := by
  rw [visit, Traced.settle_eq_ok, walk_eq_ok]

theorem observe_of_visitInDepth (h : (d.visitInDepth n).result = .ok o) :
    ∃ f below, (d.observe n).result = .ok (f, below) := by
  cases n with
  | node s ns =>
    rw [visitInDepth, Traced.bind_result, bind_eq_ok] at h
    obtain ⟨⟨f, below⟩, hp, -⟩ := h
    exact ⟨f, below, hp⟩

end DesignComponents.Document
