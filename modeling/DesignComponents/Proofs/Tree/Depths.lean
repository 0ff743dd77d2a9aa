import DesignComponents.Proofs.Tree.Lineage
import Mathlib.Data.List.TakeWhile

/-!
Trees as their labels from the top down, each with its depth. A tree can be told from this list, and
put together from it by going through it once, from its end.
-/

namespace DesignComponents.Tree

variable {α β : Type}

mutual

/-- Labels in the order of `preorder`, with their depths; the root stands at depth `d`. -/
def depths (d : Nat) : Tree α → List (Nat × α)
  | .node a ts => (d, a) :: depthsAll (d + 1) ts

def depthsAll (d : Nat) : List (Tree α) → List (Nat × α)
  | [] => []
  | t :: ts => depths d t ++ depthsAll d ts

end

/-- A node takes as children the trees of the next depth that a row of trees begins with. -/
def attach (e : Nat × α) (row : List (Nat × Tree α)) : List (Nat × Tree α) :=
  (e.1, .node e.2 ((row.takeWhile fun t => t.1 == e.1 + 1).map Prod.snd)) ::
    row.dropWhile fun t => t.1 == e.1 + 1

/-- The tree of a list of labels with their depths, and the depth of its root. -/
def ofDepths? (es : List (Nat × α)) : Option (Nat × Tree α) :=
  match es.foldr attach [] with
  | [t] => some t
  | _ => none

theorem depthsAll_eq (d : Nat) (ts : List (Tree α)) : depthsAll d ts = ts.flatMap (depths d) := by
  induction ts with
  | nil => rfl
  | cons t ts ih => rw [depthsAll, ih, List.flatMap_cons]

theorem depths_node (d : Nat) (a : α) (ts : List (Tree α)) :
    depths d (.node a ts) = (d, a) :: ts.flatMap (depths (d + 1)) := by
  rw [depths, depthsAll_eq]

theorem depths_map (f : α → β) (d : Nat) (t : Tree α) :
    (t.map f).depths d = (t.depths d).map (Prod.map id f) := by
  induction t using induction generalizing d with
  | node a ts ih =>
    rw [map_node, depths_node, depths_node, List.map_cons, List.map_flatMap, List.flatMap_map,
      List.flatMap_congr fun t ht => ih t ht (d + 1)]
    rfl

/-- The depth of a node is the number of nodes above it. -/
theorem depths_eq_lineages (d : Nat) (t : Tree α) :
    t.depths d = t.lineages.map fun l => (d + l.above.length, l.node.label) := by
  suffices ∀ above, t.depths (d + above.length) =
      (lineagesFrom above t).map fun l => (d + l.above.length, l.node.label) from this []
  intro above
  induction t using induction generalizing above with
  | node a ts ih =>
    rw [lineagesFrom_eq, depths_node, List.map_cons, List.map_flatMap, children_node,
      ← List.flatMap_congr fun t ht => ih t ht (.node a ts :: above)]
    rfl

theorem map_snd_depths (d : Nat) (t : Tree α) : (t.depths d).map Prod.snd = t.preorder := by
  rw [depths_eq_lineages, List.map_map, lineages, ← map_label_lineagesFrom []]
  rfl

/-! ### Trees put together -/

/-- A row that does not begin deeper than `d`. -/
def EndsAbove (d : Nat) (row : List (Nat × Tree α)) : Prop := ∀ e ∈ row.head?, e.1 ≤ d

theorem attach_children {d : Nat} {row : List (Nat × Tree α)} (h : EndsAbove d row) (a : α)
    (ts : List (Tree α)) :
    attach (d, a) (ts.map (d + 1, ·) ++ row) = (d, .node a ts) :: row := by
  have hall : ∀ t ∈ ts.map (d + 1, ·), (t.1 == d + 1) = true := by simp
  have hrow : row.takeWhile (fun t => t.1 == d + 1) = [] ∧
      row.dropWhile (fun t => t.1 == d + 1) = row := by
    cases row with
    | nil => exact ⟨rfl, rfl⟩
    | cons e row =>
      have hlt : e.1 ≤ d := h e rfl
      have hne : (e.1 == d + 1) = false := by simp; omega
      simp [hne]
  rw [attach, List.takeWhile_append_of_pos hall, List.dropWhile_append_of_pos hall, hrow.1, hrow.2]
  simp [Function.comp_def]

theorem EndsAbove.children {d : Nat} {row : List (Nat × Tree α)} (h : EndsAbove d row)
    (ts : List (Tree α)) : EndsAbove (d + 1) (ts.map (d + 1, ·) ++ row) := by
  cases ts with
  | nil => exact fun e he => Nat.le_succ_of_le (h e he)
  | cons t ts => simp [EndsAbove]

theorem foldr_attach {d : Nat} {row : List (Nat × Tree α)} (h : EndsAbove d row) (t : Tree α) :
    (t.depths d).foldr attach row = (d, t) :: row := by
  induction t using induction generalizing d row with
  | node a ts ih =>
    have hbelow : (ts.flatMap (depths (d + 1))).foldr attach row = ts.map (d + 1, ·) ++ row := by
      induction ts with
      | nil => rfl
      | cons t ts ihs =>
        rw [List.flatMap_cons, List.foldr_append, ihs fun u hu => ih u (.tail _ hu)]
        exact ih t (.head _) (h.children ts)
    rw [depths_node, List.foldr_cons, hbelow, attach_children h]

/-- What is in a row of trees is what they were put together from. -/
theorem flatMap_foldr_attach (es : List (Nat × α)) :
    (es.foldr attach []).flatMap (fun t => t.2.depths t.1) = es := by
  induction es with
  | nil => rfl
  | cons e es ih =>
    rw [List.foldr_cons]
    generalize es.foldr attach [] = row at ih ⊢
    have hchildren : ((row.takeWhile fun t => t.1 == e.1 + 1).map Prod.snd).flatMap
        (depths (e.1 + 1)) =
          (row.takeWhile fun t => t.1 == e.1 + 1).flatMap fun t => t.2.depths t.1 := by
      rw [List.flatMap_map]
      refine List.flatMap_congr fun t ht => ?_
      have hdepth : t.1 = e.1 + 1 := by simpa using List.mem_takeWhile_imp ht
      rw [hdepth]
    rw [attach, List.flatMap_cons, depths_node, hchildren, List.cons_append,
      ← List.flatMap_append, List.takeWhile_append_dropWhile, ih]

theorem ofDepths?_eq_some {es : List (Nat × α)} {d : Nat} {t : Tree α} :
    ofDepths? es = some (d, t) ↔ es = t.depths d := by
  unfold ofDepths?
  constructor
  · intro h
    split at h
    case h_1 p hp =>
      obtain rfl := Option.some.inj h
      rw [← flatMap_foldr_attach es, hp, List.flatMap_singleton]
    case h_2 => cases h
  · rintro rfl
    rw [foldr_attach (by simp [EndsAbove])]

end DesignComponents.Tree
