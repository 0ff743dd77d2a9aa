import DesignComponents.Proofs.Tree.Levels

/-!
Nodes of a tree together with the nodes above them, from the top down and from the left to the
right.
-/

namespace DesignComponents

/-- A node, and those above it, the nearest first. -/
structure Lineage (α : Type) where
  node : Tree α
  above : List (Tree α)

namespace Lineage

variable {α : Type}

def path (l : Lineage α) : List (Tree α) := l.node :: l.above

def parent? (l : Lineage α) : Option (Tree α) := l.above.head?

@[simp] theorem path_mk (t : Tree α) (above : List (Tree α)) : path ⟨t, above⟩ = t :: above := rfl

end Lineage

namespace Tree

variable {α : Type} {t : Tree α} {above : List (Tree α)} {l : Lineage α}

mutual

def lineagesFrom (above : List (Tree α)) : Tree α → List (Lineage α)
  | .node a ts => ⟨.node a ts, above⟩ :: lineagesFromAll (.node a ts :: above) ts

def lineagesFromAll (above : List (Tree α)) : List (Tree α) → List (Lineage α)
  | [] => []
  | t :: ts => lineagesFrom above t ++ lineagesFromAll above ts

end

/-- All nodes of a tree in the order of `preorder`. -/
def lineages (t : Tree α) : List (Lineage α) := lineagesFrom [] t

theorem lineagesFromAll_eq (above : List (Tree α)) (ts : List (Tree α)) :
    lineagesFromAll above ts = ts.flatMap (lineagesFrom above) := by
  induction ts with
  | nil => rfl
  | cons t ts ih => simp [lineagesFromAll, ih]

theorem lineagesFrom_eq (above : List (Tree α)) (t : Tree α) :
    lineagesFrom above t = ⟨t, above⟩ :: t.children.flatMap (lineagesFrom (t :: above)) := by
  cases t
  rw [lineagesFrom, lineagesFromAll_eq]
  rfl

theorem map_label_lineagesFrom (above : List (Tree α)) (t : Tree α) :
    (lineagesFrom above t).map (fun l => l.node.label) = t.preorder := by
  induction t using induction generalizing above with
  | node a ts ih =>
    rw [lineagesFrom_eq, preorder_node, List.map_cons, List.map_flatMap]
    simp only [label_node, children_node, List.flatMap_def]
    rw [List.map_congr_left fun t ht => ih t ht _]

/-- What a node has above it begins with what was above the tree. -/
theorem path_suffix (h : l ∈ lineagesFrom above t) : t :: above <:+ l.path := by
  induction t using induction generalizing above with
  | node a ts ih =>
    rw [lineagesFrom_eq, List.mem_cons, List.mem_flatMap] at h
    rcases h with rfl | ⟨t, ht, hl⟩
    · exact List.suffix_rfl
    · exact (List.suffix_cons _ _).trans (ih t ht hl)

/-- With a node its parent is there. -/
theorem parent_mem {p : Tree α} {rest : List (Tree α)} (h : l ∈ lineages t)
    (hp : l.above = p :: rest) : ⟨p, rest⟩ ∈ lineages t := by
  suffices ∀ {above}, l ∈ lineagesFrom above t →
      l.above = above ∨ ⟨p, rest⟩ ∈ lineagesFrom above t by
    rcases this h with hnil | hmem
    · simp [hnil] at hp
    · exact hmem
  clear h
  intro above h
  induction t using induction generalizing above with
  | node a ts ih =>
    rw [lineagesFrom_eq, List.mem_cons, List.mem_flatMap] at h ⊢
    rcases h with rfl | ⟨t, ht, hl⟩
    · exact .inl rfl
    · rcases ih t ht hl with hhere | hbelow
      · obtain ⟨rfl, rfl⟩ := List.cons.inj (hp.symm.trans hhere)
        exact .inr (.inl rfl)
      · exact .inr (.inr ⟨t, ht, hbelow⟩)

/-- The node to which child numbers lead. -/
def lineageAt? (above : List (Tree α)) : List Nat → Tree α → Option (Lineage α)
  | [], t => some ⟨t, above⟩
  | i :: rest, t => t.children[i]? >>= lineageAt? (t :: above) rest

/-! ### Nodes reached through nodes of one sort -/

/-- The nodes of a tree with none but such nodes above them, those above the tree included. -/
def withinFrom (p : Tree α → Bool) (above : List (Tree α)) (t : Tree α) : List (Tree α) :=
  ((lineagesFrom above t).filter fun l => l.above.all p).map Lineage.node

/-- The nodes that are reached from a root through such nodes alone, in the order of `preorder`. -/
def within (p : Tree α → Bool) (t : Tree α) : List (Tree α) := withinFrom p [] t

theorem withinFrom_eq (p : Tree α → Bool) (above : List (Tree α)) (t : Tree α) :
    withinFrom p above t =
      (if above.all p then [t] else []) ++ t.children.flatMap (withinFrom p (t :: above)) := by
  have hbelow : ((t.children.flatMap (lineagesFrom (t :: above))).filter fun l => l.above.all p).map
      Lineage.node = t.children.flatMap (withinFrom p (t :: above)) := by
    rw [List.filter_flatMap, List.map_flatMap]
    rfl
  rw [withinFrom, lineagesFrom_eq, List.filter_cons]
  by_cases h : above.all p = true <;> simp [h, hbelow]

theorem withinFrom_of_above (p : Tree α → Bool) (above : List (Tree α)) (t : Tree α) :
    withinFrom p above t = if above.all p then t.within p else [] := by
  induction t using induction generalizing above with
  | node a ts ih =>
    rw [within, withinFrom_eq, withinFrom_eq p [], children_node,
      List.flatMap_congr fun t ht => ih t ht _, List.flatMap_congr fun t ht => ih t ht [_]]
    by_cases h : above.all p = true <;> simp [h]

theorem within_eq (p : Tree α → Bool) (t : Tree α) :
    t.within p = t :: if p t then t.children.flatMap (within p) else [] := by
  rw [within, withinFrom_eq, List.flatMap_congr fun u _ => withinFrom_of_above p [t] u]
  by_cases h : p t = true <;> simp [h]

end Tree

end DesignComponents
