import DesignComponents.Proofs.Outcome
import DesignComponents.Tree
import Mathlib.Data.List.Basic
import Mathlib.Data.List.Forall2

/-!
The levels of a tree, from the root down and from the left to the right on each. A queue serves the
nodes of a tree level by level.
-/

namespace DesignComponents.Tree

variable {α β ε : Type}

theorem induction {P : Tree α → Prop} (node : ∀ a ts, (∀ t ∈ ts, P t) → P (.node a ts)) :
    ∀ t, P t
  | .node a ts => node a ts fun t _ => induction node t

def level : Nat → Tree α → List α
  | 0, .node a _ => [a]
  | k + 1, .node _ ts => ts.flatMap (level k)

mutual

def height : Tree α → Nat
  | .node _ ts => heightAll ts + 1

def heightAll : List (Tree α) → Nat
  | [] => 0
  | t :: ts => max (height t) (heightAll ts)

end

def levels (t : Tree α) : List (List α) := (List.range t.height).map fun k => t.level k

@[simp] theorem level_zero (t : Tree α) : t.level 0 = [t.label] := by
  cases t; rfl

@[simp] theorem level_succ (k : Nat) (t : Tree α) :
    t.level (k + 1) = t.children.flatMap (level k) := by
  cases t; rfl

theorem flatMap_level_zero (ts : List (Tree α)) : ts.flatMap (level 0) = ts.map label := by
  induction ts with
  | nil => rfl
  | cons t ts ih => simp [ih]

theorem flatMap_level_succ (k : Nat) (ts : List (Tree α)) :
    ts.flatMap (level (k + 1)) = (ts.flatMap children).flatMap (level k) := by
  induction ts with
  | nil => rfl
  | cons t ts ih => simp [ih]

@[simp] theorem map_node (f : α → β) (a : α) (ts : List (Tree α)) :
    map f (.node a ts) = .node (f a) (ts.map (map f)) := by
  simp [map]

theorem map_map {γ : Type} (g : β → γ) (f : α → β) (t : Tree α) :
    (t.map f).map g = t.map (g ∘ f) := by
  induction t using induction with
  | node a ts ih =>
    simp only [map_node, List.map_map, Function.comp_apply]
    congr 1
    exact List.map_congr_left ih

theorem level_map (f : α → β) (k : Nat) (t : Tree α) : (t.map f).level k = (t.level k).map f := by
  induction k generalizing t with
  | zero => cases t; rfl
  | succ k ih =>
    cases t with
    | node a ts => simp [List.flatMap_map, List.map_flatMap, ih]

theorem heightAll_le {n : Nat} {ts : List (Tree α)} :
    heightAll ts ≤ n ↔ ∀ t ∈ ts, t.height ≤ n := by
  induction ts with
  | nil => simp [heightAll]
  | cons t ts ih => rw [heightAll, Nat.max_le, ih, List.forall_mem_cons]

theorem height_map (f : α → β) (t : Tree α) : (t.map f).height = t.height := by
  induction t using induction with
  | node a ts ih =>
    simp only [map_node, height, Nat.add_right_cancel_iff]
    induction ts with
    | nil => rfl
    | cons t ts ihs =>
      simp only [List.map_cons, heightAll, ih t (.head _), ihs fun u hu => ih u (.tail _ hu)]

theorem levels_map (f : α → β) (t : Tree α) : (t.map f).levels = t.levels.map (List.map f) := by
  simp [levels, height_map, level_map]

theorem preorder_node (a : α) (ts : List (Tree α)) :
    preorder (.node a ts) = a :: ts.flatMap preorder := by
  rw [preorder, preorderAll_eq]

theorem preorder_map (f : α → β) (t : Tree α) : (t.map f).preorder = t.preorder.map f := by
  induction t using induction with
  | node a ts ih =>
    simp only [map_node, preorder_node, List.map_cons, List.flatMap_map, List.map_flatMap]
    congr 1
    simp only [List.flatMap_def]
    rw [List.map_congr_left ih]

theorem label_mem_preorder (t : Tree α) : t.label ∈ t.preorder := by
  cases t
  simp [preorder]

theorem map_congr_left {f g : α → β} {t : Tree α} (h : ∀ a ∈ t.preorder, f a = g a) :
    t.map f = t.map g := by
  induction t using induction with
  | node a ts ih =>
    simp only [preorder_node, List.mem_cons, List.mem_flatMap] at h
    simp only [map_node, h a (.inl rfl)]
    congr 1
    refine List.map_congr_left fun t ht => ih t ht fun b hb => ?_
    exact h b (.inr ⟨t, ht, hb⟩)

/-- What there is for every label, there is for the tree. -/
theorem exists_map_eq {γ : Type} {f : α → γ} {g : β → γ} {P : β → Prop} {t : Tree α}
    (h : ∀ a ∈ t.preorder, ∃ b, f a = g b ∧ P b) :
    ∃ u : Tree β, t.map f = u.map g ∧ ∀ b ∈ u.preorder, P b := by
  obtain ⟨b, -, -⟩ := h t.label t.label_mem_preorder
  have : Nonempty β := ⟨b⟩
  choose! c hc using h
  refine ⟨t.map c, ?_, ?_⟩
  · rw [map_map]
    exact map_congr_left fun a ha => (hc a ha).1
  · simp only [preorder_map, List.mem_map]
    rintro _ ⟨a, ha, rfl⟩
    exact (hc a ha).2

theorem forall₂_imp_of_mem {R S : α → β → Prop} {xs : List α} {ys : List β}
    (h : List.Forall₂ R xs ys) (hS : ∀ x ∈ xs, ∀ y, R x y → S x y) : List.Forall₂ S xs ys := by
  have hmem := (List.forall₂_and_left xs ys).2 ⟨fun x hx => hx, h⟩
  exact hmem.imp fun x y hxy => hS x hxy.1 y hxy.2

theorem forall₂_of_map_eq {γ : Type} {R : α → β → Prop} {f : α → γ} {g : β → γ} {xs : List α}
    {ys : List β} (h : xs.map f = ys.map g) (hR : ∀ x ∈ xs, ∀ y, f x = g y → R x y) :
    List.Forall₂ R xs ys := by
  rw [← List.forall₂_eq_eq_eq, List.forall₂_map_left_iff, List.forall₂_map_right_iff] at h
  exact forall₂_imp_of_mem h hR

/-- What waits behind the nodes of one level is served before their children. -/
theorem breadthFirst_append (ts us : List (Tree α)) :
    breadthFirst (ts ++ us) = ts.map label ++ breadthFirst (us ++ ts.flatMap children) := by
  induction ts generalizing us with
  | nil => simp
  | cons t ts ih =>
    cases t with
    | node a cs =>
      rw [List.cons_append, breadthFirst, List.append_assoc, ih]
      simp

theorem breadthFirst_eq_range {n : Nat} {ts : List (Tree α)} (h : ∀ t ∈ ts, t.height ≤ n) :
    breadthFirst ts = (List.range n).flatMap fun k => ts.flatMap (level k) := by
  induction n generalizing ts with
  | zero =>
    cases ts with
    | nil => simp
    | cons t ts =>
      cases t with
      | node a cs => simpa [height] using h _ (.head _)
  | succ n ih =>
    have hbelow : ∀ u ∈ ts.flatMap children, u.height ≤ n := by
      intro u hu
      obtain ⟨t, ht, hut⟩ := List.mem_flatMap.1 hu
      cases t with
      | node a cs => exact heightAll_le.1 (Nat.le_of_succ_le_succ (h _ ht)) u hut
    have hnext : breadthFirst ts = ts.map label ++ breadthFirst (ts.flatMap children) := by
      simpa using breadthFirst_append ts []
    rw [hnext, ih hbelow, List.range_succ_eq_map, List.flatMap_cons, List.flatMap_map,
      flatMap_level_zero]
    simp only [flatMap_level_succ]

/-- A queue serves a tree level by level. -/
theorem breadthFirst_eq_levels (t : Tree α) : breadthFirst [t] = t.levels.flatten := by
  rw [breadthFirst_eq_range (n := t.height) (by simp)]
  simp [levels, List.flatMap_def]

/-- A queue serves every node once. -/
theorem breadthFirst_perm (ts : List (Tree α)) :
    (breadthFirst ts).Perm (ts.flatMap preorder) := by
  induction ts using breadthFirst.induct with
  | case1 => simp
  | case2 a cs ts ih =>
    rw [breadthFirst, List.flatMap_cons, preorder_node, List.cons_append]
    refine (ih.trans ?_).cons a
    rw [List.flatMap_append]
    exact List.perm_append_comm

theorem mem_breadthFirst {a : α} {t : Tree α} : a ∈ breadthFirst [t] ↔ a ∈ t.preorder := by
  simpa using (breadthFirst_perm [t]).mem_iff (a := a)

mutual

theorem sequence_eq_ok : ∀ {t : Tree (Except ε α)} {u : Tree α},
    t.sequence = .ok u ↔ t = u.map .ok
  | .node (.error e) ts, .node b us => by
    simp [sequence]
  | .node (.ok a) ts, .node b us => by
    rw [sequence, map_eq_ok]
    simp only [sequenceAll_eq_ok, map_node, Tree.node.injEq, Except.ok.injEq]
    constructor
    · rintro ⟨us, hts, rfl, rfl⟩
      exact ⟨rfl, hts⟩
    · rintro ⟨rfl, hts⟩
      exact ⟨us, hts, rfl, rfl⟩

theorem sequenceAll_eq_ok : ∀ {ts : List (Tree (Except ε α))} {us : List (Tree α)},
    sequence.sequenceAll ts = .ok us ↔ ts = us.map (map .ok)
  | [], us => by
    cases us <;> simp [sequence.sequenceAll]
  | t :: ts, us => by
    rw [sequence.sequenceAll]
    simp only [bind_eq_ok, sequence_eq_ok, sequenceAll_eq_ok]
    constructor
    · rintro ⟨u, rfl, vs, rfl, h⟩
      cases h
      rfl
    · intro h
      cases us with
      | nil => simp at h
      | cons u us =>
        obtain ⟨rfl, rfl⟩ := List.cons.inj h
        exact ⟨u, rfl, us, rfl, rfl⟩

end

end DesignComponents.Tree
