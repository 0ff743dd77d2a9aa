import DesignComponents.Outline.Visit
import DesignComponents.Proofs.Tree.Levels

/-!
What a tree of computations comes to when a queue runs them: it succeeds if all of them do, the
results stay at their places, and the warnings come level by level.
-/

namespace DesignComponents.Traced

variable {α : Type} {t : Tree (Traced α)} {u : Tree α}

theorem firstFault?_eq_none {xs : List (Traced α)} :
    firstFault? xs = none ↔ ∀ x ∈ xs, ∃ a, x.result = .ok a := by
  induction xs with
  | nil => simp [firstFault?]
  | cons x xs ih => cases hx : x.result <;> simp [firstFault?, hx, ih]

theorem mem_map_ok {x : Traced α} (h : t.map result = u.map .ok) (hx : x ∈ t.preorder) :
    ∃ a ∈ u.preorder, x.result = .ok a := by
  have hr : x.result ∈ (t.map result).preorder := by
    rw [Tree.preorder_map]
    exact List.mem_map_of_mem hx
  rw [h, Tree.preorder_map] at hr
  obtain ⟨a, ha, hxa⟩ := List.mem_map.1 hr
  exact ⟨a, ha, hxa.symm⟩

theorem settle_eq_ok : (settle t).result = .ok u ↔ t.map result = u.map .ok := by
  simp only [settle]
  constructor
  · intro h
    split at h
    · cases h
    · exact Tree.sequence_eq_ok.1 h
  · intro h
    have hnone : firstFault? (Tree.breadthFirst [t]) = none := by
      refine firstFault?_eq_none.2 fun x hx => ?_
      obtain ⟨a, -, ha⟩ := mem_map_ok h (Tree.mem_breadthFirst.1 hx)
      exact ⟨a, ha⟩
    rw [hnone]
    exact Tree.sequence_eq_ok.2 h

theorem settle_log (t : Tree (Traced α)) :
    (settle t).log = (t.map log).levels.flatten.flatten := by
  simp only [settle, Tree.breadthFirst_eq_levels, Tree.levels_map, List.flatMap_def,
    List.map_flatten]

/-- If all computations of a tree succeed, with values that `P` holds of, so does the tree. -/
theorem settle_yields {P : α → Prop} (h : ∀ x ∈ t.preorder, Yields x.result P) :
    Yields (settle t).result fun u => ∀ a ∈ u.preorder, P a := by
  obtain ⟨u, hu, hP⟩ := Tree.exists_map_eq h
  exact ⟨u, settle_eq_ok.2 hu, hP⟩

end DesignComponents.Traced
