import DesignComponents.Text.Blank
import Mathlib.Data.List.DropRight

/-!
What is left of a text without the blanks at its ends.
-/

namespace DesignComponents

variable {c : Char} {cs ds : List Char}

/-- Neither end of the text is a blank. -/
def IsStripped (cs : List Char) : Prop :=
  (∀ c ∈ cs.head?, isBlank c = false) ∧ ∀ c ∈ cs.getLast?, isBlank c = false

instance (cs : List Char) : Decidable (IsStripped cs) :=
  @instDecidableAnd _ _ (Option.decidableForallMem _) (Option.decidableForallMem _)

theorem stripChars_eq (cs : List Char) :
    stripChars cs = (cs.dropWhile isBlank).rdropWhile isBlank := rfl

theorem stripChars_subset (cs : List Char) : stripChars cs ⊆ cs :=
  List.Subset.trans (List.rdropWhile_prefix isBlank _).subset (List.dropWhile_subset isBlank)

theorem notMem_stripChars (h : c ∉ cs) : c ∉ stripChars cs := mt (@stripChars_subset cs c) h

theorem isStripped_stripChars (cs : List Char) : IsStripped (stripChars cs) := by
  rw [stripChars_eq]
  obtain ⟨rest, hrest⟩ := List.rdropWhile_prefix isBlank (cs.dropWhile isBlank)
  constructor
  · intro c hc
    -- what begins the text without its last blanks begins the text with them
    have hhead : (cs.dropWhile isBlank).head? = some c := by
      rw [← hrest, List.head?_append, hc]
      rfl
    have hfirst := List.head?_dropWhile_not isBlank cs
    rw [hhead] at hfirst
    exact hfirst
  · intro c hc
    obtain ⟨hne, rfl⟩ := List.mem_getLast?_eq_getLast hc
    simpa using List.rdropWhile_last_not isBlank _ hne

theorem IsStripped.stripChars_eq_self (h : IsStripped cs) : stripChars cs = cs := by
  have hfirst : cs.dropWhile isBlank = cs := by
    cases cs with
    | nil => rfl
    | cons c cs => exact List.dropWhile_cons_of_neg (by simp [h.1 c rfl])
  rw [stripChars_eq, hfirst, List.rdropWhile_eq_self_iff]
  intro hne
  simp [h.2 _ (List.getLast?_eq_some_getLast hne)]

/-- Blanks in front of a text are no part of what is left of it. -/
theorem stripChars_append (h : ∀ c ∈ ds, isBlank c = true) :
    stripChars (ds ++ cs) = stripChars cs := by
  rw [stripChars, List.dropWhile_append_of_pos h, stripChars]

theorem rdropWhile_append (h : ∀ c ∈ ds, isBlank c = true) :
    (cs ++ ds).rdropWhile isBlank = cs.rdropWhile isBlank := by
  rw [List.rdropWhile, List.reverse_append,
    List.dropWhile_append_of_pos fun c hc => h c (List.mem_reverse.1 hc), List.rdropWhile]

/-- Nor are blanks behind it. -/
theorem stripChars_append_blanks (h : ∀ c ∈ ds, isBlank c = true) :
    stripChars (cs ++ ds) = stripChars cs := by
  rw [stripChars_eq, stripChars_eq, List.dropWhile_append]
  split
  case isTrue hempty =>
    have hnone : ds.dropWhile isBlank = [] := List.dropWhile_eq_nil_iff.2 h
    rw [hnone, List.isEmpty_iff.1 hempty]
  case isFalse => exact rdropWhile_append h

theorem isStripped_of_forall (h : ∀ c ∈ cs, isBlank c = false) : IsStripped cs :=
  ⟨fun c hc => h c (List.mem_of_head? hc), fun c hc => h c (List.mem_of_getLast? hc)⟩

end DesignComponents
