import Mathlib.Data.List.Basic

/-!
Texts cut at a separator of several characters.
-/

namespace DesignComponents

/-- What stands before and behind the first separator. -/
def cutFirst? (sep : List Char) : List Char → Option (List Char × List Char)
  | [] => none
  | c :: cs =>
    if sep <+: c :: cs then some ([], cs.drop (sep.length - 1))
    else (cutFirst? sep cs).map fun p => (c :: p.1, p.2)

theorem length_of_cutFirst? {sep cs a b : List Char} (h : cutFirst? sep cs = some (a, b)) :
    b.length < cs.length := by
  fun_induction cutFirst? sep cs generalizing a with
  | case1 => cases h
  | case2 c cs hsep =>
    obtain ⟨-, rfl⟩ := Prod.mk.inj (Option.some.inj h)
    simp only [List.length_drop, List.length_cons]
    omega
  | case3 c cs hsep ih =>
    obtain ⟨p, hp, heq⟩ := Option.map_eq_some_iff.1 h
    obtain ⟨-, rfl⟩ := Prod.mk.inj heq
    exact Nat.lt_succ_of_lt (ih hp)

/-- The parts between the separators. -/
def cutAll (sep cs : List Char) : List (List Char) :=
  match h : cutFirst? sep cs with
  | none => [cs]
  | some (a, b) =>
    have : b.length < cs.length := length_of_cutFirst? h
    a :: cutAll sep b
termination_by cs.length

variable {s : Char} {sep a b : List Char} {ls : List (List Char)}

theorem cutFirst?_eq_none (h : s ∉ a) : cutFirst? (s :: sep) a = none := by
  induction a with
  | nil => rfl
  | cons c cs ih =>
    simp only [List.mem_cons, not_or] at h
    have hsep : ¬ s :: sep <+: c :: cs := fun hprefix => h.1 (List.cons_prefix_cons.1 hprefix).1
    rw [cutFirst?, if_neg hsep, ih h.2, Option.map_none]

theorem cutFirst?_append (h : s ∉ a) (b : List Char) :
    cutFirst? (s :: sep) (a ++ (s :: sep ++ b)) = some (a, b) := by
  induction a with
  | nil =>
    have hsep : s :: sep <+: s :: (sep ++ b) := ⟨b, rfl⟩
    rw [List.nil_append, List.cons_append, cutFirst?, if_pos hsep]
    simp
  | cons c cs ih =>
    simp only [List.mem_cons, not_or] at h
    have hsep : ¬ s :: sep <+: c :: (cs ++ (s :: sep ++ b)) := fun hprefix =>
      h.1 (List.cons_prefix_cons.1 hprefix).1
    rw [List.cons_append, cutFirst?, if_neg hsep, ih h.2]
    rfl

theorem cutAll_of_none (h : cutFirst? sep a = none) : cutAll sep a = [a] := by
  rw [cutAll]
  split <;> simp_all

theorem cutAll_of_some {cs : List Char} (h : cutFirst? sep cs = some (a, b)) :
    cutAll sep cs = a :: cutAll sep b := by
  rw [cutAll]
  split <;> simp_all

/-- Joined parts come apart again if none of them holds what a separator begins with. -/
theorem cutAll_intercalate (hne : ls ≠ []) (h : ∀ l ∈ ls, s ∉ l) :
    cutAll (s :: sep) ((s :: sep).intercalate ls) = ls := by
  induction ls with
  | nil => exact absurd rfl hne
  | cons l ls ih =>
    rw [List.forall_mem_cons] at h
    cases ls with
    | nil => simpa using cutAll_of_none (cutFirst?_eq_none h.1)
    | cons l' ls =>
      rw [List.intercalate_cons_cons, List.append_assoc, cutAll_of_some (cutFirst?_append h.1 _),
        ih (List.cons_ne_nil _ _) h.2]

end DesignComponents
