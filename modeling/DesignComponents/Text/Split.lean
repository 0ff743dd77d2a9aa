/-!
Texts cut at a character.
-/

namespace DesignComponents

def splitAtFirst? (sep : Char) : List Char → Option (List Char × List Char)
  | [] => none
  | c :: cs =>
    if c = sep then some ([], cs)
    else (splitAtFirst? sep cs).map fun (a, b) => (c :: a, b)

/-- What stands before the first separator, or all if there is none. -/
def beforeFirst (sep : Char) (cs : List Char) : List Char := cs.takeWhile (· != sep)

@[simp] theorem splitAtFirst?_nil (sep : Char) : splitAtFirst? sep [] = none := rfl

theorem splitAtFirst?_eq_some {sep : Char} {cs a b : List Char}
    (h : splitAtFirst? sep cs = some (a, b)) : cs = a ++ sep :: b ∧ sep ∉ a := by
  induction cs generalizing a b with
  | nil => simp at h
  | cons c cs ih =>
    simp only [splitAtFirst?] at h
    split at h
    · simp_all
    · rename_i hc
      cases hs : splitAtFirst? sep cs with
      | none => simp [hs] at h
      | some p =>
        obtain ⟨x, y⟩ := p
        simp only [hs, Option.map_some, Option.some.injEq, Prod.mk.injEq] at h
        obtain ⟨rfl, rfl⟩ := h
        obtain ⟨h1, h2⟩ := ih hs
        simp [h1, h2, Ne.symm hc]

theorem splitAtFirst?_append {sep : Char} {a : List Char} (h : sep ∉ a) (b : List Char) :
    splitAtFirst? sep (a ++ sep :: b) = some (a, b) := by
  induction a with
  | nil => simp [splitAtFirst?]
  | cons c cs ih =>
    simp only [List.mem_cons, not_or] at h
    simp [splitAtFirst?, Ne.symm h.1, ih h.2]

theorem splitAtFirst?_eq_none {sep : Char} {cs : List Char} (h : sep ∉ cs) :
    splitAtFirst? sep cs = none := by
  cases hs : splitAtFirst? sep cs with
  | none => rfl
  | some p =>
    obtain ⟨rfl, -⟩ := splitAtFirst?_eq_some hs
    simp at h

theorem notMem_of_mem_splitOn {sep : Char} {p cs : List Char} (h : p ∈ cs.splitOn sep) :
    sep ∉ p := by
  induction cs generalizing p with
  | nil =>
    obtain rfl : p = [] := by simpa using h
    simp
  | cons c cs ih =>
    rw [List.splitOn_cons_eq_if_modifyHead] at h
    split at h
    case isTrue =>
      rcases List.mem_cons.1 h with rfl | h
      · simp
      · exact ih h
    case isFalse hc =>
      obtain ⟨q, qs, hs⟩ := List.exists_cons_of_ne_nil (List.splitOn_ne_nil sep cs)
      rw [hs] at h ih
      rcases List.mem_cons.1 h with rfl | h
      · have hne : sep ≠ c := fun heq => hc (by simp [heq])
        simp [hne, ih (List.mem_cons_self ..)]
      · exact ih (.tail _ h)

end DesignComponents
