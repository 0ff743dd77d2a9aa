import DesignComponents.Component.Name

/-!
Classes of characters that nothing enters in upper or lower case. Blanks are one, so names have no
blanks at all.
-/

namespace DesignComponents

theorem CharRanges.contains_single {a b : Char} :
    contains [(a.toNat, a.toNat)] b = false ↔ b ≠ a := by
  have hcode : b = a ↔ a.toNat ≤ b.toNat ∧ b.toNat ≤ a.toNat := by
    rw [← Char.toNat_inj]
    omega
  simp [hcode]

/-- What is the number of no character stands for the null character. -/
theorem toNat_ofNat_or (n : Nat) : (Char.ofNat n).toNat = n ∨ Char.ofNat n = '\x00' := by
  by_cases hn : n.isValidChar
  · left
    rw [Char.ofNat, dif_pos hn]
    rfl
  · right
    rw [Char.ofNat, dif_neg hn]
    rfl

namespace CaseMap

/-- Whether nothing that the map gives is of a class. Runs are looked at as a whole. -/
def avoids (m : CaseMap) (rs : CharRanges) : Bool :=
  (m.several.all fun p => p.2.all fun n => !rs.contains (Char.ofNat n)) &&
    m.runs.all fun r => rs.all fun b =>
      (r.last + r.shift).toNat < b.1 || b.2 < (r.first + r.shift).toNat

variable {rs : CharRanges}

theorem contains_ofNat (hzero : rs.contains '\x00' = false) {n : Nat}
    (h : ∀ b ∈ rs, n < b.1 ∨ b.2 < n) : rs.contains (Char.ofNat n) = false := by
  rcases toNat_ofNat_or n with htoNat | hnul
  · simp only [CharRanges.contains, htoNat, List.any_eq_false, Bool.and_eq_true,
      decide_eq_true_eq]
    intro b hb
    have := h b hb
    omega
  · rw [hnul, hzero]

theorem contains_of_mem_apply {m : CaseMap} (hm : m.avoids rs = true)
    (hzero : rs.contains '\x00' = false) {c x : Char} (hc : rs.contains c = false)
    (hx : x ∈ m.apply c) : rs.contains x = false := by
  rw [avoids, Bool.and_eq_true, List.all_eq_true, List.all_eq_true] at hm
  obtain ⟨hseveral, hruns⟩ := hm
  unfold apply at hx
  split at hx
  case h_1 p hfind =>
    obtain ⟨n, hn, rfl⟩ := List.mem_map.1 hx
    have hall := hseveral _ (List.mem_of_find?_eq_some hfind)
    simpa using List.all_eq_true.1 hall n hn
  case h_2 =>
    split at hx
    case h_1 r hfind =>
      have hcovers := List.find?_some hfind
      simp only [CaseRun.covers, Bool.and_eq_true, decide_eq_true_eq] at hcovers
      rw [List.mem_singleton.1 hx]
      apply contains_ofNat hzero
      intro b hb
      have hall := List.all_eq_true.1 (hruns r (List.mem_of_find?_eq_some hfind)) b hb
      simp only [Bool.or_eq_true, decide_eq_true_eq] at hall
      omega
    case h_2 => rwa [List.mem_singleton.1 hx]

theorem contains_of_mem_append {m : CaseMap} (hm : m.avoids rs = true)
    (hzero : rs.contains '\x00' = false) {c x : Char} {cs : List Char}
    (hcs : ∀ a ∈ c :: cs, rs.contains a = false) (hx : x ∈ m.apply c ++ cs) :
    rs.contains x = false := by
  rcases List.mem_append.1 hx with hx | hx
  · exact contains_of_mem_apply hm hzero (hcs c (.head _)) hx
  · exact hcs x (.tail _ hx)

end CaseMap

variable {rs : CharRanges} {c x : Char} {cs : List Char} {name : String}

theorem contains_of_mem_upperFirst (hcase : upperCase.avoids rs = true)
    (hzero : rs.contains '\x00' = false) (hcs : ∀ c ∈ cs, rs.contains c = false)
    (hx : x ∈ upperFirst cs) : rs.contains x = false := by
  cases cs with
  | nil => cases hx
  | cons c cs => exact CaseMap.contains_of_mem_append hcase hzero hcs hx

theorem contains_of_mem_lowerFirst (hcase : lowerCase.avoids rs = true)
    (hzero : rs.contains '\x00' = false) (hcs : ∀ c ∈ cs, rs.contains c = false)
    (hx : x ∈ lowerFirst cs) : rs.contains x = false := by
  cases cs with
  | nil => cases hx
  | cons c cs => exact CaseMap.contains_of_mem_append hcase hzero hcs hx

/-- Words in lower case have nothing of such a class either. -/
theorem contains_of_mem_lowerAfter (hcase : lowerCase.avoids rs = true)
    (hzero : rs.contains '\x00' = false) (hfinal : rs.contains 'ς' = false)
    (hsigma : rs.contains 'σ' = false) {before : List Char} (hcs : ∀ c ∈ cs, rs.contains c = false)
    (hx : x ∈ lowerAfter before cs) : rs.contains x = false := by
  fun_induction lowerAfter before cs with
  | case1 => cases hx
  | case2 before rest ih =>
    rcases List.mem_cons.1 hx with rfl | hx
    · split
      · exact hfinal
      · exact hsigma
    · exact ih (fun c hc => hcs c (.tail _ hc)) hx
  | case3 before c rest _ ih =>
    rcases List.mem_append.1 hx with hx | hx
    · exact CaseMap.contains_of_mem_apply hcase hzero (hcs c (.head _)) hx
    · exact ih (fun c hc => hcs c (.tail _ hc)) hx

theorem isBlank_of_mem_componentName (hx : x ∈ (componentName name).toList) :
    isBlank x = false := by
  rw [componentName_toList] at hx
  exact contains_of_mem_upperFirst (by decide +kernel) (by decide)
    (fun c => not_isBlank_of_mem_compactChars) hx

theorem isBlank_of_mem_propertyName (hx : x ∈ (propertyName name).toList) :
    isBlank x = false := by
  rw [propertyName_toList] at hx
  exact contains_of_mem_lowerFirst (by decide +kernel) (by decide)
    (fun c => not_isBlank_of_mem_compactChars) hx

end DesignComponents
