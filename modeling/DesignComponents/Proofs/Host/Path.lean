import DesignComponents.Host.Path
import DesignComponents.Text.Split
import Mathlib.Data.List.Basic

/-!
Parts of paths: none of them holds a slash, and a text of parts without slashes has these parts.
-/

namespace DesignComponents

namespace Path

theorem slash_notMem_of_mem_partsOf {p path : String} (h : p ∈ partsOf path) : '/' ∉ p.toList := by
  obtain ⟨cs, hcs, rfl⟩ := List.mem_map.1 h
  simpa using notMem_of_mem_splitOn hcs

theorem partsOf_of_notMem {s : String} (h : '/' ∉ s.toList) : partsOf s = [s] := by
  simp [partsOf, List.splitOn_eq_singleton h]

theorem partsOf_append_slash (a b : String) : partsOf (a ++ "/" ++ b) = partsOf a ++ partsOf b := by
  have hlist : (a ++ "/" ++ b).toList = a.toList ++ '/' :: b.toList := by simp
  rw [partsOf, hlist, List.splitOn_append_cons_self, List.map_append]
  rfl

theorem partsOf_slash_append (text : String) : partsOf ("/" ++ text) = "" :: partsOf text := by
  have h := partsOf_append_slash "" text
  rwa [String.empty_append] at h

theorem partsOf_intercalate {ps : List String} (hne : ps ≠ []) (h : ∀ p ∈ ps, '/' ∉ p.toList) :
    partsOf ("/".intercalate ps) = ps := by
  have hlist : ("/".intercalate ps).toList = ['/'].intercalate (ps.map String.toList) := by
    rw [String.toList_intercalate]
    rfl
  have hsplit : (['/'].intercalate (ps.map String.toList)).splitOn '/' = ps.map String.toList := by
    apply List.splitOn_intercalate
    · simpa using h
    · simpa using hne
  simp [partsOf, hlist, hsplit]

/-- What is no step on a path is an empty part or one that stays in place. -/
def isStep (part : String) : Bool := part != "" && part != "."

theorem isStep_of_mem_steps {s path : String} (h : s ∈ steps path) : isStep s = true :=
  (List.mem_filter.1 h).2

theorem slash_notMem_of_mem_steps {s path : String} (h : s ∈ steps path) : '/' ∉ s.toList :=
  slash_notMem_of_mem_partsOf (List.mem_filter.1 h).1

theorem isAbsolute_iff {path : String} : isAbsolute path = true ↔ ∃ rest, path = "/" ++ rest := by
  constructor
  · intro h
    obtain ⟨cs, hcs⟩ := List.head?_eq_some_iff.1 (beq_iff_eq.1 h)
    exact ⟨String.ofList cs, String.toList_inj.1 (by simp [hcs])⟩
  · rintro ⟨rest, rfl⟩
    simp [isAbsolute]

theorem root_of_relative {path : String} (h : isAbsolute path = false) : root path = "" := by
  unfold root
  unfold isAbsolute at h
  cases hp : path.toList with
  | nil => rfl
  | cons c cs =>
    rw [hp] at h
    have hc : (c == '/') = false := by simpa using h
    simp [hc]

theorem root_of_absolute {path : String} (h : isAbsolute path = true) :
    root path = "/" ∨ root path = "//" := by
  unfold root
  unfold isAbsolute at h
  cases hp : path.toList with
  | nil => simp [hp] at h
  | cons c cs =>
    rw [hp] at h
    have hc : (c == '/') = true := by simpa using h
    simp only [List.takeWhile_cons, hc, if_true, List.length_cons]
    split
    · omega
    · exact .inr rfl
    · exact .inl rfl

/-- The parts of a joined text are its parts and at most one empty part before them. -/
theorem exists_partsOf_steps (path : String) :
    ∃ stay, partsOf ("/".intercalate (steps path)) = stay ++ steps path ∧
      ∀ s ∈ stay, isStep s = false := by
  by_cases hsteps : steps path = []
  · rw [hsteps]
    exact ⟨[""], rfl, by decide⟩
  · exact ⟨[], partsOf_intercalate hsteps fun _ => slash_notMem_of_mem_steps, by simp⟩

theorem tidy_of_relative {path : String} (h : isAbsolute path = false) :
    tidy path = if steps path = [] then "." else "/".intercalate (steps path) := by
  rw [tidy, ofParts, root_of_relative h, String.empty_append]
  by_cases hsteps : steps path = []
  · rw [hsteps]
    rfl
  · have hne : "/".intercalate (steps path) ≠ "" := by
      intro hempty
      have hparts := partsOf_intercalate hsteps fun _ => slash_notMem_of_mem_steps
      have hmem : "" ∈ steps path := by
        rw [← hparts, hempty]
        exact List.mem_cons_self ..
      exact absurd (isStep_of_mem_steps hmem) (by decide)
    simp [hne, hsteps]

theorem tidy_of_absolute {path : String} (h : isAbsolute path = true) :
    tidy path = "/" ++ "/".intercalate (steps path) ∨
      tidy path = "/" ++ ("/" ++ "/".intercalate (steps path)) := by
  rw [tidy, ofParts, ← String.append_assoc]
  rcases root_of_absolute h with hr | hr <;> simp [hr]

/-- The parts of a tidy path are the steps, and before them parts that stay in place. -/
theorem exists_partsOf_tidy (path : String) :
    ∃ stay, partsOf (tidy path) = stay ++ steps path ∧ ∀ s ∈ stay, isStep s = false := by
  obtain ⟨stay, hparts, hstay⟩ := exists_partsOf_steps path
  cases habs : isAbsolute path with
  | false =>
    rw [tidy_of_relative habs]
    split
    · rename_i hsteps
      rw [hsteps]
      exact ⟨["."], rfl, by decide⟩
    · exact ⟨stay, hparts, hstay⟩
  | true =>
    have hempty : isStep "" = false := rfl
    rcases tidy_of_absolute habs with htidy | htidy
    · refine ⟨"" :: stay, ?_, by simpa [hempty] using hstay⟩
      rw [htidy, partsOf_slash_append, hparts]
      rfl
    · refine ⟨"" :: "" :: stay, ?_, by simpa [hempty] using hstay⟩
      rw [htidy, partsOf_slash_append, partsOf_slash_append, hparts]
      rfl

theorem isAbsolute_tidy (path : String) : isAbsolute (tidy path) = isAbsolute path := by
  cases habs : isAbsolute path with
  | true =>
    rw [isAbsolute_iff]
    exact (tidy_of_absolute habs).elim (⟨_, ·⟩) (⟨_, ·⟩)
  | false =>
    rw [Bool.eq_false_iff, Ne, isAbsolute_iff]
    rintro ⟨rest, hrest⟩
    rw [tidy_of_relative habs] at hrest
    split at hrest
    · have := congrArg String.toList hrest
      simp at this
    · rename_i hsteps
      have hparts := partsOf_intercalate hsteps fun _ => slash_notMem_of_mem_steps
      have hmem : "" ∈ steps path := by
        rw [← hparts, hrest, partsOf_slash_append]
        exact List.mem_cons_self ..
      exact absurd (isStep_of_mem_steps hmem) (by decide)

/-- What a file or a directory may be called. -/
structure IsName (s : String) : Prop where
  isStep : isStep s = true
  ne_up : s ≠ ".."
  slash : '/' ∉ s.toList
  size : s.utf8ByteSize ≤ nameLimit

theorem IsName.step {s : String} (h : IsName s) : s ≠ "" ∧ s ≠ "." := by
  simpa [Path.isStep] using h.isStep

theorem steps_append_slash (a b : String) : steps (a ++ "/" ++ b) = steps a ++ steps b := by
  simp only [steps, partsOf_append_slash, List.filter_append]

theorem IsName.steps {name : String} (h : IsName name) : Path.steps name = [name] := by
  rw [Path.steps, partsOf_of_notMem h.slash]
  exact List.filter_eq_self.2 (by simpa using h.step)

/-- A name in a directory is one more step. -/
theorem steps_join (directory : String) {name : String} (hname : IsName name) :
    steps (join directory name) = steps directory ++ [name] := by
  by_cases hempty : directory = ""
  · rw [hempty]
    exact hname.steps
  · by_cases hslash : directory.toList.getLast? = some '/'
    · obtain ⟨cs, hcs⟩ := List.getLast?_eq_some_iff.1 hslash
      have hdirectory : directory = String.ofList cs ++ "/" ++ "" := by
        apply String.toList_inj.1
        simp [hcs]
      have hstay : steps "" = [] := rfl
      have hjoin : join directory name = String.ofList cs ++ "/" ++ name := by
        rw [join, if_pos (by simp [hslash]), hdirectory, String.append_empty]
      rw [hjoin, hdirectory, steps_append_slash, steps_append_slash, hname.steps, hstay,
        List.append_nil]
    · rw [join, if_neg (by simp [hempty, hslash]), steps_append_slash, hname.steps]

theorem isAbsolute_join (directory : String) {name : String} (hname : '/' ∉ name.toList) :
    isAbsolute (join directory name) = isAbsolute directory := by
  unfold isAbsolute join
  cases hd : directory.toList with
  | nil =>
    obtain rfl : directory = "" := String.toList_inj.1 hd
    have hne : name.toList.head? ≠ some '/' := fun h => hname (List.mem_of_head? h)
    simpa using hne
  | cons c cs => split <;> simp [hd]

theorem resolve_join (here : Location) (directory : String) {name : String} (hname : IsName name) :
    resolve here (join directory name) = resolve here directory ++ [name] := by
  rw [resolve, steps_join directory hname, isAbsolute_join directory hname.slash,
    List.foldl_append]
  simp [follow, hname.ne_up, resolve]

theorem steps_tidy (path : String) : steps (tidy path) = steps path := by
  obtain ⟨stay, hparts, hstay⟩ := exists_partsOf_tidy path
  have hself : (steps path).filter isStep = steps path :=
    List.filter_eq_self.2 fun _ => isStep_of_mem_steps
  have hnone : stay.filter isStep = [] := List.filter_eq_nil_iff.2 (by simpa using hstay)
  calc steps (tidy path)
      _ = (partsOf (tidy path)).filter isStep := rfl
      _ = steps path := by rw [hparts, List.filter_append, hnone, hself, List.nil_append]

theorem resolve_tidy (here : Location) (path : String) :
    resolve here (tidy path) = resolve here path := by
  rw [resolve, steps_tidy, isAbsolute_tidy, resolve]

theorem foldl_follow_eq_append {ps : List String} (h : ".." ∉ ps) (l : Location) :
    ps.foldl follow l = l ++ ps := by
  induction ps generalizing l with
  | nil => simp
  | cons p ps ih =>
    rw [List.mem_cons, not_or] at h
    rw [List.foldl_cons, ih h.2, follow, if_neg (Ne.symm h.1), List.append_assoc]
    rfl

theorem mem_foldl_follow {s : String} {ps : List String} {l : Location}
    (h : s ∈ ps.foldl follow l) : s ∈ l ∨ s ∈ ps := by
  induction ps generalizing l with
  | nil => exact .inl h
  | cons p ps ih =>
    rcases ih h with hl | hps
    · rw [follow] at hl
      split at hl
      · exact .inl ((List.dropLast_sublist l).subset hl)
      · rcases List.mem_append.1 hl with hl | hp
        · exact .inl hl
        · exact .inr (by simp_all)
    · exact .inr (.tail _ hps)

end Path

theorem Location.isAbsolute_text (l : Location) : Path.isAbsolute l.text = true :=
  Path.isAbsolute_iff.2 ⟨_, rfl⟩

theorem Location.steps_text {l : Location} (hstep : ∀ s ∈ l, Path.isStep s = true)
    (hslash : ∀ s ∈ l, '/' ∉ s.toList) : Path.steps l.text = l := by
  change (Path.partsOf ("/" ++ "/".intercalate l)).filter Path.isStep = l
  rw [Path.partsOf_slash_append, List.filter_cons_of_neg (by decide)]
  by_cases hl : l = []
  · rw [hl]
    rfl
  · rw [Path.partsOf_intercalate hl hslash, List.filter_eq_self.2 hstep]

theorem Location.exists_text_concat (l : Location) (name : String) :
    ∃ above, (l ++ [name]).text = above ++ "/" ++ name := by
  by_cases hl : l = []
  · exact ⟨"", by simp [hl, text]⟩
  · refine ⟨l.text, ?_⟩
    rw [text, String.intercalate_append_of_ne_nil hl (by simp), text]
    simp [String.append_assoc]

theorem Path.baseName_text (l : Location) {name : String} (hname : '/' ∉ name.toList) :
    baseName (l ++ [name]).text = name := by
  obtain ⟨above, htext⟩ := Location.exists_text_concat l name
  rw [baseName, htext, partsOf_append_slash, partsOf_of_notMem hname]
  simp

end DesignComponents
