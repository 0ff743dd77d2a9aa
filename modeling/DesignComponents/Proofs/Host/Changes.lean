import DesignComponents.Proofs.Host.Files
import DesignComponents.Proofs.Host.Observation

/-!
What steps do to the files: everything stays as it is, save for the places that a path leads to, and
for new directories.
-/

namespace DesignComponents

namespace Files

variable {files files' files'' : Files} {here l : Location} {path : String}
  {P Q : Location → Prop}

/-- Nothing has changed but what `P` names and directories that are new. -/
def ChangesOnly (P : Location → Prop) (before after : Files) : Prop :=
  ∀ l, at? after l = at? before l ∨ (at? before l = none ∧ at? after l = some .directory) ∨ P l

/-- No place, where nothing but directories is made. -/
def nowhere (_ : Location) : Prop := False

namespace ChangesOnly

theorem refl (P : Location → Prop) (files : Files) : ChangesOnly P files files :=
  fun _ => .inl rfl

theorem mono (h : ChangesOnly P files files') (hPQ : ∀ l, P l → Q l) :
    ChangesOnly Q files files' := by
  intro l
  exact (h l).imp_right fun hl => hl.imp_right (hPQ l)

theorem trans (h : ChangesOnly P files files') (h' : ChangesOnly P files' files'') :
    ChangesOnly P files files'' := by
  intro l
  rcases h l with hsame | ⟨hnone, hdirectory⟩ | hP
  · have hl := h' l
    rwa [hsame] at hl
  · rcases h' l with hsame | ⟨hnone', -⟩ | hP
    · exact .inr (.inl ⟨hnone, hsame.trans hdirectory⟩)
    · simp [hnone'] at hdirectory
    · exact .inr (.inr hP)
  · exact .inr (.inr hP)

/-- A text that is there stays there, unless its place is one of those named. -/
theorem text (h : ChangesOnly P files files') (hl : ¬ P l) (text : String) :
    at? files' l = some (.file text) ↔ at? files l = some (.file text) := by
  rcases h l with hsame | ⟨hnone, hdirectory⟩ | hP
  · rw [hsame]
  · simp [hnone, hdirectory]
  · exact absurd hP hl

theorem put (l : Location) (c : Content) (files : Files) :
    ChangesOnly (· = l) files (OrderedMap.put l c files) := by
  intro m
  by_cases hm : m = l
  · exact .inr (.inr hm)
  · exact .inl (at?_put_of_ne (Ne.symm hm) c)

theorem write {text : String} (h : Files.write files here path text = .ok files') :
    ChangesOnly (· = Path.resolve here path) files files' := by
  obtain ⟨l, hl, -, rfl⟩ := write_eq_ok h
  rw [← eq_resolve_of_locate hl]
  exact .put l _ files

theorem makeDirectory (h : Files.makeDirectory files here path = .ok files') :
    ChangesOnly nowhere files files' := by
  obtain ⟨l, -, h⟩ := bind_eq_ok.1 h
  split at h
  · cases h
  · rename_i hnone
    obtain rfl : OrderedMap.put l .directory files = files' := by simpa using h
    have hne : l ≠ [] := by
      rintro rfl
      simp at hnone
    intro m
    by_cases hm : l = m
    · subst hm
      exact .inr (.inl ⟨hnone, at?_put_self hne _⟩)
    · exact .inl (at?_put_of_ne hm _)

theorem provideDirectory (h : Files.provideDirectory files here path = .ok files') :
    ChangesOnly nowhere files files' := by
  rw [Files.provideDirectory] at h
  split at h
  · obtain rfl := Except.ok.inj h
    exact .refl _ files
  · exact .makeDirectory h

theorem makeStages {stages : List String} (h : Files.makeStages here files stages = .ok files') :
    ChangesOnly nowhere files files' := by
  induction stages generalizing files with
  | nil =>
    obtain rfl : files = files' := by simpa [Files.makeStages] using h
    exact .refl _ files
  | cons path longer ih =>
    cases longer with
    | nil => exact .provideDirectory h
    | cons path₂ longer =>
      simp only [Files.makeStages] at h
      split at h
      · exact ih h
      · obtain ⟨made, hmade, h⟩ := bind_eq_ok.1 h
        exact (ChangesOnly.makeDirectory hmade).trans (ih h)

theorem provideStages {stages : List String}
    (h : Files.provideStages here files stages = .ok files') :
    ChangesOnly nowhere files files' := by
  induction stages generalizing files' with
  | nil =>
    obtain rfl : files = files' := by simpa [Files.provideStages] using h
    exact .refl _ files
  | cons path shorter ih =>
    simp only [Files.provideStages] at h
    split at h
    · obtain ⟨made, hmade, h⟩ := bind_eq_ok.1 h
      exact (ih hmade).trans (.provideDirectory h)
    · exact .provideDirectory h

end ChangesOnly

end Files

namespace Run

open Files (ChangesOnly nowhere)

variable {h h' : Host} {path text : String}

theorem makeDirectories_eq_ok (hx : (makeDirectories path).on h = (.ok (), h')) :
    ∃ files, h' = h.holding files ∧ ChangesOnly nowhere h.files files := by
  obtain ⟨files, hmade, rfl⟩ := change_eq_ok hx
  exact ⟨files, rfl, .makeStages hmade⟩

theorem provideDirectories_eq_ok (hx : (provideDirectories path).on h = (.ok (), h')) :
    ∃ files, h' = h.holding files ∧ ChangesOnly nowhere h.files files := by
  obtain ⟨files, hmade, rfl⟩ := change_eq_ok hx
  exact ⟨files, rfl, .provideStages hmade⟩

theorem writeText_eq_ok (hx : (writeText path text).on h = (.ok (), h')) :
    ∃ files, h' = h.holding files ∧
      Files.content? files h.workingDirectory path = some (.file text) ∧
      ChangesOnly (· = Path.resolve h.workingDirectory path) h.files files := by
  obtain ⟨files, hwritten, rfl⟩ := change_eq_ok hx
  refine ⟨files, rfl, ?_, .write hwritten⟩
  obtain ⟨l, hl, hfile, rfl⟩ := Files.write_eq_ok hwritten
  exact Files.content?_put_self hfile _ hl

end Run

end DesignComponents
