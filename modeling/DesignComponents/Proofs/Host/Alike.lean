import DesignComponents.Proofs.Config.Sections
import DesignComponents.Proofs.Host.Files
import DesignComponents.Proofs.Host.Printed

/-!
Two hosts that differ in a file of settings: one of them has the settings without some sections that
are no objects. Steps that do not ask for these sections do the same on both.
-/

namespace DesignComponents

/-- Two computations that fail alike, or succeed with related values. -/
inductive Matches {α β : Type} (R : α → β → Prop) : Except Fault α → Except Fault β → Prop
  | ok {a : α} {b : β} (h : R a b) : Matches R (.ok a) (.ok b)
  | error (e : Fault) : Matches R (.error e) (.error e)

theorem Matches.refl {α : Type} (x : Except Fault α) : Matches Eq x x := by
  cases x with
  | ok a => exact .ok rfl
  | error e => exact .error e

theorem Matches.eq {α : Type} {x y : Except Fault α} (h : Matches Eq x y) : x = y := by
  cases h with
  | ok hab => rw [hab]
  | error e => rfl

theorem Matches.bind {α β γ δ : Type} {R : α → β → Prop} {Q : γ → δ → Prop}
    {x : Except Fault α} {y : Except Fault β} {f : α → Except Fault γ} {g : β → Except Fault δ}
    (h : Matches R x y) (hfg : ∀ a b, R a b → Matches Q (f a) (g b)) :
    Matches Q (x >>= f) (y >>= g) := by
  cases h with
  | ok hab => exact hfg _ _ hab
  | error e => exact .error e

/-- What holds where the first steps fail alike, and after all steps where they do not, holds of
whole runs. -/
theorem Matches.bind_on {α β γ δ : Type} {R : α → β → Prop} {x : Run α} {y : Run β}
    {f : α → Run γ} {g : β → Run δ} {h h' : Host}
    {P : Except Fault γ × Host → Except Fault δ × Host → Prop}
    (hxy : Matches R (x.on h).1 (y.on h').1)
    (hok : ∀ a b, R a b → P ((f a).on (x.on h).2) ((g b).on (y.on h').2))
    (herror : ∀ e, P (.error e, (x.on h).2) (.error e, (y.on h').2)) :
    P ((x >>= f).on h) ((y >>= g).on h') := by
  rw [Run.bind_on, Run.bind_on]
  generalize x.on h = u at hxy hok herror
  generalize y.on h' = v at hxy hok herror
  obtain ⟨r, k⟩ := u
  obtain ⟨r', k'⟩ := v
  cases hxy with
  | ok hab => exact hok _ _ hab
  | error e => exact herror e

namespace Config

/-- A file of settings, and a text for it without some sections that are no objects. -/
structure Replacement where
  place : Location
  before : String
  after : String
  names : List String
  fields : List (String × Json)
  misplaced : Misplaced names fields
  reads : Json.read (String.ofList (Files.unifyLineEnds before.toList)) = .ok (.obj fields)
  readsAfter : Json.read (String.ofList (Files.unifyLineEnds after.toList)) =
    .ok (.obj (without names fields))

namespace Replacement

/-! ### Files -/

variable {S : Replacement} {files files' : Files} {here l : Location} {path : String}

/-- The files are the same but for the text of the settings. -/
def FilesAlike (S : Replacement) (files files' : Files) : Prop :=
  ∀ l, Files.at? files' l = Files.at? files l ∨
    l = S.place ∧ Files.at? files l = some (.file S.before) ∧
      Files.at? files' l = some (.file S.after)

namespace FilesAlike

theorem directory_iff (h : S.FilesAlike files files') (l : Location) :
    Files.at? files' l = some .directory ↔ Files.at? files l = some .directory := by
  rcases h l with heq | ⟨-, hbefore, hafter⟩
  · rw [heq]
  · simp [hbefore, hafter]

theorem none_iff (h : S.FilesAlike files files') (l : Location) :
    Files.at? files' l = none ↔ Files.at? files l = none := by
  rcases h l with heq | ⟨-, hbefore, hafter⟩
  · rw [heq]
  · simp [hbefore, hafter]

theorem isSome_eq (h : S.FilesAlike files files') (l : Location) :
    (Files.at? files' l).isSome = (Files.at? files l).isSome := by
  rcases h l with heq | ⟨-, hbefore, hafter⟩
  · rw [heq]
  · simp [hbefore, hafter]

theorem walk_eq (h : S.FilesAlike files files') (path : String) (l : Location)
    (ps : List String) : Files.walk files' path l ps = Files.walk files path l ps := by
  induction ps generalizing l with
  | nil => rfl
  | cons p ps ih =>
    rw [Files.walk, Files.walk]
    rcases h l with heq | ⟨-, hbefore, hafter⟩
    · simp only [heq, ih]
    · rw [hbefore, hafter]

theorem locate_eq (h : S.FilesAlike files files') (here : Location) (path : String) :
    Files.locate files' here path = Files.locate files here path := by
  simp only [Files.locate, h.walk_eq]

theorem isThere_eq (h : S.FilesAlike files files') (here : Location) (path : String) :
    Files.isThere files' here path = Files.isThere files here path := by
  rw [Files.isThere, Files.isThere, Files.content?, Files.content?, h.locate_eq]
  cases Files.locate files here path with
  | ok l => exact h.isSome_eq l
  | error e => rfl

theorem put (h : S.FilesAlike files files') (l : Location) (c : Content) :
    S.FilesAlike (OrderedMap.put l c files) (OrderedMap.put l c files') := by
  intro m
  by_cases hm : l = m
  · subst hm
    by_cases hl : l = []
    · simp [hl]
    · exact .inl (by rw [Files.at?_put_self hl, Files.at?_put_self hl])
  · rw [Files.at?_put_of_ne hm, Files.at?_put_of_ne hm]
    exact h m

theorem write (h : S.FilesAlike files files') (here : Location) (path text : String) :
    Matches S.FilesAlike (Files.write files here path text)
      (Files.write files' here path text) := by
  rw [Files.write, Files.write, h.locate_eq]
  refine (Matches.refl _).bind ?_
  rintro l _ rfl
  have hdirectory := h.directory_iff l
  split
  case h_1 heq =>
    rw [hdirectory.2 heq]
    exact .error _
  case h_2 hne =>
    split
    case h_1 heq => exact absurd (hdirectory.1 heq) hne
    case h_2 => exact .ok (h.put l _)

theorem makeDirectory (h : S.FilesAlike files files') (here : Location) (path : String) :
    Matches S.FilesAlike (Files.makeDirectory files here path)
      (Files.makeDirectory files' here path) := by
  rw [Files.makeDirectory, Files.makeDirectory, h.locate_eq]
  refine (Matches.refl _).bind ?_
  rintro l _ rfl
  have hnone := h.none_iff l
  cases heq : Files.at? files l with
  | none =>
    rw [hnone.2 heq]
    exact .ok (h.put l _)
  | some c =>
    obtain ⟨c', hc'⟩ := Option.ne_none_iff_exists'.1 (fun hn => by simp [hnone.1 hn] at heq :
      Files.at? files' l ≠ none)
    rw [hc']
    exact .error _

theorem provideDirectory (h : S.FilesAlike files files') (here : Location) (path : String) :
    Matches S.FilesAlike (Files.provideDirectory files here path)
      (Files.provideDirectory files' here path) := by
  have hdirectory : Files.content? files' here path = some .directory ↔
      Files.content? files here path = some .directory := by
    simp only [Files.content?_eq_some, h.locate_eq, h.directory_iff]
  rw [Files.provideDirectory, Files.provideDirectory]
  split
  case h_1 heq =>
    rw [hdirectory.2 heq]
    exact .ok h
  case h_2 hne =>
    split
    case h_1 heq => exact absurd (hdirectory.1 heq) hne
    case h_2 => exact h.makeDirectory here path

theorem makeStages (h : S.FilesAlike files files') (here : Location) (stages : List String) :
    Matches S.FilesAlike (Files.makeStages here files stages)
      (Files.makeStages here files' stages) := by
  induction stages generalizing files files' with
  | nil => exact .ok h
  | cons path longer ih =>
    cases longer with
    | nil => exact h.provideDirectory here path
    | cons path₂ longer =>
      have hstep (files : Files) : Files.makeStages here files (path :: path₂ :: longer) =
          if Files.isThere files here path then Files.makeStages here files (path₂ :: longer)
          else Files.makeDirectory files here path >>= fun files =>
            Files.makeStages here files (path₂ :: longer) := rfl
      rw [hstep, hstep, h.isThere_eq]
      split
      · exact ih h
      · exact (h.makeDirectory here path).bind fun _ _ hmade => ih hmade

theorem provideStages (h : S.FilesAlike files files') (here : Location) (stages : List String) :
    Matches S.FilesAlike (Files.provideStages here files stages)
      (Files.provideStages here files' stages) := by
  induction stages with
  | nil => exact .ok h
  | cons path shorter ih =>
    rw [Files.provideStages, Files.provideStages]
    have hprovide := h.provideDirectory here path
    generalize Files.provideDirectory files here path = x at hprovide
    generalize Files.provideDirectory files' here path = y at hprovide
    cases hprovide with
    | ok hmade => exact .ok hmade
    | error e =>
      cases e with
      | noFile _ => exact ih.bind fun _ _ hmade => hmade.provideDirectory here path
      | _ => exact .error _

theorem foldl {α : Type} {f : Files → α → Files}
    (hf : ∀ (a : α) {files files' : Files}, S.FilesAlike files files' →
      S.FilesAlike (f files a) (f files' a))
    (h : S.FilesAlike files files') (as : List α) :
    S.FilesAlike (as.foldl f files) (as.foldl f files') := by
  induction as generalizing files files' with
  | nil => exact h
  | cons a as ih => exact ih (hf a h)

theorem place (h : S.FilesAlike files files') (l : Location) (text : String) :
    S.FilesAlike (Files.place files l text) (Files.place files' l text) := by
  unfold Files.place
  apply put
  refine foldl (fun d {files _} h => ?_) h _
  rw [h.isSome_eq]
  split
  · exact h
  · exact h.put d _

theorem remove (h : S.FilesAlike files files') (l : Location) :
    S.FilesAlike (Files.remove files l) (Files.remove files' l) := by
  intro m
  by_cases hm : m = l
  · subst hm
    by_cases hl : m = []
    · simp [hl]
    · exact .inl (by rw [Files.at?_remove_self hl, Files.at?_remove_self hl])
  · rw [Files.at?_remove_of_ne hm, Files.at?_remove_of_ne hm]
    exact h m

end FilesAlike

end Replacement

end Config

end DesignComponents
