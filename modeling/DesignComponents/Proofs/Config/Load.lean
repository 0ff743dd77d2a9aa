import DesignComponents.Config.Load
import DesignComponents.Proofs.Host.Files
import DesignComponents.Proofs.Host.Observation

/-!
Reading settings only looks at the host, and it finds the same under a path and under the path that
this one is short for.
-/

namespace DesignComponents.Config

open Run DesignComponents.Path

theorem load_observes (path : String) : Observes (load path) := by
  apply (Observes.isThereStrict _).bind
  intro there
  split
  · apply (Observes.readJson _).bind
    intro v
    split
    · exact (Observes.liftTraced _).bind fun _ => .pure _
    · exact (Observes.warn _).bind fun _ => .pure _
  · exact .pure _

/-- The settings in the text of a file. -/
def ofText (path text : String) : Run Json :=
  match Json.read (String.ofList (Files.unifyLineEnds text.toList)) with
  | .ok (.obj fs) => do
    validate (.obj fs)
    pure (.obj fs)
  | .ok _ => do
    Run.warn (.configNotObject path)
    pure (.obj [])
  | .error e => throw (.unreadable e)

/-- The settings where a path leads, if it leads to a file. -/
theorem load_on (path : String) (h : Host) :
    (load path).on h =
      match Files.locate h.files h.workingDirectory (tidy path) with
      | .error (.nameTooLong q) => (.error (.nameTooLong q), h)
      | .error _ => (.ok (.obj []), h)
      | .ok l =>
        match Files.at? h.files l with
        | none => (.ok (.obj []), h)
        | some .directory => (.error (.isDirectory (tidy path)), h)
        | some (.file text) => (ofText path text).on h := by
  rw [load, bind_on, isThereStrict_on]
  cases hl : Files.locate h.files h.workingDirectory (tidy path) with
  | error e => cases e <;> simp [Files.isThereStrict, Files.isThere, Files.content?, hl]
  | ok l =>
    have hthere : h.files.isThereStrict h.workingDirectory (tidy path) =
        .ok (Files.at? h.files l).isSome := by
      simp [Files.isThereStrict, Files.isThere, Files.content?, hl]
    rw [hthere]
    dsimp only
    cases hat : Files.at? h.files l with
    | none => rfl
    | some c =>
      cases c with
      | directory => simp [bind_on, readJson, readText_on, Files.read, hl, hat]
      | file text =>
        have hread : (readText (tidy path)).on h =
            (.ok (String.ofList (Files.unifyLineEnds text.toList)), h) := by
          simp [readText_on, Files.read, hl, hat]
        simp only [Option.isSome_some, if_true, bind_on, readJson, hread, ofText]
        cases Json.read (String.ofList (Files.unifyLineEnds text.toList)) with
        | error e => rfl
        | ok v => cases v <;> rfl

/-- Settings read from two paths are the same, and so are the warnings if there are settings. -/
inductive LoadAlike (path path' : String) (h : Host) : Prop
  | error {e e' : Fault} {k k' : Host} (first : (load path).on h = (.error e, k))
    (second : (load path').on h = (.error e', k'))
  | empty {k k' : Host} (first : (load path).on h = (.ok (.obj []), k))
    (second : (load path').on h = (.ok (.obj []), k'))
  | same {config : Json} {k : Host} (first : (load path).on h = (.ok config, k))
    (second : (load path').on h = (.ok config, k))

theorem LoadAlike.of_eq {path path' : String} {h : Host}
    (heq : (load path').on h = (load path).on h) : LoadAlike path path' h := by
  cases hload : (load path).on h with
  | mk r k =>
    cases r with
    | error e => exact .error hload (heq.trans hload)
    | ok config => exact .same hload (heq.trans hload)

theorem loadAlike_of_expands {path : String} {h : Host}
    (hx : Files.Expands h.files h.workingDirectory path) :
    LoadAlike path (Path.resolve h.workingDirectory path).text h := by
  have hpath := load_on path h
  have hfull := load_on (Path.resolve h.workingDirectory path).text h
  have halike := hx.locate_alike
  generalize Files.locate h.files h.workingDirectory (tidy path) = x at hpath halike
  generalize Files.locate h.files h.workingDirectory
    (tidy (Path.resolve h.workingDirectory path).text) = y at hfull halike
  cases halike with
  | nameTooLong => exact .error hpath hfull
  | noFile => exact .empty hpath hfull
  | notDirectory => exact .empty hpath hfull
  | ok l =>
    dsimp only at hpath hfull
    cases hat : Files.at? h.files l with
    | none =>
      rw [hat] at hpath hfull
      exact .empty hpath hfull
    | some c =>
      rw [hat] at hpath hfull
      cases c with
      | directory => exact .error hpath hfull
      | file text =>
        simp only [ofText] at hpath hfull
        cases hread : Json.read (String.ofList (Files.unifyLineEnds text.toList)) with
        | error e =>
          rw [hread] at hpath hfull
          exact .error hpath hfull
        | ok v =>
          rw [hread] at hpath hfull
          cases v with
          | obj fs => exact .of_eq (hfull.trans hpath.symm)
          | _ => exact .empty hpath hfull

end DesignComponents.Config
