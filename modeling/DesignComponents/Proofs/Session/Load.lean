import DesignComponents.Proofs.Host.Files
import DesignComponents.Proofs.Host.Observation
import DesignComponents.Session.Load

/-!
Loading a document only looks at the host. A snapshot that is there is taken as it is.
-/

namespace DesignComponents

open Run

/-! ### Loading as observation -/

theorem Snapshot.pathFor_observes (given : Option String) (directory : Json) (name : String) :
    Observes (Snapshot.pathFor given directory name) := by
  unfold Snapshot.pathFor
  split
  · exact .pure _
  · exact (Observes.pathOf _).bind fun _ => .pure _

theorem Snapshot.load_observes (documentPath variablesPath : String) :
    Observes (Snapshot.load documentPath variablesPath) := by
  apply (Observes.readJson _).bind
  intro file
  apply (Observes.isThere _).bind
  intro there
  split
  · exact (Observes.readJson _).bind fun _ => .lift _
  · exact .lift _

namespace Session

theorem fileKey_observes (given : Option String) (config : Json) :
    Observes (fileKey given config) := by
  unfold fileKey
  split
  · exact .pure _
  · exact (Observes.lift _).bind fun _ => .lift _

theorem token_observes (config : Json) : Observes (token config) :=
  Observes.get_bind (fun _ => .lift _) fun _ => rfl

theorem loadDocument_observes (sources : Sources) (config : Json) :
    Observes (loadDocument sources config) := by
  apply (Observes.lift _).bind
  intro directory
  apply (Snapshot.pathFor_observes _ _ _).bind
  intro documentPath
  apply (Snapshot.pathFor_observes _ _ _).bind
  intro variablesPath
  apply (Observes.isThere _).bind
  intro there
  split
  · exact (Snapshot.load_observes _ _).bind fun _ => .pure _
  · apply (token_observes _).bind
    intro token
    apply (fileKey_observes _ _).bind
    intro key
    split
    · exact (Observes.print _).bind fun _ => (Observes.print _).bind fun _ => .pure _
    · apply (Observes.print _).bind
      intro _
      apply (Remote.fetchDocument_observes _ _).bind
      rintro (e | ⟨file, vars⟩)
      · exact (Observes.print _).bind fun _ => .pure _
      · exact (Observes.lift _).bind fun _ => .pure _

end Session

/-! ### Loading from a directory -/

/-- The data that reading a path gives. -/
def Content.data (path : String) : Content → Except Fault Json
  | .directory => .error (.isDirectory path)
  | .file text => dataIn (String.ofList (Files.unifyLineEnds text.toList))

theorem readJson_on_of_content {h : Host} {path : String} {c : Content}
    (hc : Files.content? h.files h.workingDirectory path = some c) :
    (readJson path).on h = (c.data path, h) := by
  obtain ⟨l, hl, hat⟩ := Files.content?_eq_some.1 hc
  rw [readJson_on, Files.read, hl, ok_bind, hat]
  cases c <;> rfl

namespace Snapshot

/-- The variables at a path, null if nothing is there. -/
def variablesAt (files : Files) (here : Location) (path : String) : Except Fault Json :=
  match Files.content? files here path with
  | none => .ok .null
  | some c => c.data path

/-- A document is made of the two files of a snapshot as they are. -/
theorem load_on {h : Host} {documentPath : String} {c : Content} (variablesPath : String)
    (hc : Files.content? h.files h.workingDirectory documentPath = some c) :
    (load documentPath variablesPath).on h =
      (do
        let file ← c.data documentPath
        let vars ← variablesAt h.files h.workingDirectory variablesPath
        Document.ofJson file vars, h) := by
  rw [load, bind_on, readJson_on_of_content hc]
  cases c.data documentPath with
  | error e => rfl
  | ok file =>
    have hthere : (isThere variablesPath).on h =
        (.ok (Files.content? h.files h.workingDirectory variablesPath).isSome, h) := rfl
    simp only [bind_of_ok hthere, ok_bind, variablesAt]
    cases hv : Files.content? h.files h.workingDirectory variablesPath with
    | none => exact lift_on _ h
    | some c' =>
      simp only [Option.isSome_some, if_true, bind_on, readJson_on_of_content hv]
      cases c'.data variablesPath with
      | error e => rfl
      | ok vars => exact lift_on _ h

end Snapshot

namespace Session

theorem loadDocument_on {h : Host} {config : Json} {directory : String} {c : Content}
    (hdir : Config.snapshotDir config = .ok (.str directory))
    (hc : Files.content? h.files h.workingDirectory (Path.join directory Snapshot.documentName) =
      some c) :
    (loadDocument .unspecified config).on h =
      ((do
        let file ← c.data (Path.join directory Snapshot.documentName)
        let vars ← Snapshot.variablesAt h.files h.workingDirectory
          (Path.join directory Snapshot.variablesName)
        Document.ofJson file vars).map some, h) := by
  have hpath (name : String) : (Snapshot.pathFor none (.str directory) name).on h =
      (.ok (Path.join directory name), h) := rfl
  have hthere : (isThere (Path.join directory Snapshot.documentName)).on h = (.ok true, h) := by
    have hsome : h.files.isThere h.workingDirectory (Path.join directory Snapshot.documentName) =
        true := by
      rw [Files.isThere, hc, Option.isSome_some]
    rw [← hsome]
    rfl
  have hload := Snapshot.load_on (Path.join directory Snapshot.variablesName) hc
  rw [loadDocument, bind_of_ok (lift_on_of_ok hdir h), Sources.unspecified, bind_of_ok (hpath _),
    bind_of_ok (hpath _), bind_of_ok hthere, if_pos rfl, bind_on, hload]
  cases (do
    let file ← c.data (Path.join directory Snapshot.documentName)
    let vars ← Snapshot.variablesAt h.files h.workingDirectory
      (Path.join directory Snapshot.variablesName)
    Document.ofJson file vars) <;> rfl

end Session

end DesignComponents
