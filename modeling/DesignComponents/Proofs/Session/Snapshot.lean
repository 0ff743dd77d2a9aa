import DesignComponents.Proofs.Session.Load
import DesignComponents.Session.Commands
import Mathlib

/-!
What is loaded after a snapshot. It is what was fetched if variables were fetched too; if they were
not, the variables of an earlier snapshot remain and are loaded.
-/

namespace DesignComponents

open Run

/-- What is written of the value is read back as the same value. -/
def Json.IsReadBack (v : Json) : Prop :=
  Json.read (String.ofList (Files.unifyLineEnds v.lines.toList)) = .ok v

theorem Json.IsReadBack.data {v : Json} (hv : v.IsReadBack) (path : String) :
    (Content.file v.lines).data path = .ok v := by
  simp only [Content.data, dataIn, show Json.read _ = _ from hv]

namespace Snapshot

open Files

theorem isName_documentName : Path.IsName documentName :=
  ⟨by decide, by decide, by decide, by decide⟩

theorem isName_variablesName : Path.IsName variablesName :=
  ⟨by decide, by decide, by decide, by decide⟩

/-- The two files of a snapshot lie at different places. -/
theorem places_ne {files files' : Files} {here l m : Location} {directory : String}
    (hl : locate files here (Path.join directory documentName) = .ok l)
    (hm : locate files' here (Path.join directory variablesName) = .ok m) : l ≠ m := by
  rintro rfl
  have hname := getLast?_of_locate_join isName_documentName hl
  rw [getLast?_of_locate_join isName_variablesName hm] at hname
  exact absurd hname (by decide)

/-- What a snapshot in a directory leaves of a file and its variables. -/
structure Holds (directory : String) (file : Json) (vars : Option Json) (h h' : Host) : Prop where
  document : content? h'.files h'.workingDirectory (Path.join directory documentName) =
    some (.file file.lines)
  fetched : ∀ v, vars = some v →
    content? h'.files h'.workingDirectory (Path.join directory variablesName) =
      some (.file v.lines)
  kept : vars = none → ∀ c,
    content? h.files h.workingDirectory (Path.join directory variablesName) = some c →
    content? h'.files h'.workingDirectory (Path.join directory variablesName) = some c

theorem Holds.congr {directory : String} {file : Json} {vars : Option Json} {h h' k k' : Host}
    (hholds : Holds directory file vars h h') (hbefore : h.fresh = k.fresh)
    (hafter : h'.fresh = k'.fresh) : Holds directory file vars k k' := by
  have hfiles : h.fresh.files = k.fresh.files := congrArg Host.files hbefore
  have hhere : h.fresh.workingDirectory = k.fresh.workingDirectory :=
    congrArg Host.workingDirectory hbefore
  have hfiles' : h'.fresh.files = k'.fresh.files := congrArg Host.files hafter
  have hhere' : h'.fresh.workingDirectory = k'.fresh.workingDirectory :=
    congrArg Host.workingDirectory hafter
  simp only [Host.fresh] at hfiles hhere hfiles' hhere'
  obtain ⟨hdocument, hfetched, hkept⟩ := hholds
  rw [hfiles', hhere'] at hdocument
  rw [hfiles', hhere'] at hfetched
  rw [hfiles, hhere, hfiles', hhere'] at hkept
  exact ⟨hdocument, hfetched, hkept⟩

theorem save_eq_ok {file : Json} {vars : Option Json} {directory : String} {h h' : Host}
    {paths : List String} (hsave : (save file vars (.str directory)).on h = (.ok paths, h')) :
    Holds directory file vars h h' := by
  obtain ⟨path, _, hpath, hsave⟩ := Run.bind_eq_ok.1 hsave
  obtain ⟨rfl, rfl⟩ : directory = path ∧ h = _ := by simpa [pathOf] using hpath
  obtain ⟨_, _, hmake, hsave⟩ := Run.bind_eq_ok.1 hsave
  obtain ⟨made, hmade, rfl⟩ := change_eq_ok hmake
  obtain ⟨_, _, hwrite, hsave⟩ := Run.bind_eq_ok.1 hsave
  obtain ⟨written, hwritten, rfl⟩ := change_eq_ok hwrite
  obtain ⟨l, hl, hfile, rfl⟩ := write_eq_ok hwritten
  have hdocument := content?_put_self hfile (.file file.lines) hl
  cases vars with
  | none =>
    obtain ⟨-, rfl⟩ : _ ∧ _ = h' := by simpa using hsave
    refine ⟨hdocument, by simp, fun _ c hc => ?_⟩
    exact content?_put_of_ne hfile _ (fun hl' => places_ne hl hl' rfl) (makeStages_keeps hmade hc)
  | some v =>
    obtain ⟨_, _, hwrite', hend⟩ := Run.bind_eq_ok.1 hsave
    obtain ⟨written', hwritten', rfl⟩ := change_eq_ok hwrite'
    obtain ⟨m, hm, hfile', rfl⟩ := write_eq_ok hwritten'
    obtain ⟨-, rfl⟩ : _ ∧ _ = h' := by simpa using hend
    refine ⟨content?_put_of_ne hfile' _ (fun hm' => places_ne hm' hm rfl) hdocument, ?_, by simp⟩
    rintro _ ⟨⟩
    exact content?_put_self hfile' _ hm

end Snapshot

namespace Session

open Snapshot (Holds documentName variablesName variablesAt)

/-- What a snapshot fetches on a host: a file, and its variables if there are any. -/
def Fetches (given : Option String) (config : Json) (h : Host) (file : Json)
    (vars : Option Json) : Prop :=
  ∃ token key k, (Session.token config).on h = (.ok token, h) ∧
    (fileKey given config).on h = (.ok key, h) ∧ token.isTruthy = true ∧ key.isTruthy = true ∧
    (Remote.fetchDocument token key.display).on h = (.ok (.ok (file, vars)), k)

theorem snapshot_holds {given : Option String} {config file : Json} {vars : Option Json}
    {directory : String} {h h' : Host} (hdir : Config.snapshotDir config = .ok (.str directory))
    (hfetches : Fetches given config h file vars)
    (hsnapshot : (snapshot given config).on h = (.ok (), h')) :
    Holds directory file vars h h' := by
  obtain ⟨token, key, k, htoken, hkey, htruthy, htruthy', hfetch⟩ := hfetches
  rw [snapshot, bind_of_ok htoken, bind_of_ok hkey, htruthy, htruthy'] at hsnapshot
  obtain ⟨_, printed, hprint, hsnapshot⟩ := Run.bind_eq_ok.1 hsnapshot
  have hprinted : printed.fresh = h.fresh := (Observes.print _).fresh_eq hprint
  obtain ⟨k₁, hfetch₁, hfresh₁⟩ :=
    (Remote.fetchDocument_observes token key.display).on_congr hfetch hprinted.symm
  rw [bind_of_ok hfetch₁] at hsnapshot
  dsimp only at hsnapshot
  rw [bind_of_ok (lift_on_of_ok hdir k₁)] at hsnapshot
  obtain ⟨paths, k₂, hsave, hprintAll⟩ := Run.bind_eq_ok.1 hsnapshot
  have hfresh₂ : h'.fresh = k₂.fresh := (Observes.printAll _).fresh_eq hprintAll
  exact (Snapshot.save_eq_ok hsave).congr (hfresh₁.trans hprinted) hfresh₂.symm

/-- A document that is loaded after a snapshot is the one that was fetched, if variables were. If
they were not, it has the variables that lie in the directory, and those that did so before are
still there. -/
theorem loadDocument_of_snapshot {given : Option String} {config file : Json} {vars : Option Json}
    {directory : String} {h h' : Host} (hdir : Config.snapshotDir config = .ok (.str directory))
    (hfetches : Fetches given config h file vars)
    (hsnapshot : (snapshot given config).on h = (.ok (), h')) (hfile : file.IsReadBack)
    (hvars : ∀ v, vars = some v → v.IsReadBack) :
    let path := Path.join directory variablesName
    (∀ v, vars = some v →
      (loadDocument .unspecified config).on h' = ((Document.ofJson file v).map some, h')) ∧
    (vars = none → (loadDocument .unspecified config).on h' =
        ((variablesAt h'.files h'.workingDirectory path >>= Document.ofJson file).map some, h') ∧
      ∀ c, Files.content? h.files h.workingDirectory path = some c →
        variablesAt h'.files h'.workingDirectory path = c.data path) := by
  intro path
  have hholds := snapshot_holds hdir hfetches hsnapshot
  have hload := loadDocument_on hdir hholds.document
  rw [hfile.data, ok_bind] at hload
  refine ⟨?_, ?_⟩
  · rintro v rfl
    rw [hload, variablesAt, hholds.fetched v rfl]
    dsimp only
    rw [(hvars v rfl).data, ok_bind]
  · rintro rfl
    refine ⟨hload, fun c hc => ?_⟩
    rw [variablesAt, hholds.kept rfl c hc]

def rootFile : Json := .obj [("document", .obj [("id", .str "0")])]

/-- Access to the variables is refused. -/
def refusing (url : String) : Reply :=
  if url = Remote.variablesUrl "KEY" then .response 403 "Forbidden" ""
  else .response 200 "OK" "\x7b\"document\": \x7b\"id\": \"0\"\x7d\x7d"

/-- The variables cannot be fetched; a file of them may be there from before. -/
def refusedHost (older : Option String) : Host where
  files := [(["w"], .directory), (["w", ".figma-compgen"], .directory)] ++
    (older.map fun text => (["w", ".figma-compgen", "variables.json"], Content.file text)).toList
  workingDirectory := ["w"]
  token := some "t"
  network := refusing
  clock := ""
  printed := ""
  requests := []

def olderText : String :=
  "\x7b\"meta\": \x7b\"variableCollections\": \x7b\"c\": \x7b\x7d\x7d\x7d\x7d"

def olderVariables : Json := .obj [("meta", .obj [("variableCollections", .obj [("c", .obj [])])])]

theorem refusedHost_fetches (older : Option String) :
    Fetches (some "KEY") (.obj []) (refusedHost older) rootFile none := by
  have hfile : Remote.readReply (Remote.fileUrl "KEY") (refusing (Remote.fileUrl "KEY")) =
      .ok (.ok rootFile) := by
    rw [refusing, if_neg (by decide)]
    cbv
  have hvars : Remote.readReply (Remote.variablesUrl "KEY")
      (refusing (Remote.variablesUrl "KEY")) =
        .ok (.error (.status 403 "Forbidden" (Remote.variablesUrl "KEY"))) := by
    rw [refusing, if_pos rfl]
    rfl
  obtain ⟨k, hk⟩ : ∃ k, (Remote.fetchDocument (.str "t") "KEY").on (refusedHost older) =
      (.ok (.ok (rootFile, none)), k) := Remote.fetchDocument_of_refused hfile hvars
  exact ⟨.str "t", .str "KEY", k, rfl, rfl, rfl, rfl, hk⟩

/-- The older variables are loaded with the file that is newly fetched. -/
theorem loadDocument_of_snapshot_refused :
    ∃ h', (snapshot (some "KEY") (.obj [])).on (refusedHost (some olderText)) = (.ok (), h') ∧
      (loadDocument .unspecified (.obj [])).on h' =
        ((Document.ofJson rootFile olderVariables).map some, h') := by
  have hread : rootFile.IsReadBack := by
    unfold Json.IsReadBack
    cbv
  have hdata (path : String) : (Content.file olderText).data path = .ok olderVariables := by
    cbv
  obtain ⟨⟨⟩, hsnapshot⟩ := exists_ok (x := snapshot (some "KEY") (.obj []))
    (h := refusedHost (some olderText)) (by decide +kernel)
  refine ⟨_, hsnapshot, ?_⟩
  obtain ⟨-, hrefused⟩ := loadDocument_of_snapshot rfl
    (refusedHost_fetches (some olderText)) hsnapshot hread (by simp)
  obtain ⟨hload, hkept⟩ := hrefused rfl
  rw [hload, hkept (.file olderText) (by decide +kernel), hdata, ok_bind]

/-- The collections of the document that is loaded after a snapshot. -/
def collectionsAfter (h : Host) : Option String :=
  let after := snapshot (some "KEY") (.obj []) >>= fun _ => loadDocument .unspecified (.obj [])
  (after.on h).1.toOption.join.map fun d => d.collectionData.lines

/-- On two hosts that fetch the same, a snapshot leads to different documents. -/
theorem collectionsAfter_depends_on_older :
    Fetches (some "KEY") (.obj []) (refusedHost none) rootFile none ∧
      Fetches (some "KEY") (.obj []) (refusedHost (some olderText)) rootFile none ∧
      collectionsAfter (refusedHost none) = some "\x7b\x7d" ∧
      collectionsAfter (refusedHost (some olderText)) =
        some "\x7b\n  \"c\": \x7b\x7d\n\x7d" :=
  ⟨refusedHost_fetches _, refusedHost_fetches _, by decide +kernel, by decide +kernel⟩

end Session

end DesignComponents
