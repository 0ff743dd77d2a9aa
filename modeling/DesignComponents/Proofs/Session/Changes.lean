import DesignComponents.Proofs.Host.Changes
import DesignComponents.Proofs.Session.Commands
import DesignComponents.Proofs.Session.Snapshot

/-!
What commands write. A snapshot writes its two files once they are fetched, a display the outlines
once they are shown, and a component goes to the output alone.
-/

namespace DesignComponents

open Run
open Files (ChangesOnly nowhere)

namespace Snapshot

/-- The places of the two files of a snapshot in a directory. -/
def IsPlace (directory l : Location) : Prop :=
  l = directory ++ [documentName] ∨ l = directory ++ [variablesName]

theorem save_changes {file v : Json} {vars : Option Json} {h h' : Host} {paths : List String}
    (hsave : (save file vars v).on h = (.ok paths, h')) :
    ∃ directory, v = .str directory ∧
      h.files.ChangesOnly (IsPlace (Path.resolve h.workingDirectory directory)) h'.files := by
  obtain ⟨directory, k, hpath, hmaking⟩ := Run.bind_eq_ok.1 hsave
  obtain ⟨rfl, rfl⟩ := pathOf_eq_ok hpath
  refine ⟨directory, rfl, ?_⟩
  obtain ⟨_, _, hmake, hwriting⟩ := Run.bind_eq_ok.1 hmaking
  obtain ⟨made, rfl, hmade⟩ := makeDirectories_eq_ok hmake
  obtain ⟨_, _, hwrite, hrest⟩ := Run.bind_eq_ok.1 hwriting
  obtain ⟨written, rfl, -, hwritten⟩ := writeText_eq_ok hwrite
  have hdocument : k.files.ChangesOnly
      (IsPlace (Path.resolve k.workingDirectory directory)) written := by
    refine (hmade.mono fun l hl => hl.elim).trans (hwritten.mono fun l hl => .inl ?_)
    exact hl.trans (Path.resolve_join _ _ isName_documentName)
  cases vars with
  | none =>
    obtain rfl : _ = h' := congrArg Prod.snd hrest
    exact hdocument
  | some v =>
    obtain ⟨_, _, hwrite', hend⟩ := Run.bind_eq_ok.1 hrest
    obtain ⟨written', rfl, -, hwritten'⟩ := writeText_eq_ok hwrite'
    obtain rfl : _ = h' := congrArg Prod.snd hend
    refine hdocument.trans (hwritten'.mono fun l hl => .inr ?_)
    exact hl.trans (Path.resolve_join _ _ isName_variablesName)

end Snapshot

namespace Session

theorem token_eq_ok {config token : Json} {h k : Host}
    (hx : (Session.token config).on h = (.ok token, k)) : k = h := by
  rw [Session.token, get_bind_on] at hx
  exact (lift_eq_ok hx).2.symm

theorem fileKey_eq_ok {given : Option String} {config key : Json} {h k : Host}
    (hx : (fileKey given config).on h = (.ok key, k)) : k = h := by
  unfold fileKey at hx
  split at hx
  · exact (congrArg Prod.snd hx).symm
  · obtain ⟨figma, k', hfigma, hx⟩ := Run.bind_eq_ok.1 hx
    obtain ⟨-, rfl⟩ := lift_eq_ok hfigma
    exact (lift_eq_ok hx).2.symm

/-- A snapshot changes its two files, and these only once a file is fetched. -/
theorem snapshot_changes {given : Option String} {config : Json} {h h' : Host}
    (hx : (snapshot given config).on h = (.ok (), h')) :
    h'.files = h.files ∨ ∃ file vars directory, Fetches given config h file vars ∧
      Config.snapshotDir config = .ok (.str directory) ∧
      h.files.ChangesOnly (Snapshot.IsPlace (Path.resolve h.workingDirectory directory))
        h'.files := by
  obtain ⟨token, k, htoken, hkeyed⟩ := Run.bind_eq_ok.1 hx
  obtain rfl := token_eq_ok htoken
  obtain ⟨key, k', hkey, hrest⟩ := Run.bind_eq_ok.1 hkeyed
  obtain rfl := fileKey_eq_ok hkey
  split at hrest
  case isTrue => exact .inl (((Observes.print _).bind fun _ => .print _).files_eq hrest)
  case isFalse htruthy =>
    split at hrest
    case isTrue => exact .inl ((Observes.print _).files_eq hrest)
    case isFalse htruthy' =>
      obtain ⟨_, k₁, hprint, hfetching⟩ := Run.bind_eq_ok.1 hrest
      obtain ⟨fetched, k₂, hfetch, hrest⟩ := Run.bind_eq_ok.1 hfetching
      have hlooks : Observes (Run.print ("📥 Snapshot Figma file: " ++ key.display) >>= fun _ =>
          Remote.fetchDocument token key.display) :=
        (Observes.print _).bind fun _ => Remote.fetchDocument_observes _ _
      have hlook := (bind_of_ok hprint fun _ => Remote.fetchDocument token key.display).trans hfetch
      have hfiles := hlooks.files_eq hlook
      have hhere := hlooks.here_eq hlook
      rcases fetched with e | ⟨file, vars⟩
      · exact .inl (((Observes.print _).files_eq hrest).trans hfiles)
      · right
        obtain ⟨k₃, hfetch₃, -⟩ := (Remote.fetchDocument_observes token key.display).on_congr
          hfetch ((Observes.print _).fresh_eq hprint)
        obtain ⟨v, k₄, hlift, hsaving⟩ := Run.bind_eq_ok.1 hrest
        obtain ⟨hdir, rfl⟩ := lift_eq_ok hlift
        obtain ⟨paths, k₅, hsave, hprintAll⟩ := Run.bind_eq_ok.1 hsaving
        obtain ⟨directory, rfl, hchanges⟩ := Snapshot.save_changes hsave
        rw [hfiles, hhere, ← (Observes.printAll _).files_eq hprintAll] at hchanges
        refine ⟨file, vars, directory, ?_, hdir, hchanges⟩
        exact ⟨token, key, k₃, htoken, hkey, by simpa using htruthy, by simpa using htruthy',
          hfetch₃⟩

theorem isName_outlineName : Path.IsName outlineName :=
  ⟨by decide, by decide, by decide, by decide⟩

/-- What is saved of outlines at a time. -/
def saved (clock : String) (os : List Outline) : Json :=
  .obj [("generatedAt", .str clock), ("roots", .arr (os.map Outline.toJson))]

theorem saveOutlines_eq_ok {os : List Outline} {v : Json} {path : String} {h h' : Host}
    (hx : (saveOutlines os v).on h = (.ok path, h')) :
    ∃ directory files, v = .str directory ∧ path = Path.join directory outlineName ∧
      h' = h.holding files ∧
      Files.content? files h.workingDirectory path = some (.file (saved h.clock os).lines) ∧
      h.files.ChangesOnly (· = Path.resolve h.workingDirectory directory ++ [outlineName])
        files := by
  obtain ⟨directory, k, hpath, hmaking⟩ := Run.bind_eq_ok.1 hx
  obtain ⟨rfl, rfl⟩ := pathOf_eq_ok hpath
  obtain ⟨_, _, hmake, hwriting⟩ := Run.bind_eq_ok.1 hmaking
  obtain ⟨made, rfl, hmade⟩ := makeDirectories_eq_ok hmake
  rw [get_bind_on] at hwriting
  obtain ⟨_, _, hwrite, hend⟩ := Run.bind_eq_ok.1 hwriting
  obtain ⟨written, rfl, hcontent, hwritten⟩ := writeText_eq_ok hwrite
  obtain ⟨rfl, rfl⟩ : _ = path ∧ _ = h' := by simpa using hend
  refine ⟨directory, written, rfl, rfl, rfl, hcontent, ?_⟩
  refine (hmade.mono fun l hl => hl.elim).trans (hwritten.mono fun l hl => ?_)
  exact hl.trans (Path.resolve_join _ _ isName_outlineName)

/-- A display changes the file of outlines, and this only once all of it is shown. -/
theorem display_changes {sources : Sources} {nodeIds : List (Option String)} {save : Bool}
    {config : Json} {h h' : Host}
    (hx : (display sources nodeIds save config).on h = (.ok (), h')) :
    h'.files = h.files ∨ ∃ directory os k, save = true ∧
      Config.snapshotDir config = .ok (.str directory) ∧
      (answered .display sources nodeIds config).on h = (.ok (some (.outlines os)), k) ∧
      (display sources nodeIds false config).on h = (.ok (), k) ∧
      h'.printed = k.printed ++ ("📄 IR saved to " ++ Path.join directory outlineName) ++ "\n" ∧
      Files.at? h'.files (Path.resolve h.workingDirectory directory ++ [outlineName]) =
        some (.file (saved h.clock os).lines) ∧
      h.files.ChangesOnly (· = Path.resolve h.workingDirectory directory ++ [outlineName])
        h'.files := by
  rw [display_eq] at hx
  obtain ⟨a, k, hanswered, hx⟩ := Run.bind_eq_ok.1 hx
  have hobserves := answered_observes .display sources nodeIds config
  have hfiles := hobserves.files_eq hanswered
  have hhere := hobserves.here_eq hanswered
  have hpure (hstay : (pure () : Run Unit).on k = (.ok (), h')) : h'.files = h.files := by
    obtain rfl : k = h' := congrArg Prod.snd hstay
    exact hfiles
  rcases a with _ | (os | cs | m)
  · exact .inl (hpure hx)
  · cases save with
    | false => exact .inl (hpure hx)
    | true =>
      right
      obtain ⟨v, k', hlift, hsaving⟩ := Run.bind_eq_ok.1 hx
      obtain ⟨hdir, rfl⟩ := lift_eq_ok hlift
      obtain ⟨path, k₁, hsave, hprint⟩ := Run.bind_eq_ok.1 hsaving
      obtain ⟨directory, files, rfl, rfl, rfl, hcontent, hchanges⟩ := saveOutlines_eq_ok hsave
      obtain rfl : _ = h' := congrArg Prod.snd hprint
      have hat := Files.at?_of_content? hcontent
      rw [Path.resolve_join _ _ isName_outlineName, hhere, hobserves.clock_eq hanswered] at hat
      rw [hfiles, hhere] at hchanges
      refine ⟨directory, os, k, rfl, hdir, hanswered, ?_, rfl, hat, hchanges⟩
      rw [display_eq, bind_of_ok hanswered]
      rfl
  · exact .inl (hpure hx)
  · exact .inl (hpure hx)

/-- A component that is posted goes to the output, and nothing else does. -/
theorem generateCommand_changes {sources : Sources} {nodeIds : List (Option String)}
    {output : Option String} {config : Json} {h h' : Host}
    (hx : (generateCommand sources nodeIds output config).on h = (.ok (), h')) :
    h'.files = h.files ∨ ∃ path source k, Sources.given output = some path ∧
      (answered .generate sources nodeIds config).on h =
        (.ok (some (.message (.component source))), k) ∧
      (generateCommand sources nodeIds none config).on h =
        (.ok (), { k with printed := k.printed ++ source ++ "\n" }) ∧
      Files.at? h'.files (Path.resolve h.workingDirectory path) = some (.file source) ∧
      h.files.ChangesOnly (· = Path.resolve h.workingDirectory path) h'.files := by
  rw [generateCommand_eq] at hx
  obtain ⟨a, k, hanswered, hx⟩ := Run.bind_eq_ok.1 hx
  have hobserves := answered_observes .generate sources nodeIds config
  have hfiles := hobserves.files_eq hanswered
  have hhere := hobserves.here_eq hanswered
  have hpure (hstay : (pure () : Run Unit).on k = (.ok (), h')) : h'.files = h.files := by
    obtain rfl : k = h' := congrArg Prod.snd hstay
    exact hfiles
  rcases a with _ | (os | cs | (source | text))
  · exact .inl (hpure hx)
  · exact .inl (hpure hx)
  · exact .inl (hpure hx)
  · obtain ⟨_, k', hdeliver, hend⟩ := Run.bind_eq_ok.1 hx
    obtain rfl : k' = h' := congrArg Prod.snd hend
    cases hgiven : Sources.given output with
    | none =>
      rw [deliver, hgiven] at hdeliver
      exact .inl (((Observes.print _).files_eq hdeliver).trans hfiles)
    | some path =>
      right
      simp only [deliver, hgiven] at hdeliver
      obtain ⟨_, _, hprovide, hdeliver⟩ := Run.bind_eq_ok.1 hdeliver
      obtain ⟨made, rfl, hmade⟩ := provideDirectories_eq_ok hprovide
      obtain ⟨_, _, hwrite, hprint⟩ := Run.bind_eq_ok.1 hdeliver
      obtain ⟨written, rfl, hcontent, hwritten⟩ := writeText_eq_ok hwrite
      have hat := Files.at?_of_content? hcontent
      obtain rfl : _ = k' := congrArg Prod.snd hprint
      have hchanges := (hmade.mono fun l hl => hl.elim).trans hwritten
      rw [hfiles] at hchanges
      rw [Path.resolve_tidy] at hchanges hat
      change Files.at? _ (Path.resolve k.workingDirectory path) = _ at hat
      change h.files.ChangesOnly (· = Path.resolve k.workingDirectory path) _ at hchanges
      rw [hhere] at hat hchanges
      refine ⟨path, source, k, rfl, hanswered, ?_, hat, hchanges⟩
      rw [generateCommand_eq, bind_of_ok hanswered]
      rfl
  · obtain ⟨_, k', hdeliver, hend⟩ := Run.bind_eq_ok.1 hx
    obtain rfl : k' = h' := congrArg Prod.snd hend
    exact .inl (((Observes.print _).files_eq hdeliver).trans hfiles)

end Session

end DesignComponents
