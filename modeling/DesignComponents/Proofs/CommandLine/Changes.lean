import DesignComponents.Proofs.Session.Changes
import DesignComponents.Proofs.Watch.Run

/-!
Which files a run of the program changes, for every command line and on every host.
-/

namespace DesignComponents.CommandLine

open Run
open Files (ChangesOnly nowhere)
open Session (Fetches answered outlineName saved)
open Watch (Turn)

/-- What a run that ends of itself has changed in the files. A run that is none of the commands
named, as one that shows variables, has changed nothing. -/
inductive Changes (args : List String) (ts : List Turn) (h h' : Host) : Prop
  | nothing (same : h'.files = h.files)
  | snapshot {path directory : String} {given : Option String} {config file : Json}
    {vars : Option Json} {k : Host}
    (command : parse args = .ok ⟨some path, .snapshot given⟩)
    (settings : (Config.load path).on h = (.ok config, k))
    (named : Config.snapshotDir config = .ok (.str directory))
    (fetched : Fetches given config k file vars)
    (only : h.files.ChangesOnly (Snapshot.IsPlace (Path.resolve h.workingDirectory directory))
      h'.files)
  | display {path directory : String} {sources : Sources} {nodeIds : List (Option String)}
    {config : Json} {os : List Outline} {k shown : Host}
    (command : parse args = .ok ⟨some path, .display sources nodeIds true⟩)
    (settings : (Config.load path).on h = (.ok config, k))
    (named : Config.snapshotDir config = .ok (.str directory))
    (completed : (answered .display sources nodeIds config).on k =
      (.ok (some (.outlines os)), shown))
    (unsaved : (perform ⟨some path, .display sources nodeIds false⟩ ts).on h =
      (.ok .normal, shown))
    (printed : h'.printed =
      shown.printed ++ ("📄 IR saved to " ++ Path.join directory outlineName) ++ "\n")
    (written : Files.at? h'.files (Path.resolve h.workingDirectory directory ++ [outlineName]) =
      some (.file (saved h.clock os).lines))
    (only : h.files.ChangesOnly
      (· = Path.resolve h.workingDirectory directory ++ [outlineName]) h'.files)
  | generate {path target source : String} {sources : Sources} {nodeIds : List (Option String)}
    {output : Option String} {config : Json} {k posted : Host}
    (command : parse args = .ok ⟨some path, .generate sources nodeIds output⟩)
    (settings : (Config.load path).on h = (.ok config, k))
    (given : Sources.given output = some target)
    (component : (answered .generate sources nodeIds config).on k =
      (.ok (some (.message (.component source))), posted))
    (printed : (perform ⟨some path, .generate sources nodeIds none⟩ ts).on h =
      (.ok .normal, { posted with printed := posted.printed ++ source ++ "\n" }))
    (written : Files.at? h'.files (Path.resolve h.workingDirectory target) = some (.file source))
    (only : h.files.ChangesOnly (· = Path.resolve h.workingDirectory target) h'.files)
  | watch {path : String} {files : Files}
    (command : parse args = .ok ⟨some path, .watch⟩)
    (made : h.files.ChangesOnly nowhere files)
    (others : h'.files = ts.foldl (fun files t => t.filesAfter files) files)

variable {args : List String} {ts : List Turn} {h h' : Host} {r : Finish}

theorem watch_changes {config : Json} {path : String} {w : Watch.Watching}
    (hrun : (Watch.run config path ts).on h = (.ok w, h')) :
    ∃ files, h.files.ChangesOnly nowhere files ∧
      h'.files = ts.foldl (fun files t => t.filesAfter files) files := by
  obtain ⟨w₁, h₁, hstart, hrest⟩ := Run.bind_eq_ok.1 hrun
  obtain ⟨w₂, h₂, hturns, hstop⟩ := Run.bind_eq_ok.1 hrest
  obtain ⟨directory, hstarts⟩ := Watch.start_starts hstart
  obtain ⟨-, hturned⟩ := (Watch.turns_prints w₁ ts h₁).of_on hturns
  obtain ⟨-, hstopped⟩ := (Watch.stop_prints w₂ h₂).of_on hstop
  have hnow := hstopped.trans hturned
  have hfiles : h'.fresh.files =
      (ts.foldl (fun s t => t.after s) (Watch.Surroundings.of h₁)).files := congrArg Host.files hnow
  exact ⟨h₁.files, hstarts.files, hfiles.trans (Turn.files_foldl_after ts _)⟩

theorem perform_changes {a : Arguments} (hargs : parse args = .ok a)
    (hx : (perform a ts).on h = (.ok r, h')) : Changes args ts h h' := by
  obtain ⟨path, config, k, hpath, hload, hact⟩ := perform_eq_ok hx
  obtain ⟨given, action⟩ := a
  obtain rfl : given = some path := hpath
  have hfiles := (Config.load_observes path).files_eq hload
  have hhere := (Config.load_observes path).here_eq hload
  cases action with
  | snapshot given =>
    obtain ⟨_, k', hrun, hend⟩ := Run.bind_eq_ok.1 hact
    obtain rfl : k' = h' := congrArg Prod.snd hend
    rcases Session.snapshot_changes hrun with hsame | ⟨file, vars, directory, hfetches, hdir, honly⟩
    · exact .nothing (hsame.trans hfiles)
    · rw [hfiles, hhere] at honly
      exact .snapshot hargs hload hdir hfetches honly
  | display sources nodeIds save =>
    obtain ⟨_, k', hrun, hend⟩ := Run.bind_eq_ok.1 hact
    obtain rfl : k' = h' := congrArg Prod.snd hend
    rcases Session.display_changes hrun with
      hsame | ⟨directory, os, l, rfl, hdir, hanswered, hshown, hprinted, hat, honly⟩
    · exact .nothing (hsame.trans hfiles)
    · rw [hfiles, hhere] at honly
      rw [hhere, (Config.load_observes path).clock_eq hload] at hat
      refine .display hargs hload hdir hanswered ?_ hprinted hat honly
      rw [perform_of_load hload, act, bind_of_ok hshown]
      rfl
  | debug sources =>
    obtain ⟨_, k', hrun, hend⟩ := Run.bind_eq_ok.1 hact
    obtain rfl : k' = h' := congrArg Prod.snd hend
    exact .nothing (((Session.debug_observes _ _).files_eq hrun).trans hfiles)
  | generate sources nodeIds output =>
    obtain ⟨_, k', hrun, hend⟩ := Run.bind_eq_ok.1 hact
    obtain rfl : k' = h' := congrArg Prod.snd hend
    rcases Session.generateCommand_changes hrun with
      hsame | ⟨target, source, l, hgiven, hposted, hprints, hat, honly⟩
    · exact .nothing (hsame.trans hfiles)
    · rw [hfiles, hhere] at honly
      rw [hhere] at hat
      refine .generate hargs hload hgiven hposted ?_ hat honly
      rw [perform_of_load hload, act, bind_of_ok hprints]
      rfl
  | watch =>
    obtain ⟨w, k', hrun, hend⟩ := Run.bind_eq_ok.1 hact
    obtain rfl : k' = h' := congrArg Prod.snd hend
    obtain ⟨files, hmade, hothers⟩ := watch_changes hrun
    exact .watch hargs (hfiles ▸ hmade) hothers
  | idle =>
    obtain ⟨_, k', hrun, hend⟩ := Run.bind_eq_ok.1 hact
    obtain rfl : k' = h' := congrArg Prod.snd hend
    exact .nothing (((Observes.print _).files_eq hrun).trans hfiles)

/-- A run of the program changes no files but those of its command, and these only when what is to
be written is complete. -/
theorem program_changes (hx : (program args ts).on h = (.ok r, h')) : Changes args ts h h' := by
  unfold program at hx
  split at hx
  case h_1 a hargs => exact perform_changes hargs hx
  case h_2 => exact .nothing (((Observes.print _).bind fun _ => .pure _).files_eq hx)
  case h_3 => exact .nothing (((Observes.print _).bind fun _ => .pure _).files_eq hx)
  case h_4 => exact .nothing ((Observes.pure _).files_eq hx)

theorem program_changes_snapshot :
    let args := ["snapshot", "--file-key", "KEY"]
    ∃ r h', (program args []).on (Session.refusedHost none) = (.ok r, h') ∧
      Changes args [] (Session.refusedHost none) h' ∧
      Files.at? h'.files ["w", ".figma-compgen", "document.json"] =
        some (.file Session.rootFile.lines) := by
  intro args
  obtain ⟨r, hx⟩ := exists_ok (x := program args []) (h := Session.refusedHost none)
    (by decide +kernel)
  exact ⟨r, _, hx, program_changes hx, by decide +kernel⟩

end DesignComponents.CommandLine
