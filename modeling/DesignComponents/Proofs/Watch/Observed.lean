import DesignComponents.Proofs.Session.Changes
import DesignComponents.Proofs.Watch.Debounce
import DesignComponents.Proofs.Watch.Run

/-!
The directories in which a watch notices changes. They are those of its start, so a dump whose
settings name another directory is made from files whose changes are not noticed.
-/

namespace DesignComponents.Watch

open Run
open CommandLine (parse program)
open Snapshot (documentName variablesName variablesAt)

namespace Handler

variable {g : Handler} {watched : List String} {ss : List Step} {path : String}

/-- A change of a watched file brings a call as soon as time passes. -/
theorem Follows.elapse_notice (hf : Follows watched ss g) (hpath : Path.baseName path ∈ watched) :
    (g.notice ⟨path, false⟩).elapse.calls = g.calls ++ [some path] := by
  have hchange : Step.change? watched (.event ⟨path, false⟩) = some path := by
    simp [Step.change?, hpath]
  rw [(hf.notice _).elapse_calls, sinceQuiet_concat_event, lastChange?_concat, hchange,
    notice_calls]
  rfl

theorem Follows.notices (hf : Follows watched ss g) (es : List Event) :
    ∃ ss', Follows watched ss' (es.foldl Handler.notice g) := by
  induction es generalizing g ss with
  | nil => exact ⟨ss, hf⟩
  | cons e es ih => exact ih (hf.notice e)

theorem Follows.turn (hf : Follows watched ss g) (t : Turn) :
    ∃ ss', Follows watched ss' (t.handlerAfter g) := by
  obtain ⟨ss', hnoticed⟩ := hf.notices t.events
  rw [Turn.handlerAfter]
  split
  · have hstep : Follows watched (ss' ++ [.elapse])
        ((t.noticed g).step (fun _ => .finished) .elapse).1 := hnoticed.step .elapse
    exact ⟨_, hstep⟩
  · exact ⟨ss', hnoticed⟩

theorem Follows.turns (hf : Follows watched ss g) (ts : List Turn) :
    ∃ ss', Follows watched ss' (ts.foldl (fun handler t => t.handlerAfter handler) g) := by
  induction ts generalizing g ss with
  | nil => exact ⟨ss, hf⟩
  | cons t ts ih =>
    obtain ⟨ss', ht⟩ := hf.turn t
    exact ih ht

end Handler

variable {h : Host}

theorem started_directories (directory configPath : Location) (debounce : Double) (l : Location) :
    l ∈ (started directory configPath debounce).directories ↔
      l = directory ∨ l = configPath.parent := by
  unfold started
  dsimp only
  split
  case isTrue hsame => simp [← hsame]
  case isFalse => simp

/-- What a watch observes, and what its dumps are made from. The directories are those of the
settings at the start; at each dump the settings name a directory anew. -/
structure Schedules (args : List String) (path : String) (h : Host) (w : Watching)
    (directory : String) : Prop where
  settings : ∃ config k, (Config.load path).on h = (.ok config, k) ∧
    Config.snapshotDir config = .ok (.str directory)
  directories : ∀ l, l ∈ w.directories ↔
    l = Path.resolve h.workingDirectory directory ∨ l = w.configPath.parent
  throughout : ∀ ts : List Turn, ∃ w' h', (program args ts).on h = (.ok ⟨none, some w'⟩, h') ∧
    w'.directories = w.directories
  reads : ∀ {k k' : Host} {config : Json} {now : String} {c : Content},
    (Config.load w.configPath.text).on k = (.ok config, k') →
    Config.snapshotDir config = .ok (.str now) →
    Files.content? k.files k.workingDirectory (Path.join now documentName) = some c →
    (Session.loadDocument .unspecified config).on k' = ((do
      let file ← c.data (Path.join now documentName)
      let vars ← variablesAt k.files k.workingDirectory (Path.join now variablesName)
      Document.ofJson file vars).map some, k')
  places : ∀ {files : Files} {now name : String} {l : Location},
    name ∈ [documentName, variablesName] →
    Files.locate files h.workingDirectory (Path.join now name) = .ok l →
    l = Path.resolve h.workingDirectory now ++ [name]
  notices : ∀ (ts : List Turn) (l : Location) {name : String},
    name ∈ [documentName, variablesName] →
    let g := ts.foldl (fun handler t => t.handlerAfter handler) w.handler
    (g.notice ⟨(l ++ [name]).text, false⟩).elapse.calls = g.calls ++ [some (l ++ [name]).text]

theorem isName_of_mem {name : String} (hname : name ∈ [documentName, variablesName]) :
    Path.IsName name := by
  rcases List.mem_pair.1 hname with rfl | rfl
  · exact Snapshot.isName_documentName
  · exact Snapshot.isName_variablesName

theorem program_schedules {args : List String} {path : String} {w : Watching} {h₁ : Host}
    (hargs : parse args = .ok ⟨some path, .watch⟩) (hloop : (reachLoop path).on h = (.ok w, h₁)) :
    ∃ directory, Schedules args path h w directory := by
  obtain ⟨config, k, hload, hstart⟩ := Run.bind_eq_ok.1 hloop
  obtain ⟨directory, hstarts⟩ := start_starts hstart
  obtain ⟨debounce, rfl⟩ := hstarts.watching
  have hhere := (Config.load_observes path).here_eq hload
  refine ⟨directory, ⟨config, k, hload, hstarts.settings⟩, ?_, ?_, ?_, ?_, ?_⟩
  · intro l
    rw [started_directories, hhere]
    rfl
  · intro ts
    obtain ⟨h₂, hprogram, -⟩ := program_goesOn hargs hloop ts
    exact ⟨_, h₂, hprogram, rfl⟩
  · intro k k' config now c hload hnow hc
    rw [← (Config.load_observes _).files_eq hload, ← (Config.load_observes _).here_eq hload] at hc ⊢
    exact Session.loadDocument_on hnow hc
  · intro files now name l hname hl
    rw [Files.eq_resolve_of_locate hl, Path.resolve_join _ _ (isName_of_mem hname)]
  · intro ts l name hname g
    obtain ⟨ss, hf⟩ := (Handler.start_follows (watchedNames (Path.resolve k.workingDirectory path))
      (.double debounce)).turns ts
    apply hf.elapse_notice
    rw [Path.baseName_text l (isName_of_mem hname).slash, watchedNames]
    rcases List.mem_pair.1 hname with rfl | rfl <;> simp

/-- Two snapshots of a frame, in the default directory and in another one. -/
def movedHost : Host where
  files := [(["w"], .directory),
    (["w", "figma-compgen.config.json"],
      .file "\x7b\"selection\": \x7b\"nodeIds\": [\"1\"]\x7d\x7d"),
    (["w", ".figma-compgen"], .directory),
    (["w", ".figma-compgen", "document.json"],
      .file "\x7b\"document\": \x7b\"id\": \"1\", \"type\": \"FRAME\", \"name\": \"Old\"\x7d\x7d"),
    (["w", "other"], .directory),
    (["w", "other", "document.json"],
      .file "\x7b\"document\": \x7b\"id\": \"1\", \"type\": \"FRAME\", \"name\": \"New\"\x7d\x7d")]
  workingDirectory := ["w"]
  token := none
  network := fun _ => .unreachable ""
  clock := ""
  printed := ""
  requests := []

/-- The settings are rewritten so that they name the other directory. -/
def moving : Turn where
  writes := [(["w", "figma-compgen.config.json"],
    "\x7b\"selection\": \x7b\"nodeIds\": [\"1\"]\x7d, \"export\": \x7b\"snapshotDir\": \"other\"\x7d\x7d")]
  deletes := []
  events := [⟨"figma-compgen.config.json", false⟩]
  elapses := true

theorem program_schedules_moved :
    ∃ w h₁ directory, (reachLoop Config.defaultPath).on movedHost = (.ok w, h₁) ∧
      Schedules ["watch"] Config.defaultPath movedHost w directory := by
  obtain ⟨w, hloop⟩ := exists_ok (x := reachLoop Config.defaultPath) (h := movedHost)
    (by decide +kernel)
  have hargs : parse ["watch"] = .ok ⟨some Config.defaultPath, .watch⟩ := rfl
  obtain ⟨directory, hs⟩ := program_schedules hargs hloop
  exact ⟨w, _, directory, hloop, hs⟩

/-- The directories observed in a watch, and what it prints. -/
def observations (ts : List Turn) (h : Host) : Option (List Location) × String :=
  let after := (program ["watch"] ts).on h
  (after.1.toOption.bind fun r => r.watching.map Watching.directories, after.2.printed)

/-- A dump is made from a directory that is not observed. -/
theorem dump_not_observed :
    observations [moving] movedHost = (some [["w", ".figma-compgen"], ["w"]],
      "👀 Watching '/w/.figma-compgen' and 'figma-compgen.config.json' for changes...\n" ++
      "   Press Ctrl+C to stop.\n-Old\x7b\x7d\n\n🔄 Changed: figma-compgen.config.json\n" ++
      "-New\x7b\x7d\n\n👋 Stopping watch...\n") := by
  decide +kernel

end DesignComponents.Watch
