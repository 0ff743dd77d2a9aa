import DesignComponents.Proofs.Host.Changes
import DesignComponents.Proofs.Host.Printed
import DesignComponents.Proofs.Watch.Dump

/-!
What a whole watch prints. It is put together from dumps, each made on the files and with the
answers of the network of its moment, and it goes on after every one of them.
-/

namespace DesignComponents

namespace Watch

open Run

variable {h k : Host} {configPath : Location}

theorem attempt_on (x : Run Unit) (h : Host) :
    (attempt x).on h = (.ok (.ofResult (x.on h).1), (x.on h).2) := by
  change (match x.on h with | (.ok _, k) => _ | (.error e, k) => _) = _
  rcases x.on h with ⟨e | _, k⟩ <;> rfl

theorem attempt_prints (configPath : Location) (h : Host) :
    Prints (attempt (dump configPath)) h (dumped configPath h).1 (dumped configPath h).2 h := by
  have hnow := dump_observes configPath h
  have hending : Ending.ofResult ((dump configPath).on h).1 = (dumped configPath h).1 := by
    rw [hnow, dumped]
  have htext : ((dump configPath).on h).2.printed = h.printed ++ (dumped configPath h).2 := by
    rw [hnow, dumped, Host.followedBy]
  have hfresh : ((dump configPath).on h).2.fresh = h.fresh := by
    rw [hnow, Host.fresh_followedBy]
  exact ⟨_, hending ▸ attempt_on _ h, htext, hfresh⟩

/-- The text of a dump after a change. -/
def dumpText (path : Option String) (d : Ending × String) : String :=
  changedText path ++ "\n" ++ (d.2 ++ linesOf d.1.report)

theorem dumps_prints (configPath : Location) (path : Option String) (n : Nat) (h : Host) :
    Prints (dumps configPath path n) h ()
      (String.join (List.replicate n (dumpText path (dumped configPath h)))) h := by
  induction n generalizing h with
  | zero => exact .pure () h
  | succ n ih =>
    rw [List.replicate_succ, String.join_cons, dumpText, String.append_assoc]
    apply (Prints.print _ h).bind
    intro k₁ hk₁
    have hd₁ : dumped configPath k₁ = dumped configPath h := dumped_congr hk₁
    rw [String.append_assoc, ← hd₁]
    apply (attempt_prints configPath k₁).bind
    intro k₂ hk₂
    apply (Prints.printAll _ k₂).bind
    intro k₃ hk₃
    have hfresh := hk₃.trans (hk₂.trans hk₁)
    rw [hd₁, ← dumped_congr hfresh]
    exact (ih k₃).congr hfresh

/-! ### Turns -/

/-- What others may change of a host: its files, and what the network answers. -/
structure Surroundings where
  files : Files
  network : Request → Reply

def Surroundings.of (h : Host) : Surroundings := ⟨h.files, h.network⟩

/-- The host in other surroundings. -/
def Surroundings.around (s : Surroundings) (h : Host) : Host :=
  { h with files := s.files, network := s.network }

theorem Surroundings.fresh_around_congr (s : Surroundings) (hfresh : k.fresh = h.fresh) :
    (s.around k).fresh = (s.around h).fresh :=
  congrArg s.around hfresh

namespace Turn

def filesAfter (t : Turn) (files : Files) : Files :=
  t.deletes.foldl Files.remove (t.writes.foldl (fun fs f => Files.place fs f.1 f.2) files)

def after (t : Turn) (s : Surroundings) : Surroundings :=
  ⟨t.filesAfter s.files, t.network.getD s.network⟩

theorem files_foldl_after (ts : List Turn) (s : Surroundings) :
    (ts.foldl (fun s t => t.after s) s).files =
      ts.foldl (fun files t => t.filesAfter files) s.files := by
  rw [List.foldl_hom Surroundings.files]
  intro s t
  rfl

def noticed (t : Turn) (handler : Handler) : Handler := t.events.foldl Handler.notice handler

def handlerAfter (t : Turn) (handler : Handler) : Handler :=
  if t.elapses then (t.noticed handler).elapse else t.noticed handler

/-- How many dumps are due in a turn. -/
def due (t : Turn) (handler : Handler) : Nat :=
  if t.elapses then (t.noticed handler).timers.countP Timer.pending else 0

end Turn

/-- When a dump is made: the change before it, and the surroundings at that time. -/
structure Moment where
  change : Option String
  surroundings : Surroundings

def moments (s : Surroundings) (handler : Handler) : List Turn → List Moment
  | [] => []
  | t :: ts =>
    List.replicate (t.due handler) ⟨(t.noticed handler).lastPath, t.after s⟩ ++
      moments (t.after s) (t.handlerAfter handler) ts

/-- What is printed for a dump that is made on the host at another time. -/
def Moment.text (configPath : Location) (h : Host) (m : Moment) : String :=
  dumpText m.change (dumped configPath (m.surroundings.around h))

theorem Moment.text_congr {s : Surroundings} (hfresh : k.fresh = (s.around h).fresh) :
    Moment.text configPath k = Moment.text configPath h := by
  funext m
  rw [text, text, dumped_congr (m.surroundings.fresh_around_congr hfresh)]
  rfl

theorem turn_prints (w : Watching) (t : Turn) (h : Host) :
    Prints (turn w t) h { w with handler := t.handlerAfter w.handler }
      (String.join ((List.replicate (t.due w.handler)
        ⟨(t.noticed w.handler).lastPath, t.after (.of h)⟩).map (Moment.text w.configPath h)))
      ((t.after (.of h)).around h) := by
  have hchange : (modify t.change : Run Unit).Prints h () "" ((t.after (.of h)).around h) :=
    ⟨_, modify_on _ h, by simp [Turn.change], rfl⟩
  rw [← String.empty_append (s := String.join _)]
  apply hchange.bind
  intro k hk
  cases helapses : t.elapses with
  | false =>
    simp only [Turn.handlerAfter, Turn.due, helapses, Bool.false_eq_true, if_false]
    exact (Prints.pure _ k).congr hk
  | true =>
    simp only [Turn.handlerAfter, Turn.due, helapses, if_true]
    rw [List.map_replicate, Moment.text, ← dumped_congr hk,
      ← String.append_empty (s := String.join _)]
    apply (dumps_prints w.configPath _ _ k).bind
    intro k' hk'
    exact (Prints.pure _ k').congr (hk'.trans hk)

theorem turns_prints (w : Watching) (ts : List Turn) (h : Host) :
    Prints (turns w ts) h
      { w with handler := ts.foldl (fun handler t => t.handlerAfter handler) w.handler }
      (String.join ((moments (.of h) w.handler ts).map (Moment.text w.configPath h)))
      ((ts.foldl (fun s t => t.after s) (Surroundings.of h)).around h) := by
  induction ts generalizing w h with
  | nil => exact .pure w h
  | cons t ts ih =>
    rw [moments, List.map_append, String.join_append]
    apply (turn_prints w t h).bind
    intro k hk
    have hnow : Surroundings.of k = t.after (.of h) := congrArg Surroundings.of hk
    have hrest := ih { w with handler := t.handlerAfter w.handler } k
    rw [hnow, Moment.text_congr hk] at hrest
    exact hrest.congr ((Surroundings.fresh_around_congr _ hk).trans rfl)

/-! ### From the start to the end -/

def Ending.initialReport : Ending → List String
  | .failed message => ["   ⚠️  Initial dump failed: " ++ message]
  | _ => []

/-- The text of the dump at the start. -/
def initialText (d : Ending × String) : String := d.2 ++ linesOf d.1.initialReport

def opening (directory configPath : Location) : List String :=
  ["👀 Watching '" ++ directory.text ++ "' and '" ++ configPath.name ++ "' for changes...",
    "   Press Ctrl+C to stop."]

/-- The dump at the start and the lines around it. -/
def announce (directory configPath : Location) : Run Unit := do
  printAll (opening directory configPath)
  let ending ← attempt (dump configPath)
  printAll ending.initialReport

theorem announce_prints (directory configPath : Location) (h : Host) :
    Prints (announce directory configPath) h ()
      (linesOf (opening directory configPath) ++ initialText (dumped configPath h)) h := by
  apply (Prints.printAll _ h).bind
  intro k hk
  rw [initialText, ← dumped_congr hk]
  apply (attempt_prints configPath k).bind
  intro k' hk'
  exact (Prints.printAll _ k').congr (hk'.trans hk)

def started (directory configPath : Location) (debounce : Double) : Watching where
  configPath := configPath
  directories :=
    if directory = configPath.parent then [directory] else [directory, configPath.parent]
  handler := .start (watchedNames configPath) (.double debounce)

theorem start_eq (config : Json) (path : String) :
    start config path = (do
      let configPath ← resolve path
      let directory ← resolve (← pathOf (← Config.snapshotDir config))
      provideDirectories directory.text
      announce directory configPath
      let debounce ← Config.debounceSeconds config
      pure (started directory configPath debounce)) := by
  refine bind_congr fun configPath => ?_
  refine bind_congr fun v => ?_
  refine bind_congr fun s => ?_
  refine bind_congr fun directory => ?_
  refine bind_congr fun _ => ?_
  simp only [announce, opening, printAll, bind_assoc, pure_bind]
  refine bind_congr fun _ => ?_
  refine bind_congr fun _ => ?_
  refine bind_congr fun ending => ?_
  cases ending with
  | failed message =>
    simp only [Ending.initialReport, printAll, bind_assoc, pure_bind]
    rfl
  | _ => rfl

/-- A watch up to its loop, with the settings that it reads first. -/
def reachLoop (path : String) : Run Watching := do
  let config ← Config.load path
  start config path

theorem resolve_eq_ok {path : String} {l : Location} (h₁ : (resolve path).on h = (.ok l, k)) :
    l = Path.resolve h.workingDirectory path ∧ k = h := by
  unfold resolve at h₁
  split at h₁
  · cases h₁
  · have hend : (Except.ok (Path.resolve h.workingDirectory path), h) = (.ok l, k) := h₁
    simpa [eq_comm] using hend

/-- What is known once a watch has come to its loop. -/
structure Starts (config : Json) (path : String) (h : Host) (w : Watching) (h₁ : Host)
    (directory : String) : Prop where
  settings : Config.snapshotDir config = .ok (.str directory)
  watching : ∃ debounce, w = started (Path.resolve h.workingDirectory directory)
    (Path.resolve h.workingDirectory path) debounce
  printed : h₁.printed = h.printed ++ (linesOf (opening (Path.resolve h.workingDirectory directory)
    w.configPath) ++ initialText (dumped w.configPath h₁))
  now : h₁.fresh = (h.holding h₁.files).fresh
  files : h.files.ChangesOnly Files.nowhere h₁.files

theorem start_starts {config : Json} {path : String} {w : Watching} {h₁ : Host}
    (hstart : (start config path).on h = (.ok w, h₁)) :
    ∃ directory, Starts config path h w h₁ directory := by
  rw [start_eq] at hstart
  obtain ⟨configPath, k, hpath, hstart⟩ := Run.bind_eq_ok.1 hstart
  obtain ⟨rfl, rfl⟩ := resolve_eq_ok hpath
  obtain ⟨v, k', hlift, hstart⟩ := Run.bind_eq_ok.1 hstart
  obtain ⟨hdir, rfl⟩ := lift_eq_ok hlift
  obtain ⟨s, k, hs, hresolving⟩ := Run.bind_eq_ok.1 hstart
  obtain ⟨rfl, rfl⟩ := pathOf_eq_ok hs
  obtain ⟨directory, k', hdirectory, hproviding⟩ := Run.bind_eq_ok.1 hresolving
  obtain ⟨rfl, rfl⟩ := resolve_eq_ok hdirectory
  obtain ⟨_, provided, hprovide, hstart⟩ := Run.bind_eq_ok.1 hproviding
  obtain ⟨files, rfl, hchanges⟩ := provideDirectories_eq_ok hprovide
  obtain ⟨_, announced, hannounce, hstart⟩ := Run.bind_eq_ok.1 hstart
  obtain ⟨hprinted, hfresh⟩ := (announce_prints _ _ _).of_on hannounce
  obtain ⟨debounce, k', hdebounce, hend⟩ := Run.bind_eq_ok.1 hstart
  obtain ⟨-, rfl⟩ := lift_eq_ok hdebounce
  obtain ⟨rfl, rfl⟩ : started _ _ debounce = w ∧ announced = h₁ := by simpa using hend
  have hfiles : announced.files = files := congrArg Host.files hfresh
  refine ⟨s, hdir, ⟨debounce, rfl⟩, ?_, ?_, hfiles ▸ hchanges⟩
  · rw [← dumped_congr hfresh] at hprinted
    exact hprinted
  · rw [hfresh, hfiles]

theorem start_eq_ok {config : Json} {path : String} {w : Watching} {h₁ : Host}
    (hstart : (start config path).on h = (.ok w, h₁)) :
    w.configPath = Path.resolve h.workingDirectory path ∧
      (∃ directory, w.directories.head? = some directory ∧ h₁.printed = h.printed ++
        (linesOf (opening directory w.configPath) ++ initialText (dumped w.configPath h₁))) ∧
      h₁.fresh = (h.holding h₁.files).fresh := by
  obtain ⟨s, hs⟩ := start_starts hstart
  obtain ⟨debounce, rfl⟩ := hs.watching
  refine ⟨rfl, ⟨_, ?_, hs.printed⟩, hs.now⟩
  rw [started]
  split <;> rfl

open CommandLine (Finish parse perform program program_of_parse)

theorem stop_prints (w : Watching) (h : Host) :
    Prints (stop w) h { w with handler := w.handler.cancel } "\n👋 Stopping watch...\n" h := by
  have htext : "\n👋 Stopping watch...\n" = "\n👋 Stopping watch..." ++ "\n" ++ "" := rfl
  rw [htext]
  exact (Prints.print _ h).bind fun k hk => (Prints.pure _ k).congr hk

theorem perform_watch (path : String) (ts : List Turn) :
    perform ⟨some path, .watch⟩ ts =
      (reachLoop path >>= fun w => turns w ts >>= stop) >>= fun w => pure ⟨none, some w⟩ := by
  rw [CommandLine.perform_eq, reachLoop]
  simp only [CommandLine.act, run, bind_assoc]

/-- Once it has come to its loop, a watch goes on up to its end. -/
theorem program_goesOn {args : List String} {path : String} {w : Watching} {h₁ : Host}
    (hargs : parse args = .ok ⟨some path, .watch⟩) (hloop : (reachLoop path).on h = (.ok w, h₁))
    (ts : List Turn) :
    let last := ts.foldl (fun handler t => t.handlerAfter handler) w.handler
    ∃ h₂, (program args ts).on h = (.ok ⟨none, some { w with handler := last.cancel }⟩, h₂) ∧
      h₂.printed = h₁.printed ++
        (String.join ((moments (.of h₁) w.handler ts).map (Moment.text w.configPath h₁)) ++
          "\n👋 Stopping watch...\n") := by
  intro last
  obtain ⟨h₂, hon, htext, -⟩ := (turns_prints w ts h₁).bind fun k hk => (stop_prints _ k).congr hk
  have hrun := (bind_of_ok hloop fun w => turns w ts >>= stop).trans hon
  have hprogram := bind_of_ok hrun fun w => (pure ⟨none, some w⟩ : Run Finish)
  rw [← perform_watch, ← program_of_parse hargs] at hprogram
  exact ⟨h₂, hprogram, htext⟩

/-- A watch from its first dump on: what the dumps print depends only on the files of their moments
and on what the network answers then, each of them does what a display does at that moment, and the
watch goes on up to its end. -/
structure Redraws (args : List String) (path : String) (h : Host) (w : Watching) (h₁ : Host) :
    Prop where
  now : h₁.fresh = (h.holding h₁.files).fresh
  opens : ∃ directory, w.directories.head? = some directory ∧
    h₁.printed = ((Config.load path).on h).2.printed ++
      (linesOf (opening directory w.configPath) ++ initialText (dumped w.configPath h₁))
  goesOn : ∀ ts, ∃ w' h₂, (program args ts).on h = (.ok ⟨none, some w'⟩, h₂) ∧
    h₂.printed = h₁.printed ++
      (String.join ((moments (.of h₁) w.handler ts).map (Moment.text w.configPath h₁)) ++
        "\n👋 Stopping watch...\n")
  mirrors : ∀ k, Mirrors w.configPath w.configPath.text k
  mirrorsGiven : ∀ k : Host, k.workingDirectory = h.workingDirectory →
    Files.Expands k.files k.workingDirectory path → Mirrors w.configPath path k

theorem program_redraws {args : List String} {path : String} {w : Watching} {h₁ : Host}
    (hargs : parse args = .ok ⟨some path, .watch⟩) (hloop : (reachLoop path).on h = (.ok w, h₁)) :
    Redraws args path h w h₁ := by
  obtain ⟨config, k, hload, hstart⟩ := Run.bind_eq_ok.1 hloop
  obtain ⟨hpath, ⟨directory, hdirectory, hprinted⟩, hfresh⟩ := start_eq_ok hstart
  have hnow : k.fresh = h.fresh := (Config.load_observes path).fresh_eq hload
  refine ⟨hfresh.trans (Host.fresh_holding_congr hnow _), ⟨directory, hdirectory, ?_⟩, ?_, ?_, ?_⟩
  · rwa [hload]
  · intro ts
    obtain ⟨h₂, hprogram, htext⟩ := program_goesOn hargs hloop ts
    exact ⟨_, h₂, hprogram, htext⟩
  · exact fun k => mirrors_of_loadAlike (.of_eq rfl)
  · intro k' hhere hexpands
    apply mirrors_of_loadAlike
    have hwd : k.fresh.workingDirectory = h.fresh.workingDirectory := by rw [hnow]
    change k.workingDirectory = h.workingDirectory at hwd
    have := Config.loadAlike_of_expands (h := k'.fresh) hexpands
    rwa [hpath, hwd, ← hhere]

/-- A card, and settings that select it. -/
def cardHost : Host where
  files := [(["w"], .directory),
    (["w", "figma-compgen.config.json"],
      .file "\x7b\"selection\": \x7b\"nodeIds\": [\"1\"]\x7d\x7d"),
    (["w", ".figma-compgen"], .directory),
    (["w", ".figma-compgen", "document.json"],
      .file "\x7b\"document\": \x7b\"id\": \"1\", \"type\": \"FRAME\", \"name\": \"Card\"\x7d\x7d")]
  workingDirectory := ["w"]
  token := none
  network := fun _ => .unreachable ""
  clock := ""
  printed := ""
  requests := []

theorem cardHost_expands : Files.Expands cardHost.files ["w"] Config.defaultPath where
  reached := .name .root rfl ⟨by decide, by decide, by decide, by decide⟩
  directory := by decide
  accepted := toOption_eq_some.1 (by decide)
  acceptedInFull := toOption_eq_some.1 (by decide)
  up := fun hup => absurd hup (by decide)

theorem program_redraws_card :
    ∃ w h₁, parse ["watch"] = .ok ⟨some Config.defaultPath, .watch⟩ ∧
      (reachLoop Config.defaultPath).on cardHost = (.ok w, h₁) ∧
      Redraws ["watch"] Config.defaultPath cardHost w h₁ ∧
      dumped w.configPath cardHost = (.finished, "-Card\x7b\x7d\n") := by
  obtain ⟨w, hloop⟩ := exists_ok (x := reachLoop Config.defaultPath) (h := cardHost)
    (by decide +kernel)
  have hshows : ((program ["display"] []).on cardHost.fresh).1.toOption.isSome = true ∧
      ((program ["display"] []).on cardHost.fresh).2.printed = "-Card\x7b\x7d\n" := by
    decide +kernel
  obtain ⟨r, hdisplay⟩ := exists_ok hshows.1
  obtain ⟨config, hload⟩ := exists_ok (x := Config.load Config.defaultPath) (h := cardHost.fresh)
    (by decide +kernel)
  have hids : (((Config.load Config.defaultPath).on cardHost.fresh).1 >>=
      Config.selectedIds).toOption = some ["1"] := by
    decide +kernel
  rw [hload] at hids
  have hr : Redraws ["watch"] _ cardHost w _ := program_redraws rfl hloop
  have hmirrors := hr.mirrorsGiven cardHost rfl cardHost_expands
  have hselects : Selects Config.defaultPath cardHost.fresh :=
    ⟨config, _, _, hload, toOption_eq_some.1 hids, by decide⟩
  refine ⟨w, _, rfl, hloop, hr, ?_⟩
  rw [hmirrors.finished ["display"] r _ rfl hdisplay hselects, hshows.2]

/-- Settings with a file key, and no snapshot; the network answers nothing yet. -/
def keyedHost : Host :=
  { cardHost with
    files := [(["w"], .directory),
      (["w", "figma-compgen.config.json"], .file ("\x7b\"figma\": \x7b\"fileKey\": \"K\"\x7d, " ++
        "\"selection\": \x7b\"nodeIds\": [\"1\"]\x7d\x7d"))]
    token := some "t" }

/-- From now on the network answers with a card, and the settings are written anew. -/
def answering : Turn where
  writes := []
  deletes := []
  network := some fun _ => .response 200 "OK"
    "\x7b\"document\": \x7b\"id\": \"1\", \"type\": \"FRAME\", \"name\": \"Card\"\x7d\x7d"
  events := [⟨"/w/figma-compgen.config.json", false⟩]
  elapses := true

/-- The dump at the start gets no answer, the next one does. -/
example : ((program ["watch"] [answering]).on keyedHost).2.printed = linesOf
    ["👀 Watching '/w/.figma-compgen' and 'figma-compgen.config.json' for changes...",
      "   Press Ctrl+C to stop.", "📥 Fetching Figma file: K", "❌ Figma API 錯誤：", "",
      "🔄 Changed: /w/figma-compgen.config.json", "📥 Fetching Figma file: K", "-Card\x7b\x7d", "",
      "👋 Stopping watch..."] := by
  decide +kernel

end Watch

end DesignComponents
