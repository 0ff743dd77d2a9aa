import DesignComponents.Proofs.CommandLine.Perform
import DesignComponents.Proofs.Watch.Alike

/-!
Runs of the program with settings as they are, and without sections that are no objects. What comes
of a run is the same but for the warnings on these sections, unless the key of a file is needed and
its section is one of them.
-/

namespace DesignComponents

namespace Config.Replacement

variable {S : Replacement}

/-- The host with the settings replaced. -/
def replacedOn (S : Replacement) (h : Host) : Host :=
  h.holding (OrderedMap.put S.place (.file S.after) h.files)

theorem alike_replacedOn {h : Host} (hthere : Files.at? h.files S.place = some (.file S.before)) :
    S.Alike [] h (S.replacedOn h) where
  files := by
    intro l
    by_cases hl : S.place = l
    · subst hl
      have hplace : S.place ≠ [] := by
        intro hroot
        simp [hroot] at hthere
      exact .inr ⟨rfl, hthere, Files.at?_put_self hplace _⟩
    · exact .inl (Files.at?_put_of_ne hl _)
  here := rfl
  token := rfl
  network := rfl
  clock := rfl
  requests := rfl
  printed := .same _

end Config.Replacement

namespace CommandLine

open Config (Replacement isMisplaced remarks)
open Config.Replacement
open Run (linesOf)
open Watch (Turn)

/-- What a command says where it needs the key of a file and is given none. -/
def Action.Tells : Action → List String → Prop
  | .snapshot given => SnapshotTells given
  | .display sources _ _ | .debug sources | .generate sources _ _ => DocumentTells sources
  | .watch | .idle => fun _ => False

/-- How a run of the program ends on two hosts. Either it ends the same, with the same requests, and
files and texts that are alike, where only a watch may have more than one difference in its text; or
the first run cannot ask for a key that it needs, and the second ends well and says that there is
none. -/
inductive Compares (S : Replacement) (args : List String) :
    Except Fault Finish × Host → Except Fault Finish × Host → Prop
  | alike {r : Except Fault Finish} {ds : List Difference} {k k' : Host} (hosts : S.Alike ds k k')
    (few : ds = [] ∨ ds = [.warnings] ∨ ∃ config, parse args = .ok ⟨config, .watch⟩) :
    Compares S args (r, k) (r, k')
  | missed {path : String} {a : Action} {texts : List String} {e : Fault} {ds : List Difference}
    {k k' : Host} (command : parse args = .ok ⟨some path, a⟩) (told : a.Tells texts)
    (unasked : S.Unasked e) (hosts : S.Alike ds k k') (few : ds = [] ∨ ds = [.warnings]) :
    Compares S args (.error e, k) (.ok .normal, { k' with printed := k'.printed ++ linesOf texts })

variable {S : Replacement} {config config' : Json} {args : List String} {h h' : Host}

theorem act_orMiss (hconfig : S.Values config config') (path : String) (ts : List Turn)
    {a : Action} (ha : a ≠ .watch) :
    S.AgreeOrMiss Eq .normal a.Tells (act path ts config a) (act path ts config' a) := by
  cases a with
  | snapshot given => exact (AgreeOrMiss.snapshot hconfig given).bind (fun _ _ _ => .pure rfl) rfl
  | display sources nodeIds save =>
    exact (AgreeOrMiss.display hconfig sources nodeIds save).bind (fun _ _ _ => .pure rfl) rfl
  | debug sources => exact (AgreeOrMiss.debug hconfig sources).bind (fun _ _ _ => .pure rfl) rfl
  | generate sources nodeIds output =>
    exact (AgreeOrMiss.generateCommand hconfig sources nodeIds output).bind
      (fun _ _ _ => .pure rfl) rfl
  | watch => exact absurd rfl ha
  | idle => exact ((Agree.print _).bind_eq fun _ => .pure rfl).orMiss _ _

theorem act_watch_apart (hconfig : S.Values config config') (path : String) (ts : List Turn) :
    S.AgreeApart Eq (act path ts config .watch) (act path ts config' .watch) :=
  (AgreeApart.run hconfig path ts).bind_eq fun _ => (Agree.pure rfl).apart

theorem Compares.of_matches {u v : Except Fault Finish × Host} {ds : List Difference}
    (hr : Matches Eq u.1 v.1) (hh : S.Alike ds u.2 v.2)
    (few : ds = [] ∨ ds = [.warnings] ∨ ∃ config, parse args = .ok ⟨config, .watch⟩) :
    Compares S args u v := by
  obtain ⟨r, k⟩ := u
  obtain ⟨r', k'⟩ := v
  obtain rfl : r = r' := hr.eq
  exact .alike hh few

theorem Compares.of_agree {x : Run Finish} (hx : S.Agree Eq x x) (hh : S.Alike [] h h') :
    Compares S args (x.on h) (x.on h') := by
  obtain ⟨hr, hk⟩ := hx hh
  exact .of_matches hr hk (.inl rfl)

theorem act_compares {path : String} {a : Action} {ds : List Difference}
    (hargs : parse args = .ok ⟨some path, a⟩) (hconfig : S.Values config config')
    (hh : S.Alike ds h h') (hfew : ds = [] ∨ ds = [.warnings]) (ts : List Turn) :
    Compares S args ((act path ts config a).on h) ((act path ts config' a).on h') := by
  by_cases ha : a = .watch
  · subst ha
    obtain ⟨hr, ds', hk⟩ := act_watch_apart hconfig path ts hh
    exact .of_matches hr hk (.inr (.inr ⟨some path, hargs⟩))
  · have hends := act_orMiss hconfig path ts ha hh
    generalize (act path ts config a).on h = u at hends
    generalize (act path ts config' a).on h' = v at hends
    cases hends with
    | alike results hosts => exact .of_matches results hosts (hfew.imp_right .inl)
    | missed unasked told hosts => exact .missed hargs told unasked hosts hfew

theorem perform_compares {a : Arguments} (hargs : parse args = .ok a) (hh : S.Alike [] h h')
    (ts : List Turn) : Compares S args ((perform a ts).on h) ((perform a ts).on h') := by
  obtain ⟨given, action⟩ := a
  cases given with
  | none => exact .alike hh (.inl rfl)
  | some path =>
    obtain ⟨new, hfew, hr, hk⟩ := load_alike path hh
    rw [perform_eq]
    apply hr.bind_on (P := Compares S args)
    · exact fun _ _ hconfig => act_compares hargs hconfig hk hfew ts
    · exact fun e => .alike hk (hfew.imp_right .inl)

/-- A section that is no object counts as absent: it is warned of once, and a run of the program ends
as it does without it, unless it is the section of a key that is needed. -/
theorem program_compares (S : Replacement) (args : List String) (ts : List Turn) {h : Host}
    (hthere : Files.at? h.files S.place = some (.file S.before)) :
    Compares S args ((program args ts).on h) ((program args ts).on (S.replacedOn h)) ∧
      ∀ name ∈ S.names, ∃ v, S.fields.lookup name = some v ∧
        (remarks S.fields).filter (isMisplaced [name]) = [.sectionNotObject name v.kind] := by
  refine ⟨?_, fun name hname => Config.remarks_misplaced S.misplaced hname⟩
  have hh := alike_replacedOn hthere
  unfold program
  split
  case h_1 a hargs => exact perform_compares hargs hh ts
  case h_2 => exact Compares.of_agree ((Agree.print _).bind_eq fun _ => .pure rfl) hh
  case h_3 => exact Compares.of_agree ((Agree.print _).bind_eq fun _ => .pure rfl) hh
  case h_4 => exact Compares.of_agree (.pure rfl) hh

/-- Two sections of settings that are no objects, beside one that selects a card. -/
def strayed : Replacement where
  place := ["w", "figma-compgen.config.json"]
  before :=
    "\x7b\"export\": \"out\", \"selection\": \x7b\"nodeIds\": [\"1\"]\x7d, \"watch\": null\x7d"
  after := "\x7b\"selection\": \x7b\"nodeIds\": [\"1\"]\x7d\x7d"
  names := ["export", "watch"]
  fields := [("export", .str "out"), ("selection", .obj [("nodeIds", .arr [.str "1"])]),
    ("watch", .null)]
  misplaced := by decide
  reads := by cbv
  readsAfter := by cbv

/-- The card of a watch with these settings. -/
def strayedHost : Host :=
  Watch.cardHost.holding (OrderedMap.put strayed.place (.file strayed.before) Watch.cardHost.files)

theorem program_compares_strayed :
    let second := (program ["display"] []).on (strayed.replacedOn strayedHost)
    Compares strayed ["display"] ((program ["display"] []).on strayedHost) second ∧
      second.2.printed = "-Card\x7b\x7d\n" := by
  intro second
  have hthere : Files.at? strayedHost.files strayed.place = some (.file strayed.before) := by
    decide
  exact ⟨(program_compares strayed ["display"] [] hthere).1, by decide +kernel⟩

/-- Settings without a section for the key, but for a null. -/
def keyless : Replacement where
  place := ["w", "figma-compgen.config.json"]
  before := "\x7b\"figma\": null\x7d"
  after := "\x7b\x7d"
  names := ["figma"]
  fields := [("figma", .null)]
  misplaced := by decide
  reads := by cbv
  readsAfter := by cbv

def keylessHost : Host :=
  { Watch.cardHost with
    files := [(["w"], .directory), (keyless.place, .file keyless.before)] }

/-- How a run ends: the message of its failure, if it has one. -/
def failure (x : Run Finish) (h : Host) : Option String :=
  match (x.on h).1 with
  | .ok _ => none
  | .error e => some e.message

/-- A section that is null does not count as absent where its key is needed. -/
theorem snapshot_misses_key :
    failure (program ["snapshot"] []) keylessHost =
        some "'NoneType' object has no attribute 'get'" ∧
      failure (program ["snapshot"] []) (keyless.replacedOn keylessHost) = none := by
  decide +kernel

end CommandLine

end DesignComponents
