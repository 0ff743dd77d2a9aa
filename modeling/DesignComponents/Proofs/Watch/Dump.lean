import DesignComponents.Proofs.CommandLine.Perform
import DesignComponents.Proofs.Config.Load
import DesignComponents.Proofs.Session.Commands

/-!
A dump only looks at its host, and it shows what the command that displays the selection shows, as
long as something is selected.
-/

namespace DesignComponents

open Run

namespace Watch

/-! ### A dump on its own -/

/-- Show the selection of the settings, even if it is empty. -/
def redraw (config : Json) : Run Unit := do
  match ← Session.loadDocument .unspecified config with
  | none => pure ()
  | some d => do
    let ids ← Session.selectedIds [] config
    let selection ← d.select ids
    let _ ← Session.carryOut d .display selection

theorem dump_eq (configPath : Location) :
    dump configPath = Config.load configPath.text >>= redraw := rfl

theorem redraw_observes (config : Json) : Observes (redraw config) := by
  apply (Session.loadDocument_observes _ _).bind
  rintro (_ | d)
  · exact .pure _
  · apply (Observes.lift _).bind
    intro ids
    apply (Observes.liftTraced _).bind
    intro selection
    exact (Session.carryOut_observes _ _ _).bind fun _ => .pure _

theorem dump_observes (configPath : Location) : Observes (dump configPath) :=
  (Config.load_observes _).bind redraw_observes

def Ending.ofResult : Except Fault Unit → Ending
  | .ok _ => .finished
  | .error e => .failed e.message

/-- How a dump ends on a host as it is now, and the text that it prints. -/
def dumped (configPath : Location) (h : Host) : Ending × String :=
  let after := (dump configPath).on h.fresh
  (.ofResult after.1, after.2.printed)

theorem dumped_of_ok {configPath : Location} {h k : Host}
    (hdump : (dump configPath).on h.fresh = (.ok (), k)) :
    dumped configPath h = (.finished, k.printed) := by
  rw [dumped, hdump]
  rfl

theorem dumped_of_error {configPath : Location} {h k : Host} {e : Fault}
    (hdump : (dump configPath).on h.fresh = (.error e, k)) :
    dumped configPath h = (.failed e.message, k.printed) := by
  rw [dumped, hdump]
  rfl

theorem dumped_congr {configPath : Location} {h k : Host} (hfresh : h.fresh = k.fresh) :
    dumped configPath h = dumped configPath k := by
  rw [dumped, dumped, hfresh]

/-! ### A dump beside a display -/

theorem selectedIds_isEmpty {config : Json} {ids : List Json}
    (h : Session.selectedIds [] config = .ok ids) (hne : Config.selectedIds config ≠ .ok []) :
    ids.isEmpty = false := by
  obtain ⟨own, hown, hids⟩ := bind_eq_ok.1 h
  obtain rfl : own.map (fun id => Json.str (NodeId.normalize id)) = ids := by simpa using hids
  cases own with
  | nil => exact absurd hown hne
  | cons id own => rfl

/-- Where something is selected, a display shows it too. -/
theorem display_eq_redraw {config : Json} (hne : Config.selectedIds config ≠ .ok []) :
    Session.display .unspecified [] false config = redraw config := by
  refine congrArg (Session.loadDocument .unspecified config >>= ·) (funext fun found => ?_)
  cases found with
  | none => rfl
  | some d =>
    cases hids : Session.selectedIds [] config with
    | error e => rfl
    | ok ids =>
      change (if ids.isEmpty then _ else _ : Run Unit) = _
      rw [selectedIds_isEmpty hids hne, if_neg Bool.false_ne_true]
      refine congrArg (liftM (d.select ids) >>= ·) (funext fun selection => ?_)
      refine congrArg (Session.carryOut d .display selection >>= ·) (funext fun answer => ?_)
      cases answer <;> rfl

/-- Where nothing is selected, a display fails only as long as it has no document. -/
theorem redraw_of_display_error {config : Json} {h k : Host} {e : Fault}
    (herror : (Session.display .unspecified [] false config).on h = (.error e, k)) :
    (redraw config).on h = (.error e, k) := by
  by_cases hne : Config.selectedIds config = .ok []
  · have hids : Session.selectedIds [] config = .ok [] := by simp [Session.selectedIds, hne]
    rw [Session.display, Session.onSelection, bind_on] at herror
    rw [redraw, bind_on]
    cases hload : (Session.loadDocument .unspecified config).on h with
    | mk r k' =>
      rw [hload] at herror
      rcases r with e' | (_ | d)
      · exact herror
      · cases herror
      · simp [hids, bind_on] at herror
  · rwa [← display_eq_redraw hne]

/-- Settings are there, and nodes are selected in them. -/
def Selects (path : String) (h : Host) : Prop :=
  ∃ config k ids, (Config.load path).on h = (.ok config, k) ∧
    Config.selectedIds config = .ok ids ∧ ids ≠ []

open CommandLine (Arguments Finish parse perform program program_of_parse)

/-- The command that displays what the settings select. -/
def displayOf (path : String) : Arguments := ⟨some path, .display .unspecified [] false⟩

theorem perform_displayOf (path : String) :
    perform (displayOf path) [] =
      Config.load path >>= fun config =>
        Session.display .unspecified [] false config >>= fun _ => pure .normal :=
  CommandLine.perform_eq path _ []

theorem redraw_of_perform_error {path : String} {h k k' : Host} {config : Json} {e : Fault}
    (hload : (Config.load path).on h = (.ok config, k))
    (herror : (perform (displayOf path) []).on h = (.error e, k')) :
    (redraw config).on k = (.error e, k') := by
  apply redraw_of_display_error
  rw [perform_displayOf, bind_of_ok hload, bind_on] at herror
  cases hdisplay : (Session.display .unspecified [] false config).on k with
  | mk r k₁ =>
    rw [hdisplay] at herror
    cases r with
    | error e' => simpa using herror
    | ok _ => simp at herror

/-- A dump does what a display does, but its failure is one that is reported. -/
structure Mirrors (configPath : Location) (path : String) (h : Host) : Prop where
  failed : ∀ (args : List String) (e : Fault) (k : Host), parse args = .ok (displayOf path) →
    (program args []).on h.fresh = (.error e, k) →
    ∃ message text, dumped configPath h = (.failed message, text)
  finished : ∀ (args : List String) (r : Finish) (k : Host), parse args = .ok (displayOf path) →
    (program args []).on h.fresh = (.ok r, k) → Selects path h.fresh →
    dumped configPath h = (.finished, k.printed)

theorem mirrors_of_loadAlike {configPath : Location} {path : String} {h : Host}
    (hload : Config.LoadAlike path configPath.text h.fresh) : Mirrors configPath path h where
  failed := by
    intro args e k hargs herror
    rw [program_of_parse hargs] at herror
    suffices hdump : ∃ e' k', (dump configPath).on h.fresh = (.error e', k') by
      obtain ⟨e', k', hdump⟩ := hdump
      exact ⟨_, _, dumped_of_error hdump⟩
    rw [dump_eq]
    cases hload with
    | error _ second => exact ⟨_, _, bind_of_error second _⟩
    | @empty k₁ k₂ first second =>
      have hredraw := redraw_of_perform_error first herror
      have hfresh₁ : k₁.fresh = h.fresh.fresh := (Config.load_observes _).fresh_eq first
      have hfresh₂ : k₂.fresh = h.fresh.fresh := (Config.load_observes _).fresh_eq second
      have hfresh := hfresh₁.trans hfresh₂.symm
      obtain ⟨k', hredraw', -⟩ := (redraw_observes (.obj [])).on_congr hredraw hfresh
      exact ⟨e, k', (bind_of_ok second _).trans hredraw'⟩
    | same first second =>
      exact ⟨e, k, (bind_of_ok second _).trans (redraw_of_perform_error first herror)⟩
  finished := by
    rintro args r k hargs hok ⟨config, k₁, ids, hfirst, hids, hne⟩
    have hsome : Config.selectedIds config ≠ .ok [] := by simpa [hids] using hne
    rw [program_of_parse hargs, perform_displayOf, bind_of_ok hfirst,
      display_eq_redraw hsome] at hok
    obtain ⟨_, k', hredraw, hpure⟩ := Run.bind_eq_ok.1 hok
    obtain rfl : k' = k := by simpa using congrArg Prod.snd hpure
    apply dumped_of_ok
    rw [dump_eq]
    cases hload with
    | error first _ => simp [hfirst] at first
    | empty first _ =>
      obtain ⟨rfl, -⟩ : config = .obj [] ∧ _ := by simpa [hfirst] using first
      exact absurd rfl hsome
    | same first second =>
      rw [hfirst] at first
      obtain ⟨rfl, rfl⟩ : _ ∧ _ := by simpa using first
      exact (bind_of_ok second _).trans hredraw

end Watch

end DesignComponents
