import DesignComponents.Proofs.Config.Alike
import DesignComponents.Proofs.Session.Alike
import DesignComponents.Proofs.Watch.Run

/-!
A watch on two hosts, with settings that differ in sections that are no objects. Every dump reads
the settings anew, so it may warn of these sections again, and it may miss the key. A dump that
fails is reported, so the watch goes on alike.
-/

namespace DesignComponents.Config.Replacement

open Run (linesOf)
open Watch (Ending Turn Watching)

variable {S : Replacement}

/-- Runs that end alike, and leave hosts that are alike but for what was printed meanwhile. -/
def AgreeApart {α β : Type} (S : Replacement) (R : α → β → Prop) (x : Run α) (y : Run β) : Prop :=
  ∀ ⦃ds h h'⦄, S.Alike ds h h' →
    Matches R (x.on h).1 (y.on h').1 ∧ ∃ ds', S.Alike ds' (x.on h).2 (y.on h').2

theorem Agree.apart {α β : Type} {R : α → β → Prop} {x : Run α} {y : Run β} (h : S.Agree R x y) :
    S.AgreeApart R x y := by
  intro ds k k' hh
  obtain ⟨hr, hk⟩ := h hh
  exact ⟨hr, ds, hk⟩

theorem AgreeApart.bind_eq {α γ δ : Type} {Q : γ → δ → Prop} {x y : Run α} {f : α → Run γ}
    {g : α → Run δ} (h : S.AgreeApart Eq x y) (hfg : ∀ a, S.AgreeApart Q (f a) (g a)) :
    S.AgreeApart Q (x >>= f) (y >>= g) := by
  intro ds k k' hh
  obtain ⟨hr, ds', hk⟩ := h hh
  apply hr.bind_on (P := fun u v => Matches Q u.1 v.1 ∧ ∃ ds, S.Alike ds u.2 v.2)
  · rintro a _ rfl
    exact hfg a hk
  · exact fun e => ⟨.error e, ds', hk⟩

/-! ### Dumps -/

theorem AgreeOrMiss.redraw {config config' : Json} (h : S.Values config config') :
    S.AgreeOrMiss Eq () (DocumentTells .unspecified) (Watch.redraw config)
      (Watch.redraw config') := by
  apply (loadDocument h .unspecified).bind
  · rintro (_ | d) _ rfl
    · exact .pure rfl
    · dsimp only
      rw [h.selectedIds]
      apply (Agree.lift (.refl _)).bind_eq
      intro ids
      apply (Agree.liftTraced _).bind_eq
      intro selection
      exact (Agree.carryOut _ _ _).bind_eq fun _ => .pure rfl
  · rfl

theorem dump_alike (configPath : Location) {ds : List Difference} {h h' : Host}
    (hh : S.Alike ds h h') :
    ∃ ds', S.Outcomes Eq () (DocumentTells .unspecified) ds' ((Watch.dump configPath).on h)
      ((Watch.dump configPath).on h') := by
  obtain ⟨new, -, hr, hk⟩ := load_alike configPath.text hh
  refine ⟨ds ++ new, ?_⟩
  rw [Watch.dump_eq]
  apply hr.bind_on (P := S.Outcomes Eq () (DocumentTells .unspecified) (ds ++ new))
  · exact fun _ _ hconfig => AgreeOrMiss.redraw hconfig hk
  · exact fun e => .alike (.error e) hk

/-- Lines on a dump that failed. -/
def reportWith (report : String) : Ending → List String
  | .failed message => [report ++ message]
  | _ => []

theorem attempt_then_on (x : Run Unit) (texts : Ending → List String) (h : Host) :
    (Watch.attempt x >>= fun ending => Run.printAll (texts ending)).on h =
      (.ok (), { (x.on h).2 with
        printed := (x.on h).2.printed ++ linesOf (texts (.ofResult (x.on h).1)) }) := by
  rw [Run.bind_of_ok (Watch.attempt_on x h), Run.printAll_on]

/-- A failure that one of the hosts has alone is reported there. -/
theorem attempt_apart (configPath : Location) {report : String} (hreport : report ∈ dumpReports) :
    S.AgreeApart Eq
      (Watch.attempt (Watch.dump configPath) >>= fun ending =>
        Run.printAll (reportWith report ending))
      (Watch.attempt (Watch.dump configPath) >>= fun ending =>
        Run.printAll (reportWith report ending)) := by
  intro ds h h' hh
  rw [attempt_then_on, attempt_then_on]
  obtain ⟨ds', hends⟩ := dump_alike configPath hh
  generalize (Watch.dump configPath).on h = u at hends
  generalize (Watch.dump configPath).on h' = v at hends
  refine ⟨.ok rfl, ?_⟩
  cases hends with
  | alike results hosts =>
    obtain rfl := results.eq
    exact ⟨ds', { hosts with printed := hosts.printed.text _ }⟩
  | missed unasked told hosts =>
    obtain ⟨-, documentPath, rfl⟩ := told
    refine ⟨ds' ++ [.missingKey], { hosts with printed := ?_ }⟩
    have hquiet : linesOf (reportWith report (Ending.ofResult (.ok ()))) = "" := rfl
    dsimp only
    rw [hquiet, String.append_empty]
    exact hosts.printed.missingKey unasked hreport documentPath

theorem initialReport_eq :
    Ending.initialReport = reportWith "   ⚠️  Initial dump failed: " := by
  funext ending
  cases ending <;> rfl

theorem report_eq : Ending.report = reportWith "   ⚠️  Dump failed: " := by
  funext ending
  cases ending <;> rfl

/-! ### Watches -/

theorem Agree.resolve (path : String) : S.Agree Eq (Watch.resolve path) (Watch.resolve path) := by
  unfold Watch.resolve
  split
  · exact .throw _
  · apply get_bind
    intro ds h h' hh
    rw [hh.here]
    exact .pure rfl

theorem FilesAlike.filesAfter {files files' : Files} (h : S.FilesAlike files files') (t : Turn) :
    S.FilesAlike (t.filesAfter files) (t.filesAfter files') := by
  unfold Turn.filesAfter
  apply foldl fun l {_ _} h => h.remove l
  exact foldl (fun f {_ _} h => h.place f.1 f.2) h _

namespace AgreeApart

theorem announce (directory configPath : Location) :
    S.AgreeApart Eq (Watch.announce directory configPath)
      (Watch.announce directory configPath) := by
  unfold Watch.announce
  rw [initialReport_eq]
  exact (Agree.printAll _).apart.bind_eq fun _ => attempt_apart _ (by simp [dumpReports])

theorem dumps (configPath : Location) (path : Option String) (n : Nat) :
    S.AgreeApart Eq (Watch.dumps configPath path n) (Watch.dumps configPath path n) := by
  induction n with
  | zero => exact (Agree.pure rfl).apart
  | succ n ih =>
    rw [Watch.dumps, report_eq, ← bind_assoc (Watch.attempt _)]
    apply (Agree.print _).apart.bind_eq
    intro _
    exact (attempt_apart _ (by simp [dumpReports])).bind_eq fun _ => ih

theorem start {config config' : Json} (h : S.Values config config') (path : String) :
    S.AgreeApart Eq (Watch.start config path) (Watch.start config' path) := by
  rw [Watch.start_eq, Watch.start_eq, h.snapshotDir, h.debounceSeconds]
  apply (Agree.resolve path).apart.bind_eq
  intro configPath
  apply (Agree.lift (.refl _)).apart.bind_eq
  intro v
  apply (Agree.pathOf v).apart.bind_eq
  intro s
  apply (Agree.resolve s).apart.bind_eq
  intro directory
  apply (Agree.provideDirectories _).apart.bind_eq
  intro _
  apply (announce directory configPath).bind_eq
  intro _
  apply (Agree.lift (.refl _)).apart.bind_eq
  intro debounce
  exact (Agree.pure rfl).apart

theorem turn (w : Watching) (t : Turn) :
    S.AgreeApart Eq (Watch.turn w t) (Watch.turn w t) := by
  have hchange : S.Agree Eq (modify t.change : Run PUnit) (modify t.change) := by
    intro ds h h' hh
    rw [Run.modify_on, Run.modify_on]
    refine ⟨.ok rfl, { hh with files := hh.files.filesAfter t, network := ?_ }⟩
    rw [Turn.change, Turn.change, hh.network]
  apply hchange.apart.bind_eq
  intro _
  dsimp only
  split
  · exact (dumps _ _ _).bind_eq fun _ => (Agree.pure rfl).apart
  · exact (Agree.pure rfl).apart

theorem turns (w : Watching) (ts : List Turn) :
    S.AgreeApart Eq (Watch.turns w ts) (Watch.turns w ts) := by
  induction ts generalizing w with
  | nil => exact (Agree.pure rfl).apart
  | cons t ts ih => exact (turn w t).bind_eq fun w => ih w

theorem run {config config' : Json} (h : S.Values config config') (path : String)
    (ts : List Turn) :
    S.AgreeApart Eq (Watch.run config path ts) (Watch.run config' path ts) := by
  apply (start h path).bind_eq
  intro w
  apply (turns w ts).bind_eq
  intro w
  exact ((Agree.print _).bind_eq fun _ => .pure rfl).apart

end AgreeApart

end DesignComponents.Config.Replacement
