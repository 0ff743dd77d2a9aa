import DesignComponents.Proofs.Host.Agree
import DesignComponents.Proofs.Session.Commands

/-!
Commands on two hosts, with settings that differ in sections that are no objects. Only a command
that needs the key of a file, and is given none, can tell them apart.
-/

namespace DesignComponents.Config.Replacement

variable {S : Replacement} {config config' : Json}

/-! ### Settings -/

namespace Values

theorem token (h : S.Values config config') (environment : Option String) :
    Config.token config' environment = Config.token config environment := by
  cases h with
  | same => rfl
  | settings => exact token_without S.misplaced environment

theorem snapshotDir (h : S.Values config config') :
    Config.snapshotDir config' = Config.snapshotDir config := by
  cases h with
  | same => rfl
  | settings => exact snapshotDir_without S.misplaced

theorem selectedIds (h : S.Values config config') (given : List (Option String)) :
    Session.selectedIds given config' = Session.selectedIds given config := by
  cases h with
  | same => rfl
  | settings => rw [Session.selectedIds, Session.selectedIds, selectedIds_without S.misplaced]

theorem debounceSeconds (h : S.Values config config') :
    Config.debounceSeconds config' = Config.debounceSeconds config := by
  cases h with
  | same => rfl
  | settings => exact debounceSeconds_without S.misplaced

end Values

/-! ### Steps of commands -/

namespace Agree

theorem token (h : S.Values config config') :
    S.Agree Eq (Session.token config) (Session.token config') := by
  apply get_bind
  intro ds k k' hh
  rw [hh.token, h.token]
  exact lift (.refl _)

theorem pathFor (given : Option String) (directory : Json) (name : String) :
    S.Agree Eq (Snapshot.pathFor given directory name) (Snapshot.pathFor given directory name) := by
  unfold Snapshot.pathFor
  split
  · exact .pure rfl
  · exact (pathOf _).bind_eq fun _ => .pure rfl

theorem load (documentPath variablesPath : String) :
    S.Agree Eq (Snapshot.load documentPath variablesPath)
      (Snapshot.load documentPath variablesPath) := by
  apply (readJson _).bind
  intro file file' hfile
  apply (isThere _).bind_eq
  intro there
  split
  · apply (readJson _).bind
    intro vars vars' hvars
    dsimp only
    rw [hfile.ofJson hvars]
    exact lift (.refl _)
  · simp only [pure_bind]
    rw [hfile.ofJson (.same .null)]
    exact lift (.refl _)

theorem save (file : Json) (vars : Option Json) (directory : Json) :
    S.Agree Eq (Snapshot.save file vars directory) (Snapshot.save file vars directory) := by
  apply (pathOf _).bind_eq
  intro directory
  apply (makeDirectories _).bind_eq
  intro _
  apply (writeText _ _).bind_eq
  intro _
  cases vars with
  | none => exact .pure rfl
  | some v => exact (writeText _ _).bind_eq fun _ => .pure rfl

theorem carryOut (d : Document) (command : Command) (selection : List Node) :
    S.Agree Eq (Session.carryOut d command selection) (Session.carryOut d command selection) := by
  apply (lift (.refl _)).bind_eq
  intro session
  apply (liftTraced _).bind_eq
  intro answer
  exact (printAll _).bind_eq fun _ => .pure rfl

theorem saveOutlines (os : List Outline) (directory : Json) :
    S.Agree Eq (Session.saveOutlines os directory) (Session.saveOutlines os directory) := by
  apply (pathOf _).bind_eq
  intro directory
  apply (makeDirectories _).bind_eq
  intro _
  apply get_bind
  intro ds h h' hh
  rw [hh.clock]
  exact (writeText _ _).bind_eq fun _ => .pure rfl

theorem keep (save : Bool) (h : S.Values config config') (answer : Option Answer) :
    S.Agree Eq (Session.keep save config answer) (Session.keep save config' answer) := by
  unfold Session.keep
  rw [h.snapshotDir]
  split
  · split
    · apply (lift (.refl _)).bind_eq
      intro directory
      exact (saveOutlines _ _).bind_eq fun _ => print _
    · exact .pure rfl
  · exact .pure rfl

theorem deliver (output : Option String) (m : Message) :
    S.Agree Eq (Session.deliver output m) (Session.deliver output m) := by
  cases m with
  | error text => exact print _
  | component source =>
    unfold Session.deliver
    dsimp only
    split
    · exact print _
    · apply (provideDirectories _).bind_eq
      intro _
      exact (writeText _ _).bind_eq fun _ => print _

theorem deliverAll (output : Option String) (ms : List Message) :
    S.Agree Eq (Session.deliverAll output ms) (Session.deliverAll output ms) := by
  induction ms with
  | nil => exact .pure rfl
  | cons m ms ih => exact (deliver output m).bind_eq fun _ => ih

end Agree

/-! ### Commands -/

/-- What is said to someone who asks for a snapshot and has no token or no key. -/
def noToken : List String :=
  ["❌ 請設定 FIGMA_TOKEN 環境變數，或在 figma-compgen.config.json 的 figma.personalAccessToken 設定。",
    "   取得方式：Figma → Settings → Personal access tokens → 新增"]

def noKey : List String := ["❌ 請使用 --file-key 或在 config 的 figma.fileKey 設定 Figma 檔案 key。"]

/-- A snapshot is asked for without a key. -/
def SnapshotTells (given : Option String) (texts : List String) : Prop :=
  Sources.given given = none ∧ (texts = noToken ∨ texts = noKey)

/-- A document is looked for without a key. -/
def DocumentTells (sources : Sources) (texts : List String) : Prop :=
  Sources.given sources.fileKey = none ∧ ∃ documentPath, texts = noSource documentPath

namespace AgreeOrMiss

variable {γ δ : Type} {Q : γ → δ → Prop} {d : δ} {Tells : List String → Prop}

/-- A run that goes on with the key of a file, and has something to tell where there is none. -/
theorem fileKey {f : Json → Run γ} {g : Json → Run δ} (h : S.Values config config')
    (given : Option String) (hfg : ∀ key, S.Agree Q (f key) (g key))
    (hnull : Sources.given given = none →
      ∃ texts, Tells texts ∧ g .null = Run.printAll texts >>= fun _ => pure d) :
    S.AgreeOrMiss Q d Tells (Session.fileKey given config >>= f)
      (Session.fileKey given config' >>= g) := by
  unfold Session.fileKey
  split
  case h_1 key hgiven => exact (hfg (.str key)).orMiss d Tells
  case h_2 hgiven =>
    cases h with
    | same =>
      apply Agree.orMiss
      exact ((Agree.lift (.refl _)).bind_eq fun _ => .lift (.refl _)).bind_eq hfg
    | settings =>
      rw [Json.getOr_obj, Json.getOr_obj, Run.lift_ok_bind, Run.lift_ok_bind, lookup_without]
      split
      case isFalse => exact ((Agree.lift (.refl _)).bind_eq hfg).orMiss d Tells
      case isTrue hname =>
        obtain ⟨-, v, hv, hkind⟩ := S.misplaced "figma" hname
        obtain ⟨texts, htells, htexts⟩ := hnull hgiven
        have hget : v.get "fileKey" = .error (.noMember v.kind "get") := by
          cases v with
          | obj fs => exact absurd rfl hkind
          | _ => rfl
        have hempty : (Json.obj []).get "fileKey" = .ok .null := rfl
        intro ds k k' hh
        rw [hv, Option.getD_some, hget, Option.getD_none, hempty, Run.lift_ok_bind, htexts,
          Run.bind_on, Run.lift_on, Run.bind_of_ok (Run.printAll_on texts k'), Run.pure_on]
        exact .missed (.key hname hv) htells hh

theorem loadDocument (h : S.Values config config') (sources : Sources) :
    S.AgreeOrMiss Eq none (DocumentTells sources) (Session.loadDocument sources config)
      (Session.loadDocument sources config') := by
  unfold Session.loadDocument
  rw [h.snapshotDir]
  apply (Agree.lift (.refl _)).bind_orMiss
  rintro directory _ rfl
  apply (Agree.pathFor _ _ _).bind_orMiss
  rintro documentPath _ rfl
  apply (Agree.pathFor _ _ _).bind_orMiss
  rintro variablesPath _ rfl
  apply (Agree.isThere _).bind_orMiss
  rintro there _ rfl
  split
  · exact ((Agree.load _ _).bind_eq fun _ => .pure rfl).orMiss _ _
  · apply (Agree.token h).bind_orMiss
    rintro token _ rfl
    apply fileKey h
    · intro key
      split
      · exact (Agree.print _).bind_eq fun _ => (Agree.print _).bind_eq fun _ => .pure rfl
      · apply (Agree.print _).bind_eq
        intro _
        apply (Agree.fetchDocument _ _).bind_eq
        rintro (e | ⟨file, vars⟩)
        · exact (Agree.print _).bind_eq fun _ => .pure rfl
        · exact (Agree.lift (.refl _)).bind_eq fun _ => .pure rfl
    · intro hgiven
      refine ⟨noSource documentPath, ⟨hgiven, documentPath, rfl⟩, ?_⟩
      simp [noSource, Run.printAll]

theorem selected (h : S.Values config config') (sources : Sources)
    (nodeIds : List (Option String)) :
    S.AgreeOrMiss Eq none (DocumentTells sources) (Session.selected sources nodeIds config)
      (Session.selected sources nodeIds config') := by
  apply (loadDocument h sources).bind
  · rintro (_ | d) _ rfl
    · exact .pure rfl
    · dsimp only
      rw [h.selectedIds]
      apply (Agree.lift (.refl _)).bind_eq
      intro ids
      split
      · exact (Agree.print _).bind_eq fun _ => .pure rfl
      · exact (Agree.liftTraced _).bind_eq fun _ => .pure rfl
  · rfl

theorem answered (h : S.Values config config') (command : Command) (sources : Sources)
    (nodeIds : List (Option String)) :
    S.AgreeOrMiss Eq none (DocumentTells sources)
      (Session.answered command sources nodeIds config)
      (Session.answered command sources nodeIds config') := by
  apply (selected h sources nodeIds).bind
  · rintro (_ | ⟨d, selection⟩) _ rfl
    · exact .pure rfl
    · exact (Agree.carryOut _ _ _).bind_eq fun _ => .pure rfl
  · rfl

theorem display (h : S.Values config config') (sources : Sources) (nodeIds : List (Option String))
    (save : Bool) :
    S.AgreeOrMiss Eq () (DocumentTells sources) (Session.display sources nodeIds save config)
      (Session.display sources nodeIds save config') := by
  rw [Session.display_eq, Session.display_eq]
  apply (answered h .display sources nodeIds).bind
  · rintro answer _ rfl
    exact Agree.keep save h answer
  · rfl

theorem generateCommand (h : S.Values config config') (sources : Sources)
    (nodeIds : List (Option String)) (output : Option String) :
    S.AgreeOrMiss Eq () (DocumentTells sources)
      (Session.generateCommand sources nodeIds output config)
      (Session.generateCommand sources nodeIds output config') := by
  rw [Session.generateCommand_eq, Session.generateCommand_eq]
  apply (answered h .generate sources nodeIds).bind
  · rintro answer _ rfl
    exact Agree.deliverAll output _
  · rfl

theorem debug (h : S.Values config config') (sources : Sources) :
    S.AgreeOrMiss Eq () (DocumentTells sources) (Session.debug sources config)
      (Session.debug sources config') := by
  apply (loadDocument h sources).bind
  · rintro (_ | d) _ rfl
    · exact .pure rfl
    · exact (Agree.carryOut _ _ _).bind_eq fun _ => .pure rfl
  · rfl

theorem snapshot (h : S.Values config config') (given : Option String) :
    S.AgreeOrMiss Eq () (SnapshotTells given) (Session.snapshot given config)
      (Session.snapshot given config') := by
  unfold Session.snapshot
  apply (Agree.token h).bind_orMiss
  rintro token _ rfl
  apply fileKey h
  · intro key
    split
    · exact (Agree.print _).bind_eq fun _ => Agree.print _
    · split
      · exact Agree.print _
      · apply (Agree.print _).bind_eq
        intro _
        apply (Agree.fetchDocument _ _).bind_eq
        rintro (e | ⟨file, vars⟩)
        · exact Agree.print _
        · dsimp only
          rw [h.snapshotDir]
          apply (Agree.lift (.refl _)).bind_eq
          intro directory
          exact (Agree.save _ _ _).bind_eq fun _ => Agree.printAll _
  · intro hgiven
    by_cases htoken : token.isTruthy
    · exact ⟨noKey, ⟨hgiven, .inr rfl⟩, by simp [htoken, noKey, Run.printAll]⟩
    · exact ⟨noToken, ⟨hgiven, .inl rfl⟩, by simp [htoken, noToken, Run.printAll]⟩

end AgreeOrMiss

end DesignComponents.Config.Replacement
