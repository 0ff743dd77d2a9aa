import DesignComponents.Document.Basic
import DesignComponents.Proofs.Host.Alike

/-!
Runs on two hosts that differ in sections of settings that are no objects: they agree if they end
alike and print the same. What is printed before may differ in the warnings on these sections, and
in what is said where a key is asked for.
-/

namespace DesignComponents.Config.Replacement

open Run (linesOf)

/-- What is printed on the settings as they are, and without the warnings on the sections. -/
def remarked (S : Replacement) : String := linesOf ((remarks S.fields).map Warning.line)

def remarkedAfter (S : Replacement) : String :=
  linesOf (((remarks S.fields).filter fun w => !isMisplaced S.names w).map Warning.line)

/-- The cause for which a key cannot be asked of the section that holds it. -/
inductive Unasked (S : Replacement) : Fault → Prop
  | key {v : Json} (replaced : "figma" ∈ S.names) (there : S.fields.lookup "figma" = some v) :
    Unasked S (.noMember v.kind "get")

/-- What is said where there is neither a snapshot nor a key. -/
def noSource (documentPath : String) : List String :=
  ["❌ 找不到快照 '" ++ documentPath ++ "'，且未設定 FIGMA_TOKEN 與 file key。",
    "   請先執行 'figma-compgen snapshot --file-key KEY'，或使用 --document 指定檔案。"]

def dumpReports : List String := ["   ⚠️  Initial dump failed: ", "   ⚠️  Dump failed: "]

inductive Difference
  | warnings
  | missingKey
  deriving DecidableEq

/-- Texts that differ, in this order, in the warnings on the settings and in dumps that need a key:
with the section they fail at it, and without it they say that there is no key. -/
inductive Echoes (S : Replacement) : List Difference → String → String → Prop
  | same (s : String) : Echoes S [] s s
  | text {ds : List Difference} {s s' : String} (t : String) (h : Echoes S ds s s') :
    Echoes S ds (s ++ t) (s' ++ t)
  | warnings {ds : List Difference} {s s' : String} (h : Echoes S ds s s') :
    Echoes S (ds ++ [.warnings]) (s ++ S.remarked) (s' ++ S.remarkedAfter)
  | missingKey {ds : List Difference} {s s' report : String} {e : Fault} (unasked : S.Unasked e)
    (dump : report ∈ dumpReports) (documentPath : String) (h : Echoes S ds s s') :
    Echoes S (ds ++ [.missingKey]) (s ++ linesOf [report ++ e.message])
      (s' ++ linesOf (noSource documentPath))

/-- The hosts are the same but for the settings in their files and for what was printed. -/
structure Alike (S : Replacement) (ds : List Difference) (h h' : Host) : Prop where
  files : S.FilesAlike h.files h'.files
  here : h'.workingDirectory = h.workingDirectory
  token : h'.token = h.token
  network : h'.network = h.network
  clock : h'.clock = h.clock
  requests : h'.requests = h.requests
  printed : S.Echoes ds h.printed h'.printed

/-- The runs end alike on hosts that are alike, print the same, and leave them alike. -/
def Agree {α β : Type} (S : Replacement) (R : α → β → Prop) (x : Run α) (y : Run β) : Prop :=
  ∀ ⦃ds h h'⦄, S.Alike ds h h' →
    Matches R (x.on h).1 (y.on h').1 ∧ S.Alike ds (x.on h).2 (y.on h').2

namespace Agree

variable {S : Replacement} {α β γ δ : Type} {R : α → β → Prop} {Q : γ → δ → Prop} {x : Run α}
  {y : Run β}

theorem pure {a : α} {b : β} (h : R a b) : S.Agree R (pure a) (pure b) :=
  fun _ _ _ hh => ⟨.ok h, hh⟩

theorem throw (e : Fault) : S.Agree R (throw e) (throw e) := fun _ _ _ hh => ⟨.error e, hh⟩

theorem lift {u : Except Fault α} {v : Except Fault β} (h : Matches R u v) :
    S.Agree R (liftM u) (liftM v) := by
  intro ds k k' hh
  rw [Run.lift_on, Run.lift_on]
  exact ⟨h, hh⟩

theorem bind {f : α → Run γ} {g : β → Run δ} (h : S.Agree R x y)
    (hfg : ∀ a b, R a b → S.Agree Q (f a) (g b)) : S.Agree Q (x >>= f) (y >>= g) := by
  intro ds k k' hh
  obtain ⟨hr, hk⟩ := h hh
  apply hr.bind_on (P := fun u v => Matches Q u.1 v.1 ∧ S.Alike ds u.2 v.2)
  · exact fun a b hab => hfg a b hab hk
  · exact fun e => ⟨.error e, hk⟩

/-- The same rule for results that are equal. -/
theorem bind_eq {x y : Run α} {f : α → Run γ} {g : α → Run δ} (h : S.Agree Eq x y)
    (hfg : ∀ a, S.Agree Q (f a) (g a)) : S.Agree Q (x >>= f) (y >>= g) := by
  refine h.bind ?_
  rintro a _ rfl
  exact hfg a

theorem get_bind {f : Host → Run γ} {g : Host → Run δ}
    (hfg : ∀ ⦃ds h h'⦄, S.Alike ds h h' → S.Agree Q (f h) (g h')) :
    S.Agree Q (get >>= f) (get >>= g) := by
  intro ds h h' hh
  rw [Run.get_bind_on, Run.get_bind_on]
  exact hfg hh hh

theorem print (text : String) : S.Agree Eq (Run.print text) (Run.print text) := by
  intro ds h h' hh
  rw [Run.print_on, Run.print_on]
  exact ⟨.ok rfl, { hh with printed := (hh.printed.text text).text "\n" }⟩

theorem printAll (texts : List String) : S.Agree Eq (Run.printAll texts) (Run.printAll texts) := by
  intro ds h h' hh
  rw [Run.printAll_on, Run.printAll_on]
  exact ⟨.ok rfl, { hh with printed := hh.printed.text _ }⟩

theorem warn (w : Warning) : S.Agree Eq (Run.warn w) (Run.warn w) := print w.line

theorem liftTraced (x : Traced α) : S.Agree Eq (liftM x : Run α) (liftM x) :=
  (printAll _).bind_eq fun _ => lift (.refl _)

theorem pathOf (v : Json) : S.Agree Eq (Run.pathOf v) (Run.pathOf v) := by
  cases v with
  | str s => exact .pure rfl
  | _ => exact .throw _

theorem isThere (path : String) : S.Agree Eq (Run.isThere path) (Run.isThere path) := by
  apply get_bind
  intro ds h h' hh
  rw [hh.here, hh.files.isThere_eq]
  exact .pure rfl

theorem change {f g : Host → Except Fault Files}
    (hfg : ∀ ⦃ds h h'⦄, S.Alike ds h h' → Matches S.FilesAlike (f h) (g h')) :
    S.Agree Eq (get >>= fun h => liftM (f h) >>= fun files => set (h.holding files) : Run Unit)
      (get >>= fun h => liftM (g h) >>= fun files => set (h.holding files)) := by
  intro ds h h' hh
  have hfiles := hfg hh
  rw [Run.get_bind_on, Run.get_bind_on, Run.bind_on, Run.bind_on, Run.lift_on, Run.lift_on]
  generalize f h = u at hfiles
  generalize g h' = v at hfiles
  cases hfiles with
  | ok hmade => exact ⟨.ok rfl, { hh with files := hmade }⟩
  | error e => exact ⟨.error e, hh⟩

theorem writeText (path text : String) :
    S.Agree Eq (Run.writeText path text) (Run.writeText path text) := by
  apply change
  intro ds h h' hh
  rw [hh.here]
  exact hh.files.write _ path text

theorem makeDirectories (path : String) :
    S.Agree Eq (Run.makeDirectories path) (Run.makeDirectories path) := by
  apply change
  intro ds h h' hh
  rw [hh.here]
  exact hh.files.makeStages _ _

theorem provideDirectories (path : String) :
    S.Agree Eq (Run.provideDirectories path) (Run.provideDirectories path) := by
  apply change
  intro ds h h' hh
  rw [hh.here]
  exact hh.files.provideStages _ _

theorem fetch (token : Json) (url : String) :
    S.Agree Eq (Remote.fetch token url) (Remote.fetch token url) := by
  intro ds h h' hh
  rw [Remote.fetch_on, Remote.fetch_on]
  refine ⟨?_, { hh with requests := ?_ }⟩
  · rw [hh.network]
    exact .refl _
  · rw [hh.requests]

theorem fetchDocument (token : Json) (fileKey : String) :
    S.Agree Eq (Remote.fetchDocument token fileKey) (Remote.fetchDocument token fileKey) := by
  apply (fetch token _).bind_eq
  rintro (e | file)
  · exact .pure rfl
  · apply (fetch token _).bind_eq
    rintro (e | vars)
    · exact (warn _).bind_eq fun _ => .pure rfl
    · cases vars <;> exact .pure rfl

end Agree

/-! ### Runs that may need a key -/

/-- How two runs end where one may need a key: alike, or the first fails since it cannot ask for the
key, and the second says that there is none and goes on with the given result. -/
inductive Outcomes {α β : Type} (S : Replacement) (R : α → β → Prop) (b : β)
    (Tells : List String → Prop) (ds : List Difference) :
    Except Fault α × Host → Except Fault β × Host → Prop
  | alike {r : Except Fault α} {r' : Except Fault β} {k k' : Host} (results : Matches R r r')
    (hosts : S.Alike ds k k') : Outcomes S R b Tells ds (r, k) (r', k')
  | missed {e : Fault} {texts : List String} {k k' : Host} (unasked : S.Unasked e)
    (told : Tells texts) (hosts : S.Alike ds k k') :
    Outcomes S R b Tells ds (.error e, k)
      (.ok b, { k' with printed := k'.printed ++ linesOf texts })

def AgreeOrMiss {α β : Type} (S : Replacement) (R : α → β → Prop) (b : β)
    (Tells : List String → Prop) (x : Run α) (y : Run β) : Prop :=
  ∀ ⦃ds h h'⦄, S.Alike ds h h' → S.Outcomes R b Tells ds (x.on h) (y.on h')

section

variable {S : Replacement} {α β γ δ : Type} {R : α → β → Prop} {Q : γ → δ → Prop} {x : Run α}
  {y : Run β} {b : β} {d : δ} {Tells : List String → Prop} {f : α → Run γ} {g : β → Run δ}

theorem Agree.orMiss (h : S.Agree R x y) (b : β) (Tells : List String → Prop) :
    S.AgreeOrMiss R b Tells x y := by
  intro ds k k' hh
  obtain ⟨hr, hk⟩ := h hh
  exact .alike hr hk

theorem Agree.bind_orMiss (h : S.Agree R x y)
    (hfg : ∀ a b, R a b → S.AgreeOrMiss Q d Tells (f a) (g b)) :
    S.AgreeOrMiss Q d Tells (x >>= f) (y >>= g) := by
  intro ds k k' hh
  obtain ⟨hr, hk⟩ := h hh
  apply hr.bind_on (P := S.Outcomes Q d Tells ds)
  · exact fun a b hab => hfg a b hab hk
  · exact fun e => .alike (.error e) hk

/-- What comes after a missing key does nothing. -/
theorem AgreeOrMiss.bind (h : S.AgreeOrMiss R b Tells x y)
    (hfg : ∀ a b, R a b → S.Agree Q (f a) (g b)) (hb : g b = pure d) :
    S.AgreeOrMiss Q d Tells (x >>= f) (y >>= g) := by
  intro ds k k' hh
  rw [Run.bind_on, Run.bind_on]
  have hend := h hh
  generalize x.on k = u at hend
  generalize y.on k' = v at hend
  cases hend with
  | alike results hosts =>
    cases results with
    | ok hab => exact (hfg _ _ hab).orMiss d Tells hosts
    | error e => exact .alike (.error e) hosts
  | missed unasked told hosts =>
    dsimp only
    rw [hb, Run.pure_on]
    exact .missed unasked told hosts

end

/-! ### Data that is read -/

/-- The data is the same, or it is the settings and the settings without the sections. -/
inductive Values (S : Replacement) : Json → Json → Prop
  | same (v : Json) : Values S v v
  | settings : Values S (.obj S.fields) (.obj (without S.names S.fields))

variable {S : Replacement}

theorem FilesAlike.read {files files' : Files} (h : S.FilesAlike files files') (here : Location)
    (path : String) :
    Files.read files' here path = Files.read files here path ∨
      Files.read files here path = .ok (String.ofList (Files.unifyLineEnds S.before.toList)) ∧
        Files.read files' here path = .ok (String.ofList (Files.unifyLineEnds S.after.toList)) := by
  simp only [Files.read, h.locate_eq]
  cases Files.locate files here path with
  | error e => exact .inl rfl
  | ok l =>
    simp only [ok_bind]
    rcases h l with heq | ⟨-, hbefore, hafter⟩
    · exact .inl (by rw [heq])
    · rw [hbefore, hafter]
      exact .inr ⟨rfl, rfl⟩

theorem Agree.readJson (path : String) :
    S.Agree S.Values (Run.readJson path) (Run.readJson path) := by
  intro ds h h' hh
  rw [Run.readJson_on, Run.readJson_on, hh.here]
  refine ⟨?_, hh⟩
  rcases hh.files.read h.workingDirectory path with heq | ⟨hbefore, hafter⟩
  · rw [heq]
    generalize Files.read h.files h.workingDirectory path >>= Run.dataIn = x
    cases x with
    | ok v => exact .ok (.same v)
    | error e => exact .error e
  · rw [hbefore, hafter, ok_bind, ok_bind, Run.dataIn, Run.dataIn, S.reads, S.readsAfter]
    exact .ok .settings

/-- Data of settings that is taken for something else has nothing to do with their sections. -/
theorem Values.getOr {v v' : Json} (h : S.Values v v') {name : String} (hname : name ∉ sectionNames)
    (other : Json) : v'.orEmpty.getOr name other = v.orEmpty.getOr name other := by
  cases h with
  | same => rfl
  | settings =>
    have horEmpty (fs : List (String × Json)) : (Json.obj fs).orEmpty = .obj fs := by
      cases fs <;> rfl
    have hno : name ∉ S.names := fun hmem => hname (S.misplaced name hmem).1
    rw [horEmpty, horEmpty, Json.getOr_obj, Json.getOr_obj, lookup_without, if_neg hno]

theorem Values.ofJson {file file' vars vars' : Json} (hfile : S.Values file file')
    (hvars : S.Values vars vars') :
    Document.ofJson file' vars' = Document.ofJson file vars := by
  rw [Document.ofJson, Document.ofJson, hfile.getOr (show "document" ∉ sectionNames by decide),
    hfile.getOr (show "components" ∉ sectionNames by decide),
    hvars.getOr (show "meta" ∉ sectionNames by decide)]

end DesignComponents.Config.Replacement
