import DesignComponents.Proofs.Host.Run
import DesignComponents.Host.Remote

/-!
Runs that only look at a host: they change no file, and how they end, what they print and what they
request does not depend on what was printed and requested before.
-/

namespace DesignComponents

namespace Host

/-- A host as it is now, without what was done before. -/
def fresh (h : Host) : Host := { h with clock := "", printed := "", requests := [] }

/-- A host on which is printed and requested what another one has, after its own. -/
def followedBy (h k : Host) : Host :=
  { h with printed := h.printed ++ k.printed, requests := h.requests ++ k.requests }

@[simp] theorem fresh_fresh (h : Host) : h.fresh.fresh = h.fresh := rfl

@[simp] theorem fresh_followedBy (h k : Host) : (h.followedBy k).fresh = h.fresh := rfl

@[simp] theorem followedBy_fresh (h k : Host) : h.followedBy k.fresh = h := by
  simp [followedBy, fresh]

theorem followedBy_assoc (h k l : Host) :
    (h.followedBy k).followedBy l = h.followedBy (k.followedBy l) := by
  simp [followedBy, String.append_assoc]

theorem fresh_holding_congr {h k : Host} (hfresh : h.fresh = k.fresh) (files : Files) :
    (h.holding files).fresh = (k.holding files).fresh :=
  congrArg (fun now : Host => now.holding files) hfresh

end Host

namespace Run

variable {α β : Type} {x : Run α}

/-- The run only looks at the host, as it is now. -/
def Observes (x : Run α) : Prop :=
  ∀ h, x.on h = ((x.on h.fresh).1, h.followedBy (x.on h.fresh).2)

namespace Observes

theorem pure (a : α) : Observes (pure a) := by
  intro h
  simp

theorem throw (e : Fault) : Observes (throw e : Run α) := by
  intro h
  simp

theorem ofExcept (y : Except Fault α) : Observes (ofExcept y) := by
  intro h
  simp

theorem lift (y : Except Fault α) : Observes (liftM y : Run α) := ofExcept y

theorem fresh_eq (hx : Observes x) {h k : Host} {r : Except Fault α} (hon : x.on h = (r, k)) :
    k.fresh = h.fresh := by
  rw [← show (x.on h).2 = k from congrArg Prod.snd hon, hx h, Host.fresh_followedBy]

theorem files_eq (hx : Observes x) {h k : Host} {r : Except Fault α} (hon : x.on h = (r, k)) :
    k.files = h.files := by
  have hfiles : k.fresh.files = h.fresh.files := congrArg Host.files (hx.fresh_eq hon)
  exact hfiles

theorem here_eq (hx : Observes x) {h k : Host} {r : Except Fault α} (hon : x.on h = (r, k)) :
    k.workingDirectory = h.workingDirectory := by
  have hhere : k.fresh.workingDirectory = h.fresh.workingDirectory :=
    congrArg Host.workingDirectory (hx.fresh_eq hon)
  exact hhere

theorem clock_eq (hx : Observes x) {h k : Host} {r : Except Fault α} (hon : x.on h = (r, k)) :
    k.clock = h.clock := by
  rw [← show (x.on h).2 = k from congrArg Prod.snd hon, hx h]
  rfl

/-- It ends in the same way on hosts that are the same now. -/
theorem on_congr (hx : Observes x) {h h' k : Host} {r : Except Fault α} (hon : x.on h = (r, h'))
    (hfresh : h.fresh = k.fresh) : ∃ k', x.on k = (r, k') ∧ k'.fresh = k.fresh := by
  refine ⟨(x.on k).2, Prod.ext ?_ rfl, hx.fresh_eq rfl⟩
  calc
    (x.on k).1 = (x.on k.fresh).1 := by rw [hx k]
    _ = (x.on h).1 := by rw [← hfresh, hx h]
    _ = r := by rw [hon]

theorem bind {f : α → Run β} (hx : Observes x) (hf : ∀ a, Observes (f a)) :
    Observes (x >>= f) := by
  intro h
  rw [bind_on, bind_on, hx h]
  cases hk : x.on h.fresh with
  | mk r k =>
    cases r with
    | error e => rfl
    | ok a =>
      have hfresh : k.fresh = h.fresh := (hx.fresh_eq hk).trans h.fresh_fresh
      dsimp only
      rw [hf a (h.followedBy k), hf a k, Host.fresh_followedBy, hfresh, Host.followedBy_assoc]

/-- A look at the host that does not depend on what was done before. -/
theorem get_bind {f : Host → Run α} (hf : ∀ h, Observes (f h)) (hnow : ∀ h, f h = f h.fresh) :
    Observes (get >>= f) := by
  intro h
  rw [get_bind_on, get_bind_on, hnow h, ← hf h.fresh h]

theorem print (text : String) : Observes (print text) := by
  intro h
  simp [Host.followedBy, Host.fresh, String.append_assoc]

theorem warn (w : Warning) : Observes (warn w) := print w.line

theorem printAll (texts : List String) : Observes (printAll texts) := by
  induction texts with
  | nil => exact pure ()
  | cons t ts ih => exact (print t).bind fun _ => ih

theorem ofTraced (y : Traced α) : Observes (ofTraced y) :=
  (printAll _).bind fun _ => ofExcept _

theorem liftTraced (y : Traced α) : Observes (liftM y : Run α) := ofTraced y

theorem isThere (path : String) : Observes (isThere path) :=
  get_bind (fun _ => pure _) fun _ => rfl

theorem isThereStrict (path : String) : Observes (isThereStrict path) :=
  get_bind (fun _ => lift _) fun _ => rfl

theorem readText (path : String) : Observes (readText path) :=
  get_bind (fun _ => lift _) fun _ => rfl

theorem readJson (path : String) : Observes (readJson path) := by
  apply (readText path).bind
  intro text
  split
  · exact pure _
  · exact throw _

theorem pathOf (v : Json) : Observes (pathOf v) := by
  cases v with
  | str s => exact pure s
  | _ => exact throw _

end Observes

end Run

namespace Remote

open Run

theorem fetch_on (token : Json) (url : String) (h : Host) :
    (fetch token url).on h = (readReply url (h.network ⟨url, token, timeout⟩),
      { h with requests := h.requests ++ [⟨url, token, timeout⟩] }) := by
  simp [fetch, bind_on]

theorem fetch_observes (token : Json) (url : String) : Observes (fetch token url) := by
  intro h
  rw [fetch_on, fetch_on, Host.followedBy]
  simp [Host.fresh]

theorem fetchDocument_observes (token : Json) (fileKey : String) :
    Observes (fetchDocument token fileKey) := by
  apply (fetch_observes token _).bind
  rintro (e | file)
  · exact .pure _
  · apply (fetch_observes token _).bind
    rintro (e | vars)
    · exact (Observes.warn _).bind fun _ => .pure _
    · cases vars <;> exact .pure _

/-- Without access to the variables there are none. -/
theorem fetchDocument_of_refused {token file : Json} {fileKey : String} {e : FetchError} {h : Host}
    (hfile : readReply (fileUrl fileKey) (h.network ⟨fileUrl fileKey, token, timeout⟩) =
      .ok (.ok file))
    (hvars : readReply (variablesUrl fileKey) (h.network ⟨variablesUrl fileKey, token, timeout⟩) =
      .ok (.error e)) : ∃ k, (fetchDocument token fileKey).on h = (.ok (.ok (file, none)), k) := by
  have hfirst := fetch_on token (fileUrl fileKey) h
  rw [hfile] at hfirst
  have hsecond := fetch_on token (variablesUrl fileKey)
    { h with requests := h.requests ++ [⟨fileUrl fileKey, token, timeout⟩] }
  rw [hvars] at hsecond
  rw [fetchDocument, bind_of_ok hfirst]
  dsimp only
  rw [bind_of_ok hsecond]
  exact ⟨_, rfl⟩

end Remote

end DesignComponents
