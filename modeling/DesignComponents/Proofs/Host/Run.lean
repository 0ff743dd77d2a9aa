import DesignComponents.Host.Basic
import DesignComponents.Proofs.Outcome

/-!
Steps of a run, one equation for each.
-/

namespace DesignComponents

/-- The host with other files. -/
def Host.holding (h : Host) (files : Files) : Host := { h with files := files }

namespace Run

variable {α β : Type}

/-- How a run ends on a host, and the host after it. -/
def on (x : Run α) (h : Host) : Except Fault α × Host := x h

theorem bind_on (x : Run α) (f : α → Run β) (h : Host) :
    (x >>= f).on h =
      match x.on h with
      | (.ok a, h) => (f a).on h
      | (.error e, h) => (.error e, h) := by
  change ExceptT.bindCont f (x.on h).1 (x.on h).2 = _
  cases hx : x.on h with
  | mk r k => cases r <;> rfl

theorem bind_of_ok {x : Run α} {h k : Host} {a : α} (hx : x.on h = (.ok a, k)) (f : α → Run β) :
    (x >>= f).on h = (f a).on k := by
  rw [bind_on, hx]

theorem bind_of_error {x : Run α} {h k : Host} {e : Fault} (hx : x.on h = (.error e, k))
    (f : α → Run β) : (x >>= f).on h = (.error e, k) := by
  rw [bind_on, hx]

theorem bind_eq_ok {x : Run α} {f : α → Run β} {h h' : Host} {b : β} :
    (x >>= f).on h = (.ok b, h') ↔ ∃ a k, x.on h = (.ok a, k) ∧ (f a).on k = (.ok b, h') := by
  cases hx : x.on h with
  | mk r k =>
    cases r with
    | error e => simp [bind_on, hx]
    | ok a => simp [bind_on, hx, and_assoc]

/-- A run that is seen to end well, as evaluation shows it. -/
theorem exists_ok {x : Run α} {h : Host} (hx : (x.on h).1.toOption.isSome = true) :
    ∃ a, x.on h = (.ok a, (x.on h).2) := by
  cases hon : x.on h with
  | mk r k =>
    cases r with
    | error e => simp [hon, Except.toOption] at hx
    | ok a => exact ⟨a, rfl⟩

@[simp] theorem pure_on (a : α) (h : Host) : (pure a : Run α).on h = (.ok a, h) := rfl

@[simp] theorem throw_on (e : Fault) (h : Host) : (throw e : Run α).on h = (.error e, h) := rfl

@[simp] theorem get_on (h : Host) : (get : Run Host).on h = (.ok h, h) := rfl

@[simp] theorem get_bind_on (f : Host → Run α) (h : Host) : (get >>= f : Run α).on h = (f h).on h :=
  rfl

@[simp] theorem set_on (h h' : Host) : (set h' : Run PUnit).on h = (.ok ⟨⟩, h') := rfl

@[simp] theorem modify_on (f : Host → Host) (h : Host) :
    (modify f : Run PUnit).on h = (.ok ⟨⟩, f h) := rfl

@[simp] theorem ofExcept_on (x : Except Fault α) (h : Host) : (ofExcept x).on h = (x, h) := by
  cases x <;> rfl

@[simp] theorem lift_on (x : Except Fault α) (h : Host) : (liftM x : Run α).on h = (x, h) :=
  ofExcept_on x h

theorem lift_on_of_ok {x : Except Fault α} {a : α} (hx : x = .ok a) (h : Host) :
    (liftM x : Run α).on h = (.ok a, h) := by
  rw [lift_on, hx]

theorem lift_eq_ok {x : Except Fault α} {h k : Host} {a : α}
    (hx : (liftM x : Run α).on h = (.ok a, k)) : x = .ok a ∧ h = k := by
  rw [lift_on] at hx
  exact ⟨congrArg Prod.fst hx, congrArg Prod.snd hx⟩

theorem lift_ok_bind (a : α) (f : α → Run β) :
    ((liftM (Except.ok a : Except Fault α) : Run α) >>= f) = f a := rfl

@[simp] theorem print_on (text : String) (h : Host) :
    (print text).on h = (.ok (), { h with printed := h.printed ++ text ++ "\n" }) := rfl

theorem pathOf_eq_ok {v : Json} {path : String} {h k : Host}
    (hx : (pathOf v).on h = (.ok path, k)) : v = .str path ∧ k = h := by
  cases v <;> simp_all [pathOf]

/-- A step that only changes the files. -/
theorem change_eq_ok {x : Host → Except Fault Files} {h k : Host}
    (hx : (get >>= fun h => liftM (x h) >>= fun files => set (h.holding files) : Run Unit).on h =
      (.ok (), k)) : ∃ files, x h = .ok files ∧ k = h.holding files := by
  rw [get_bind_on] at hx
  obtain ⟨files, h', hfiles, hset⟩ := bind_eq_ok.1 hx
  obtain ⟨hok, rfl⟩ := lift_eq_ok hfiles
  exact ⟨files, hok, (congrArg Prod.snd hset).symm⟩

theorem isThereStrict_on (path : String) (h : Host) :
    (isThereStrict path).on h = (h.files.isThereStrict h.workingDirectory path, h) := by
  rw [isThereStrict, get_bind_on]
  exact lift_on _ _

theorem readText_on (path : String) (h : Host) :
    (readText path).on h = (h.files.read h.workingDirectory path, h) := by
  rw [readText, get_bind_on]
  exact lift_on _ _

/-- The data in a text, as it is read from a file. -/
def dataIn (text : String) : Except Fault Json :=
  match Json.read text with
  | .ok v => .ok v
  | .error e => .error (.unreadable e)

theorem readJson_on (path : String) (h : Host) :
    (readJson path).on h = (h.files.read h.workingDirectory path >>= dataIn, h) := by
  rw [readJson, bind_on, readText_on]
  cases h.files.read h.workingDirectory path with
  | error e => rfl
  | ok text =>
    rw [ok_bind, dataIn]
    dsimp only
    cases Json.read text <;> rfl

end Run

end DesignComponents
