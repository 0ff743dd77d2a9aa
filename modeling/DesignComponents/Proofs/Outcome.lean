import DesignComponents.Traced

/-!
Outcomes of computations that may fail, read without running the computation again: a computation
`Yields` values of a kind if it succeeds with one of them, and `Ends` in them if it may also fail in
one of the ways allowed.
-/

namespace DesignComponents

section

variable {ε α β : Type}

@[simp] theorem ok_bind (a : α) (f : α → Except ε β) : (Except.ok a >>= f) = f a := rfl

@[simp] theorem error_bind (e : ε) (f : α → Except ε β) :
    (Except.error e >>= f) = Except.error e := rfl

@[simp] theorem pure_eq_ok (a : α) : (pure a : Except ε α) = .ok a := rfl

@[simp] theorem throw_eq_error (e : ε) : (throw e : Except ε α) = .error e := rfl

@[simp] theorem map_ok (f : α → β) (a : α) : (Except.ok a : Except ε α).map f = .ok (f a) := rfl

@[simp] theorem map_error (f : α → β) (e : ε) :
    (Except.error e : Except ε α).map f = .error e := rfl

theorem toOption_eq_some {x : Except ε α} {a : α} : x.toOption = some a ↔ x = .ok a := by
  cases x <;> simp [Except.toOption]

theorem bind_eq_ok {x : Except ε α} {f : α → Except ε β} {b : β} :
    x >>= f = .ok b ↔ ∃ a, x = .ok a ∧ f a = .ok b := by
  cases x <;> simp

theorem map_eq_ok {x : Except ε α} {f : α → β} {b : β} :
    x.map f = .ok b ↔ ∃ a, x = .ok a ∧ f a = b := by
  cases x <;> simp

end

namespace Traced

variable {α β : Type}

@[simp] theorem bind_result (x : Traced α) (f : α → Traced β) :
    (x >>= f).result = x.result >>= fun a => (f a).result := by
  cases h : x.result <;> simp [Bind.bind, Traced.bind, Except.bind, h]

@[simp] theorem map_result (f : α → β) (x : Traced α) :
    (f <$> x).result = x.result.map f := by
  cases h : x.result <;> simp [Functor.map, Traced.bind, Traced.pure, h]

@[simp] theorem map_log (f : α → β) (x : Traced α) : (f <$> x).log = x.log := by
  cases h : x.result <;> simp [Functor.map, Traced.bind, Traced.pure, h]

@[simp] theorem lift_result (x : Except Fault α) : (liftM x : Traced α).result = x := rfl

@[simp] theorem lift_ok_bind (a : α) (f : α → Traced β) :
    (liftM (Except.ok a : Except Fault α) : Traced α) >>= f = f a := pure_bind' a f

theorem map_mk (f : α → β) (log : List Warning) (a : α) :
    f <$> (⟨log, .ok a⟩ : Traced α) = ⟨log, .ok (f a)⟩ := by
  simp [Functor.map, Traced.bind, Traced.pure]

theorem mk_bind (log : List Warning) (a : α) (f : α → Traced β) :
    (⟨log, .ok a⟩ : Traced α) >>= f = ⟨log ++ (f a).log, (f a).result⟩ := rfl

end Traced

/-- The computation succeeds, with a value that `P` holds of. -/
def Yields {α : Type} (x : Except Fault α) (P : α → Prop) : Prop := ∃ a, x = .ok a ∧ P a

namespace Yields

variable {α β : Type} {x : Except Fault α} {P Q : α → Prop} {R : β → Prop}

@[simp] theorem ok_iff {a : α} : Yields (.ok a) P ↔ P a := by
  simp [Yields]

theorem bind {f : α → Except Fault β} (h : Yields x P) (hf : ∀ a, P a → Yields (f a) R) :
    Yields (x >>= f) R := by
  obtain ⟨a, rfl, ha⟩ := h
  exact hf a ha

theorem map {f : α → β} (h : Yields x P) (hf : ∀ a, P a → R (f a)) : Yields (x.map f) R := by
  obtain ⟨a, rfl, ha⟩ := h
  exact ⟨f a, rfl, hf a ha⟩

theorem mono (h : Yields x P) (hpq : ∀ a, P a → Q a) : Yields x Q := by
  obtain ⟨a, rfl, ha⟩ := h
  exact ⟨a, rfl, hpq a ha⟩

theorem exists_ok (h : Yields x P) : ∃ a, x = .ok a := by
  obtain ⟨a, rfl, -⟩ := h
  exact ⟨a, rfl⟩

end Yields

/-- The computation ends with a value that `P` holds of, or with a fault that `E` allows. -/
def Ends {α : Type} (E : Fault → Prop) (x : Except Fault α) (P : α → Prop) : Prop :=
  match x with
  | .ok a => P a
  | .error e => E e

theorem Yields.ends {α : Type} {E : Fault → Prop} {x : Except Fault α} {P : α → Prop}
    (h : Yields x P) : Ends E x P := by
  obtain ⟨a, rfl, ha⟩ := h
  exact ha

namespace Ends

variable {α β : Type} {E : Fault → Prop} {x : Except Fault α} {P Q : α → Prop} {R : β → Prop}

@[simp] theorem ok_iff {a : α} : Ends E (.ok a) P ↔ P a := Iff.rfl

@[simp] theorem error_iff {e : Fault} : Ends E (.error e : Except Fault α) P ↔ E e := Iff.rfl

theorem bind {f : α → Except Fault β} (h : Ends E x P) (hf : ∀ a, P a → Ends E (f a) R) :
    Ends E (x >>= f) R := by
  cases x with
  | ok a => exact hf a h
  | error e => exact h

theorem mono (h : Ends E x P) (hpq : ∀ a, P a → Q a) : Ends E x Q := by
  cases x with
  | ok a => exact hpq a h
  | error e => exact h

theorem map {f : α → β} (h : Ends E x P) (hf : ∀ a, P a → R (f a)) : Ends E (x.map f) R := by
  cases x with
  | ok a => exact hf a h
  | error e => exact h

end Ends

/-- If the computation succeeds, `P` holds of its value. -/
abbrev Returns {α : Type} (x : Except Fault α) (P : α → Prop) : Prop := Ends (fun _ => True) x P

namespace Returns

variable {α β : Type} {x : Except Fault α} {P : α → Prop} {R : β → Prop}

theorem of_forall (h : ∀ a, x = .ok a → P a) : Returns x P := by
  cases x with
  | ok a => exact h a rfl
  | error e => trivial

theorem of_ok {a : α} (h : Returns x P) (hx : x = .ok a) : P a := by
  rwa [hx] at h

/-- A step of which nothing has to be known but that it succeeds. -/
theorem step {f : α → Except Fault β} (hf : ∀ a, x = .ok a → Returns (f a) R) :
    Returns (x >>= f) R := (of_forall fun _ h => h).bind hf

end Returns

theorem Returns.soft {α : Type} {x : Traced (Option α)} {P : Option α → Prop}
    (h : Returns x.result P) (hnone : P none) : Returns x.soft.result P := by
  unfold Traced.soft
  split
  · exact hnone
  · exact h

def Fault.IsForeign (e : Fault) : Prop := ∃ id, e = .foreignNode id

/-- A fault of the data, and no question about a node of another document. -/
def Fault.IsOfData (e : Fault) : Prop := ¬ e.IsForeign

def Fault.IsRefusal (e : Fault) : Prop := ∃ r, e = .refused r

/-- Nothing is left of a computation that fails on a node of another document only. -/
theorem Ends.soft {α : Type} {x : Traced (Option α)} {P : Option α → Prop}
    (h : Ends Fault.IsForeign x.result P) (hnone : P none) : Yields x.soft.result P := by
  cases hx : x.result with
  | ok a =>
    rw [hx] at h
    exact ⟨a, by simp [Traced.soft, hx], h⟩
  | error e =>
    rw [hx] at h
    obtain ⟨id, rfl⟩ := h
    exact ⟨none, by simp [Traced.soft, hx], hnone⟩

end DesignComponents
