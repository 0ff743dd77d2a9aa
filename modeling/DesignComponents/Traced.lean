import DesignComponents.Json.Access
import DesignComponents.Warning

/-!
Computations that warn on the way and may fail. The warnings given before a failure remain.
-/

namespace DesignComponents

structure Traced (α : Type) where
  log : List Warning
  result : Except Fault α

namespace Traced

variable {α β γ : Type}

protected def pure (a : α) : Traced α := ⟨[], .ok a⟩

protected def bind (x : Traced α) (f : α → Traced β) : Traced β :=
  match x.result with
  | .ok a => ⟨x.log ++ (f a).log, (f a).result⟩
  | .error e => ⟨x.log, .error e⟩

instance : Monad Traced where
  pure := Traced.pure
  bind := Traced.bind

def ofExcept (x : Except Fault α) : Traced α := ⟨[], x⟩

instance : MonadLift (Except Fault) Traced := ⟨ofExcept⟩

def fail (e : Fault) : Traced α := ⟨[], .error e⟩

def warn (w : Warning) : Traced Unit := ⟨[w], .ok ()⟩

/-- What is asked about a node of another document is not known. -/
def soft (x : Traced (Option α)) : Traced (Option α) :=
  match x.result with
  | .error (.foreignNode _) => ⟨x.log, .ok none⟩
  | _ => x

@[simp] theorem pure_log (a : α) : (pure a : Traced α).log = [] := rfl
@[simp] theorem pure_result (a : α) : (pure a : Traced α).result = .ok a := rfl
@[simp] theorem warn_log (w : Warning) : (warn w).log = [w] := rfl
@[simp] theorem warn_result (w : Warning) : (warn w).result = .ok () := rfl
@[simp] theorem ofExcept_log (x : Except Fault α) : (ofExcept x).log = [] := rfl
@[simp] theorem ofExcept_result (x : Except Fault α) : (ofExcept x).result = x := rfl

theorem bind_of_ok {x : Traced α} {a : α} (h : x.result = .ok a) (f : α → Traced β) :
    x >>= f = ⟨x.log ++ (f a).log, (f a).result⟩ := by
  simp [Bind.bind, Traced.bind, h]

theorem bind_of_error {x : Traced α} {e : Fault} (h : x.result = .error e) (f : α → Traced β) :
    x >>= f = ⟨x.log, .error e⟩ := by
  simp [Bind.bind, Traced.bind, h]

@[simp] theorem id_map' (x : Traced α) : id <$> x = x := by
  cases x with
  | mk log result => cases result <;> simp [Functor.map, Traced.bind, Traced.pure]

@[simp] theorem pure_bind' (a : α) (f : α → Traced β) : (pure a >>= f) = f a := by
  simp [Bind.bind, Traced.bind, Pure.pure, Traced.pure]

theorem bind_assoc' (x : Traced α) (f : α → Traced β) (g : β → Traced γ) :
    x >>= f >>= g = x >>= fun a => f a >>= g := by
  cases h : x.result with
  | error e => simp [Bind.bind, Traced.bind, h]
  | ok a => cases h' : (f a).result <;> simp [Bind.bind, Traced.bind, h, h']

instance : LawfulMonad Traced := LawfulMonad.mk' Traced id_map' pure_bind' bind_assoc'

end Traced

end DesignComponents
