import DesignComponents.Proofs.Config.Sections
import DesignComponents.Proofs.Number.Whole

/-!
What the settings come to, whatever values they have. Values of the wrong kind bring warnings; some
of them are taken for what they are not, and a few cannot be read at all.
-/

namespace DesignComponents.Config

/-- What the value of a setting selects: the texts in a list. Texts and objects are run through like
lists, into characters and names. Nothing is selected by what counts as absent, and no other number
or truth value can be run through. -/
inductive Selects : Json → Except Fault (List String) → Prop
  | list (vs : List Json) : Selects (.arr vs) (.ok (textsAmong vs))
  | characters (s : String) : Selects (.str s) (.ok (s.toList.map String.singleton))
  | names (fs : List (String × Json)) : Selects (.obj fs) (.ok (fs.map Prod.fst))
  | absent {v : Json} (absent : v.isTruthy = false) : Selects v (.ok [])
  | scalar {v : Json} (present : v.isTruthy = true) (kind : v.kind ∈ [.bool, .int, .double]) :
    Selects v (.error (.notIterable v.kind))

/-- How long the value of a setting makes one wait: as long as it says, if it is a number from zero
on and not too large for a double; else one second. -/
inductive Waits : Json → Except Fault Double → Prop
  | set {v : Json} {x : Number} {y : Double} (number : v.number? = some x) (sign : x.IsNonneg)
    (size : ¬ x.IsTooLarge) (value : x.HeldAs y) : Waits v (.ok y)
  | tooLarge {v : Json} {x : Number} (number : v.number? = some x) (sign : x.IsNonneg)
    (size : x.IsTooLarge) : Waits v (.error .numberTooLarge)
  | unset {v : Json} {y : Double} (other : ∀ x, v.number? = some x → ¬ x.IsNonneg)
    (one : y.value? = some 1) : Waits v (.ok y)

theorem textsAmong_map_str {α : Type} (f : α → String) (xs : List α) :
    textsAmong (xs.map fun x => .str (f x)) = xs.map f := by
  induction xs with
  | nil => rfl
  | cons x xs ih => rw [List.map_cons, textsAmong_str, ih, List.map_cons]

/-- All of a list of texts is selected. -/
theorem Selects.texts {ss : List String} {r : Except Fault (List String)}
    (h : Selects (.arr (ss.map .str)) r) : r = .ok ss := by
  cases h with
  | list =>
    have hall : textsAmong (ss.map .str) = ss.map id := textsAmong_map_str id ss
    rw [hall, List.map_id]
  | absent habsent =>
    obtain rfl : ss = [] := by simpa [Json.isTruthy] using habsent
    rfl
  | scalar _ hkind => simp [Json.kind] at hkind

/-- A number that a double holds and that is not below zero is waited for. -/
theorem Waits.held {v : Json} {x : Number} {r : Except Fault Double} (h : Waits v r)
    (hnumber : v.number? = some x) (hsign : x.IsNonneg) (hsize : ¬ x.IsTooLarge) :
    ∃ y, r = .ok y ∧ x.HeldAs y := by
  cases h with
  | @set x' y hnumber' _ _ hvalue =>
    obtain rfl := Option.some.inj (hnumber.symm.trans hnumber')
    exact ⟨y, rfl, hvalue⟩
  | tooLarge hnumber' _ hsize' =>
    obtain rfl := Option.some.inj (hnumber.symm.trans hnumber')
    exact absurd hsize' hsize
  | unset hother _ => exact absurd hsign (hother x hnumber)

theorem Waits.refused {v : Json} {x : Number} {r : Except Fault Double} (h : Waits v r)
    (hnumber : v.number? = some x) (hsign : x.IsNonneg) (hsize : x.IsTooLarge) :
    r = .error .numberTooLarge := by
  cases h with
  | set hnumber' _ hsize' _ =>
    obtain rfl := Option.some.inj (hnumber.symm.trans hnumber')
    exact absurd hsize hsize'
  | tooLarge => rfl
  | unset hother _ => exact absurd hsign (hother x hnumber)

variable {fs : List (String × Json)}

end DesignComponents.Config
