import DesignComponents.Proofs.Outcome
import Mathlib.Data.List.Basic

/-!
Shapes of data: a text, a finite number, a list of one shape, a record whose fields are absent or
have shapes of their own. What has a shape has the parts that the shape speaks of.
-/

namespace DesignComponents

namespace Number

/-- Neither infinite nor too large for a double. -/
def isFinite : Number → Bool
  | .int n => (Double.ofInt? n).isSome
  | .double (.finite ..) => true
  | .double _ => false

def isUnit (x : Number) : Bool :=
  match x.compareInt? 0, x.compareInt? 1 with
  | some a, some b => a != .lt && b != .gt
  | _, _ => false

end Number

theorem Json.get_eq_ok {v x : Json} {name : String} (h : v.get name = .ok x) :
    (v.lookup? name).getD .null = x := by
  cases v <;> simp_all [Json.get]

theorem Json.getOr_eq_ok {v x other : Json} {name : String} (h : v.getOr name other = .ok x) :
    (v.lookup? name).getD other = x := by
  cases v <;> simp_all [Json.getOr]

theorem lookup_filter {α : Type} (keep : String → Bool) (name : String)
    (fs : List (String × α)) :
    (fs.filter fun f => keep f.1).lookup name = if keep name then fs.lookup name else none := by
  induction fs with
  | nil => simp
  | cons f fs ih =>
    obtain ⟨k, v⟩ := f
    by_cases hname : name = k
    · subst hname
      cases hkeep : keep name <;> simp [hkeep, ih]
    · have hne : (name == k) = false := beq_false_of_ne hname
      cases hkeep : keep k <;> simp [hkeep, List.lookup_cons, hne, ih]

abbrev Shape := Json → Bool

namespace Shape

def any : Shape := fun _ => true

def text : Shape := Json.isString

def flag : Shape
  | .bool _ => true
  | _ => false

def number : Shape
  | .num n => n.isFinite
  | _ => false

/-- A channel of a colour, or its opacity. -/
def unit : Shape
  | .num n => n.isUnit
  | _ => false

def orNull (s : Shape) : Shape
  | .null => true
  | v => s v

def listOf (s : Shape) : Shape
  | .arr xs => xs.all s
  | _ => false

/-- An object with values of one shape under names of any kind, each of them once. -/
def tableOf (s : Shape) : Shape
  | .obj fs => fs.all (fun f => s f.2) && decide (fs.map Prod.fst).Nodup
  | _ => false

/-- An object in which each of the fields is absent or has its shape. -/
def record (fields : List (String × Shape)) : Shape
  | .obj fs => fields.all fun f =>
    match fs.lookup f.1 with
    | some v => f.2 v
    | none => true
  | _ => false

def has (name : String) (s : Shape) : Shape
  | .obj fs =>
    match fs.lookup name with
    | some v => s v
    | none => false
  | _ => false

variable {s : Shape} {v : Json} {fields : List (String × Shape)}

theorem exists_of_text (h : text v = true) : ∃ t, v = .str t := by
  cases v with
  | str t => exact ⟨t, rfl⟩
  | _ => simp [text, Json.isString] at h

theorem exists_of_number (h : number v = true) : ∃ n, v = .num n ∧ n.isFinite = true := by
  cases v with
  | num n => exact ⟨n, rfl, h⟩
  | _ => simp [number] at h

theorem exists_of_unit (h : unit v = true) : ∃ n, v = .num n ∧ n.isUnit = true := by
  cases v with
  | num n => exact ⟨n, rfl, h⟩
  | _ => simp [unit] at h

theorem orNull_iff : orNull s v = true ↔ v = .null ∨ s v = true := by
  cases v <;> simp [orNull]

theorem exists_of_listOf (h : listOf s v = true) : ∃ xs, v = .arr xs ∧ ∀ x ∈ xs, s x = true := by
  cases v with
  | arr xs => exact ⟨xs, rfl, List.all_eq_true.1 h⟩
  | _ => simp [listOf] at h

theorem exists_of_tableOf (h : tableOf s v = true) :
    ∃ fs, v = .obj fs ∧ ∀ f ∈ fs, s f.2 = true := by
  cases v with
  | obj fs => exact ⟨fs, rfl, List.all_eq_true.1 (Bool.and_eq_true_iff.1 h).1⟩
  | _ => simp [tableOf] at h

theorem nodup_of_tableOf {fs : List (String × Json)} (h : tableOf s (.obj fs) = true) :
    (fs.map Prod.fst).Nodup := of_decide_eq_true (Bool.and_eq_true_iff.1 h).2

theorem exists_of_record (h : record fields v = true) :
    ∃ fs, v = .obj fs ∧ ∀ name s x, fields.lookup name = some s → fs.lookup name = some x →
      s x = true := by
  cases v with
  | obj fs =>
    refine ⟨fs, rfl, ?_⟩
    intro name s x hs hx
    obtain ⟨l, l', hl, -⟩ := List.lookup_eq_some_iff.1 hs
    have := List.all_eq_true.1 h (name, s) (by simp [hl])
    simpa [hx] using this
  | _ => simp [record] at h

theorem record_get (name : String) (h : record fields v = true)
    (hs : fields.lookup name = some s) :
    Yields (v.get name) fun x => x = .null ∨ s x = true := by
  obtain ⟨fs, rfl, hfs⟩ := exists_of_record h
  cases hx : fs.lookup name with
  | none => simp [hx]
  | some x => simpa [hx] using Or.inr (hfs name s x hs hx)

theorem record_getOr (name : String) {other : Json} (h : record fields v = true)
    (hs : fields.lookup name = some s) (hother : s other = true) :
    Yields (v.getOr name other) fun x => s x = true := by
  obtain ⟨fs, rfl, hfs⟩ := exists_of_record h
  cases hx : fs.lookup name with
  | none => simpa [hx] using hother
  | some x => simpa [hx] using hfs name s x hs hx

theorem has_field {name : String} (h : has name s v = true) :
    Yields (v.field name) fun x => s x = true := by
  cases v with
  | obj fs =>
    cases hx : fs.lookup name with
    | none => simp [has, hx] at h
    | some x => simpa [has, Json.field, hx] using h
  | _ => simp [has] at h

theorem elementsOrNone_listOf (h : v = .null ∨ listOf s v = true) :
    Yields v.elementsOrNone fun xs => ∀ x ∈ xs, s x = true := by
  rcases h with rfl | h
  · simp
  · obtain ⟨xs, rfl, hxs⟩ := exists_of_listOf h
    simpa using hxs

/-- An absent record counts as one without fields. -/
theorem orEmpty_record (h : v = .null ∨ record fields v = true) :
    record fields v.orEmpty = true := by
  rcases h with rfl | h
  · simp [Json.orEmpty, record]
  · obtain ⟨fs, rfl, -⟩ := exists_of_record h
    cases fs <;> simpa [Json.orEmpty] using h

end Shape

end DesignComponents
