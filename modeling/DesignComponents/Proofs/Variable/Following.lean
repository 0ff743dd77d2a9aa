import DesignComponents.Proofs.Outcome
import DesignComponents.Variable.Resolve
import Mathlib.Data.List.Forall2

/-!
Following aliases through a table of variables: it gives what the alias graph unfolds to, and warns
wherever the way down comes back to itself.
-/

namespace DesignComponents.Variables

/-- The fields of the record with an identifier. An entry that is null holds no record. -/
def record? (vs : OrderedMap Key Json) (id : String) : Option (List (String × Json)) :=
  match OrderedMap.get? (.str id) vs with
  | some (.obj fs) => some fs
  | _ => none

def modesOf (record : List (String × Json)) : List (String × Json) :=
  match record.lookup "valuesByMode" with
  | some (.obj modes) => modes
  | _ => []

def headOf (id : String) (record : List (String × Json)) : VariableHead where
  name := (record.lookup "name").getD (.str id)
  resolvedType := (record.lookup "resolvedType").getD (.str "")
  description := (record.lookup "description").getD .null

/-- What stands for the values by mode is an object or counts as none, and aliases among them name
their targets. -/
def IsReadable (record : List (String × Json)) : Prop :=
  (∃ modes, ((record.lookup "valuesByMode").getD .null).orEmpty = .obj modes) ∧
  ∀ e ∈ modesOf record, ∀ id, alias? e.2 = some id → ∃ target, id = .str target

def IsReadableTable (vs : OrderedMap Key Json) : Prop :=
  ∀ e ∈ vs, e.2 = .null ∨ ∃ record, e.2 = .obj record ∧ IsReadable record

mutual

/-- `Unfolds vs path id r`: below the identifiers of `path`, the graph unfolds from `id` to `r`. -/
inductive Unfolds (vs : OrderedMap Key Json) : List String → String → Option Resolved → Prop
  | absent {id : String} : record? vs id = none → Unfolds vs path id none
  | cycle {id : String} : id ∈ path → Unfolds vs path id none
  | record {id : String} : id ∉ path → record? vs id = some record →
      UnfoldsEach vs (id :: path) (modesOf record) values →
      Unfolds vs path id (some (.variable (headOf id record) values))

inductive UnfoldsEach (vs : OrderedMap Key Json) :
    List String → List (String × Json) → List (String × Resolved) → Prop
  | nil : UnfoldsEach vs path [] []
  | literal : alias? v = none → UnfoldsEach vs path modes values →
      UnfoldsEach vs path ((mode, v) :: modes) ((mode, .literal v) :: values)
  | link : alias? v = some (.str target) → Unfolds vs path target r →
      UnfoldsEach vs path modes values →
      UnfoldsEach vs path ((mode, v) :: modes) ((mode, r.getD .unresolved) :: values)

end

mutual

/-- The identifiers at which the way down from `id` was cut, as it came back to them, in the order
of the modes. -/
def cuts (vs : OrderedMap Key Json) (path : List String) (id : String) : Resolved → List String
  | .variable _ values => cutsEach vs (id :: path) (((record? vs id).map modesOf).getD []) values
  | _ => if id ∈ path then [id] else []

def cutsEach (vs : OrderedMap Key Json) (path : List String) :
    List (String × Json) → List (String × Resolved) → List String
  | (_, v) :: modes, (_, r) :: values =>
    (match alias? v with
      | some (.str target) => cuts vs path target r
      | _ => []) ++ cutsEach vs path modes values
  | _, _ => []

end

/-- The places met on the way are those of the identifiers on the path. -/
def Met (vs : OrderedMap Key Json) (seen : List (Fin vs.length)) (path : List String) : Prop :=
  List.Forall₂ (fun i id => place? vs (.str id) = some i) seen path

theorem get?_eq_place? (vs : OrderedMap Key Json) (k : Key) :
    OrderedMap.get? k vs = (place? vs k).map fun i => (vs.get i).2 := by
  induction vs with
  | nil => rfl
  | cons e vs ih =>
    simp only [place?] at ih
    by_cases h : e.1 == k
    · simp [OrderedMap.get?, place?, List.findFinIdx?_cons, h]
    · simp [OrderedMap.get?, place?, List.findFinIdx?_cons, h, ih, Function.comp_def]

theorem place?_inj {vs : OrderedMap Key Json} {i : Fin vs.length} {s t : String}
    (hs : place? vs (.str s) = some i) (ht : place? vs (.str t) = some i) : s = t := by
  have hs := (List.findFinIdx?_eq_some_iff.1 hs).1
  have ht := (List.findFinIdx?_eq_some_iff.1 ht).1
  rw [Key.beq_str_iff] at hs ht
  simpa using hs.symm.trans ht

theorem Met.mem_iff {vs : OrderedMap Key Json} {seen : List (Fin vs.length)} {path : List String}
    (hm : Met vs seen path) {i : Fin vs.length} {id : String}
    (hi : place? vs (.str id) = some i) : i ∈ seen ↔ id ∈ path := by
  induction hm with
  | nil => simp
  | @cons j s seen path hj hm ih =>
    have h : i = j ↔ id = s := by
      constructor
      · rintro rfl
        exact place?_inj hi hj
      · rintro rfl
        simpa [hi] using hj
    simp [h, ih]

theorem IsReadable.fields {record : List (String × Json)} (h : IsReadable record) :
    ((record.lookup "valuesByMode").getD .null).orEmpty.fields = .ok (modesOf record) := by
  obtain ⟨modes, hmodes⟩ := h.1
  rw [hmodes, modesOf]
  cases hv : record.lookup "valuesByMode" with
  | none => simp_all [Json.orEmpty]
  | some v =>
    rw [hv, Option.getD_some, Json.orEmpty] at hmodes
    split at hmodes
    case isTrue => simp [hmodes]
    case isFalse hfalsy =>
      obtain rfl := Json.obj.inj hmodes
      cases v with
      | obj fs => cases fs <;> simp_all
      | _ => rfl

theorem entry_cases {vs : OrderedMap Key Json} (ht : IsReadableTable vs) (id : String) :
    (place? vs (.str id) = none ∧ record? vs id = none) ∨
    ∃ i, place? vs (.str id) = some i ∧
      (((vs.get i).2 = .null ∧ record? vs id = none) ∨ ∃ record,
        (vs.get i).2 = .obj record ∧ IsReadable record ∧ record? vs id = some record) := by
  cases hp : place? vs (.str id) with
  | none => simp [record?, get?_eq_place?, hp]
  | some i =>
    have hget : OrderedMap.get? (.str id) vs = some (vs.get i).2 := by
      rw [get?_eq_place?, hp, Option.map_some]
    refine .inr ⟨i, rfl, ?_⟩
    rcases ht (vs.get i) (List.get_mem vs i) with h | ⟨record, h, hr⟩
    · exact .inl ⟨h, by rw [record?, hget, h]⟩
    · exact .inr ⟨record, h, hr, by rw [record?, hget, h]⟩

section

variable {vs : OrderedMap Key Json} {seen : List (Fin vs.length)} {id : String}
  {i : Fin vs.length}

theorem follow_of_absent (hp : place? vs (.str id) = none) :
    follow vs seen (.str id) = pure none := by
  rw [follow]
  simp [hp]

theorem follow_of_seen (hp : place? vs (.str id) = some i) (hi : i ∈ seen) :
    follow vs seen (.str id) = ⟨[.aliasCycle (.str id)], .ok none⟩ := by
  rw [follow]
  simp [hp, hi]
  rfl

theorem follow_of_null (hp : place? vs (.str id) = some i) (hi : i ∉ seen)
    (hv : (vs.get i).2 = .null) : follow vs seen (.str id) = pure none := by
  rw [List.get_eq_getElem] at hv
  rw [follow]
  simp [hp, hi, hv]

theorem follow_of_record {record : List (String × Json)} (hp : place? vs (.str id) = some i)
    (hi : i ∉ seen) (hv : (vs.get i).2 = .obj record) (hr : IsReadable record) :
    follow vs seen (.str id) = (fun values => some (.variable (headOf id record) values)) <$>
      followAll vs (i :: seen) (modesOf record) := by
  rw [List.get_eq_getElem] at hv
  rw [follow]
  simp only [Json.key_str, Traced.lift_ok_bind, hp, hi, dite_false, Fin.getElem_fin, hv,
    Json.get_obj, Json.getOr_obj, hr.fields]
  rfl

theorem notMem_of_place?_none {path : List String} (hm : Met vs seen path)
    (hp : place? vs (.str id) = none) : id ∉ path := by
  induction hm with
  | nil => exact List.not_mem_nil
  | cons hj _ ih =>
    rw [List.mem_cons, not_or]
    refine ⟨?_, ih⟩
    rintro rfl
    simp [hp] at hj

end

/-- The warnings about cycles that are met at these identifiers. -/
def cycleWarnings (ids : List String) : List Warning := ids.map fun id => .aliasCycle (.str id)

theorem cuts_getD_none {vs : OrderedMap Key Json} {path : List String} {id : String} :
    cuts vs path id (Option.getD none .unresolved) = if id ∈ path then [id] else [] := rfl

/-- Following aliases gives what the graph unfolds to, and warns where that is cut. The induction
is that of the search: on the places not met yet, and inside one record on its modes. -/
theorem follow_eq {vs : OrderedMap Key Json} (ht : IsReadableTable vs) :
    (∀ seen id, ∀ path target, id = .str target → Met vs seen path →
      ∃ r, Unfolds vs path target r ∧
        follow vs seen id = ⟨cycleWarnings (cuts vs path target (r.getD .unresolved)), .ok r⟩) ∧
    ∀ seen modes, ∀ path,
      (∀ e ∈ modes, ∀ id, alias? e.2 = some id → ∃ target, id = .str target) →
      Met vs seen path →
      ∃ values, UnfoldsEach vs path modes values ∧
        followAll vs seen modes = ⟨cycleWarnings (cutsEach vs path modes values), .ok values⟩ := by
  refine @follow.mutual_induct vs _ _ ?record ?nil ?literal ?link
  case record =>
    rintro seen _ ih path target rfl hm
    rcases entry_cases ht target with ⟨hp, hr⟩ | ⟨i, hp, h⟩
    · refine ⟨none, .absent hr, ?_⟩
      rw [follow_of_absent hp, cuts_getD_none, if_neg (notMem_of_place?_none hm hp)]
      rfl
    · by_cases hi : i ∈ seen
      · have hid := (hm.mem_iff hp).1 hi
        refine ⟨none, .cycle hid, ?_⟩
        rw [follow_of_seen hp hi, cuts_getD_none, if_pos hid]
        rfl
      · have hid : target ∉ path := fun h => hi ((hm.mem_iff hp).2 h)
        rcases h with ⟨hv, hr⟩ | ⟨record, hv, hread, hr⟩
        · refine ⟨none, .absent hr, ?_⟩
          rw [follow_of_null hp hi hv, cuts_getD_none, if_neg hid]
          rfl
        · obtain ⟨values, hvalues, heq⟩ := ih i hi (modesOf record) (target :: path) hread.2
            (.cons hp hm)
          refine ⟨_, .record hid hr hvalues, ?_⟩
          rw [follow_of_record hp hi hv hread, heq, Traced.map_mk, Option.getD_some, cuts, hr]
          rfl
  case nil =>
    intro seen path _ _
    rw [followAll]
    exact ⟨[], .nil, rfl⟩
  case literal =>
    intro seen mode v modes hv ih path ha hm
    obtain ⟨values, hvalues, heq⟩ := ih path (fun e he => ha e (.tail _ he)) hm
    refine ⟨_, .literal hv hvalues, ?_⟩
    rw [followAll, cutsEach]
    simp only [hv, bind_pure_comp, pure_bind, heq, Traced.map_mk, List.nil_append]
  case link =>
    intro seen mode v modes id hv ih ihTarget path ha hm
    obtain ⟨target, rfl⟩ := ha _ (.head _) id hv
    obtain ⟨r, hr, heqTarget⟩ := ihTarget path target rfl hm
    obtain ⟨values, hvalues, heq⟩ := ih path (fun e he => ha e (.tail _ he)) hm
    refine ⟨_, .link hv hr hvalues, ?_⟩
    rw [followAll, cutsEach]
    simp only [hv, bind_pure_comp, heqTarget, heq, Traced.map_mk, Traced.mk_bind, pure_bind,
      cycleWarnings, List.map_append]

end DesignComponents.Variables
