import DesignComponents.Proofs.Document.Warnings
import Mathlib.Data.List.Forall2

/-!
What a schema keeps of the definitions that it is read from: an entry for each definition of a
supported type, in their order. Written and read again it is the same schema.
-/

namespace DesignComponents

/-- Objects with the same values under the same names, in whatever order. -/
def Json.SameFields (v w : Json) : Prop :=
  ∃ fs gs, v = .obj fs ∧ w = .obj gs ∧ ∀ name, fs.lookup name = gs.lookup name

namespace PropertyType

def names : List String := ["BOOLEAN", "TEXT", "INSTANCE_SWAP", "VARIANT"]

theorem name_mem (t : PropertyType) : t.name ∈ names := by
  cases t <;> decide

theorem exists_of_mem_names {s : String} (h : s ∈ names) : ∃ t : PropertyType, s = t.name := by
  simp only [names, List.mem_cons, List.not_mem_nil, or_false] at h
  obtain rfl | rfl | rfl | rfl := h
  · exact ⟨.boolean, rfl⟩
  · exact ⟨.text, rfl⟩
  · exact ⟨.instanceSwap, rfl⟩
  · exact ⟨.variant, rfl⟩

theorem ofJson?_eq_some {v : Json} {t : PropertyType} (h : ofJson? v = some t) :
    v = .str t.name := by
  cases v with
  | str s =>
    simp only [ofJson?, ofName?] at h
    split_ifs at h <;> obtain rfl := Option.some.inj h <;> subst s <;> rfl
  | _ => cases h

end PropertyType

namespace PropertyDefinition

/-- The names of the fields that a definition is written with. -/
def fieldNames : List String := ["type", "defaultValue", "variantOptions"]

/-- A definition without all other fields. -/
def restricted : Json → Json
  | .obj fs => .obj (fs.filter fun f => fieldNames.contains f.1)
  | v => v

def isSupported (v : Json) : Bool :=
  match v.lookup? "type" with
  | some (.str s) => PropertyType.names.contains s
  | _ => false

/-- The options of a definition, which run through whatever is given. -/
inductive Lists : Json → Option (List Json) → Prop
  | absent : Lists .null none
  | given {v : Json} {xs : List Json} (h : v.elements = .ok xs) : Lists v (some xs)

/-- The entry of a schema for a definition under its name. -/
structure Declares (f : String × Json) (p : String × PropertyDefinition) : Prop where
  name : p.1 = f.1
  type : f.2.get "type" = .ok (.str p.2.type.name)
  default : f.2.get "defaultValue" = .ok p.2.default
  options : ∃ given, f.2.get "variantOptions" = .ok given ∧ Lists given p.2.options

/-- A default that is there is not null, and options that are there are a list. -/
structure IsPlain (v : Json) : Prop where
  default : v.lookup? "defaultValue" ≠ some .null
  options : ∀ given, v.lookup? "variantOptions" = some given → ∃ xs, given = .arr xs

theorem Lists.of_null {options : Option (List Json)} (h : Lists .null options) :
    options = none := by
  cases h with
  | absent => rfl
  | given h => cases h

theorem Lists.of_arr {xs : List Json} {options : Option (List Json)} (h : Lists (.arr xs) options) :
    options = some xs := by
  cases h with
  | given h => rw [Except.ok.inj h]

variable {v : Json} {name : String} {r : Option PropertyDefinition}

theorem isSupported_iff :
    isSupported v = true ↔ ∃ t : PropertyType, v.lookup? "type" = some (.str t.name) := by
  unfold isSupported
  constructor
  · intro h
    split at h
    case h_1 s hs =>
      obtain ⟨t, rfl⟩ := PropertyType.exists_of_mem_names (List.contains_iff_mem.1 h)
      exact ⟨t, hs⟩
    case h_2 => cases h
  · rintro ⟨t, ht⟩
    rw [ht]
    exact List.contains_iff_mem.2 t.name_mem

theorem isSupported_eq (v : Json) : isSupported v =
    (PropertyType.ofJson? ((v.lookup? "type").getD .null)).isSome := by
  rw [Bool.eq_iff_iff, isSupported_iff, Option.isSome_iff_exists]
  constructor
  · rintro ⟨t, ht⟩
    exact ⟨t, by simp [ht]⟩
  · rintro ⟨t, ht⟩
    have htype := PropertyType.ofJson?_eq_some ht
    cases hv : v.lookup? "type" with
    | none => simp [hv] at htype
    | some w => exact ⟨t, by simpa [hv] using htype⟩

theorem lists_of_optionsOf {given : Json} {options : Option (List Json)}
    (h : optionsOf given = .ok options) : Lists given options := by
  unfold optionsOf at h
  split at h
  case h_1 =>
    obtain rfl := Except.ok.inj h
    exact .absent
  case h_2 =>
    obtain ⟨xs, hxs, rfl⟩ := map_eq_ok.1 h
    exact .given hxs

/-- A definition that is read is left out or kept, as its type has it. -/
theorem parse_eq_ok (h : (parse name v).result = .ok r) :
    isSupported v = false ∧ r = none ∨
      isSupported v = true ∧ ∃ p, r = some p ∧ Declares (name, v) (name, p) := by
  simp only [parse, Traced.bind_result, Traced.lift_result, bind_eq_ok] at h
  obtain ⟨type, htype, h⟩ := h
  rw [isSupported_eq, Json.get_eq_ok htype]
  cases ht : PropertyType.ofJson? type with
  | none =>
    rw [ht] at h
    exact .inl ⟨rfl, (Except.ok.inj h).symm⟩
  | some t =>
    simp only [ht, Traced.bind_result, Traced.lift_result, bind_eq_ok] at h
    obtain ⟨given, hgiven, options, hoptions, default, hdefault, h⟩ := h
    obtain rfl := Except.ok.inj h
    obtain rfl := PropertyType.ofJson?_eq_some ht
    exact .inr ⟨rfl, _, rfl, rfl, htype, hdefault, given, hgiven, lists_of_optionsOf hoptions⟩

/-! ### Definitions as data -/

variable (d : PropertyDefinition)

theorem lookup_type : d.toJson.lookup? "type" = some (.str d.type.name) := rfl

theorem lookup_default :
    d.toJson.lookup? "defaultValue" = match d.default with | .null => none | v => some v := by
  obtain ⟨type, default, options⟩ := d
  cases default <;> cases options <;> rfl

theorem lookup_options : d.toJson.lookup? "variantOptions" = d.options.map .arr := by
  obtain ⟨type, default, options⟩ := d
  cases default <;> cases options <;> rfl

theorem lookup_other (h : name ∉ fieldNames) : d.toJson.lookup? name = none := by
  simp only [fieldNames, List.mem_cons, List.not_mem_nil, or_false, not_or] at h
  obtain ⟨htype, hdefault, hoptions⟩ := h
  obtain ⟨type, default, options⟩ := d
  cases default <;> cases options <;>
    simp [toJson, List.lookup_cons, beq_false_of_ne htype, beq_false_of_ne hdefault,
      beq_false_of_ne hoptions]

theorem get_toJson (name : String) :
    d.toJson.get name = .ok ((d.toJson.lookup? name).getD .null) := rfl

theorem get_default : d.toJson.get "defaultValue" = .ok d.default := by
  rw [get_toJson, lookup_default]
  cases d.default <;> rfl

theorem optionsOf_toJson :
    optionsOf ((d.toJson.lookup? "variantOptions").getD .null) = .ok d.options := by
  rw [lookup_options]
  cases d.options <;> rfl

theorem parse_toJson (name : String) : parse name d.toJson = pure (some d) := by
  rw [parse, get_toJson, lookup_type, get_toJson _ "variantOptions", get_default]
  simp only [Traced.lift_ok_bind, Option.getD_some, PropertyType.ofJson?_name, optionsOf_toJson]

namespace Declares

variable {f : String × Json} {p : String × PropertyDefinition} (h : Declares f p)
include h

theorem lookup_type : f.2.lookup? "type" = p.2.toJson.lookup? "type" := by
  have htype := Json.get_eq_ok h.type
  rw [PropertyDefinition.lookup_type]
  cases hf : f.2.lookup? "type" with
  | none => simp [hf] at htype
  | some v => simpa [hf] using htype

theorem lookup_default (hplain : IsPlain f.2) :
    f.2.lookup? "defaultValue" = p.2.toJson.lookup? "defaultValue" := by
  have hdefault := Json.get_eq_ok h.default
  rw [PropertyDefinition.lookup_default, ← hdefault]
  cases hf : f.2.lookup? "defaultValue" with
  | none => rfl
  | some v =>
    have hne := hplain.default
    cases v <;> first | rfl | exact absurd hf hne

theorem lookup_options (hplain : IsPlain f.2) :
    f.2.lookup? "variantOptions" = p.2.toJson.lookup? "variantOptions" := by
  obtain ⟨given, hgiven, hlists⟩ := h.options
  obtain rfl := Json.get_eq_ok hgiven
  rw [PropertyDefinition.lookup_options]
  cases hf : f.2.lookup? "variantOptions" with
  | none =>
    rw [hf] at hlists
    rw [hlists.of_null, Option.map_none]
  | some v =>
    obtain ⟨xs, rfl⟩ := hplain.options v hf
    rw [hf] at hlists
    rw [hlists.of_arr, Option.map_some]

/-- What is written of an entry is what its definition holds in the fields that are written. -/
theorem sameFields (hplain : IsPlain f.2) : (restricted f.2).SameFields p.2.toJson := by
  obtain ⟨fs, hfs⟩ : ∃ fs, f.2 = .obj fs := by
    have htype := h.type
    cases hf : f.2 with
    | obj fs => exact ⟨fs, rfl⟩
    | _ => simp [hf, Json.get] at htype
  rw [hfs]
  refine ⟨_, _, rfl, rfl, fun name => ?_⟩
  rw [lookup_filter fieldNames.contains, ← Json.lookup?_obj, ← hfs]
  change _ = p.2.toJson.lookup? name
  by_cases hname : name ∈ fieldNames
  · rw [if_pos (List.contains_iff_mem.2 hname)]
    simp only [fieldNames, List.mem_cons, List.not_mem_nil, or_false] at hname
    obtain rfl | rfl | rfl := hname
    · exact h.lookup_type
    · exact h.lookup_default hplain
    · exact h.lookup_options hplain
  · rw [if_neg (mt List.contains_iff_mem.1 hname), p.2.lookup_other hname]

end Declares

end PropertyDefinition

namespace Schema

open PropertyDefinition

def kept (fs : List (String × Json)) : List (String × Json) := fs.filter fun f => isSupported f.2

def dropped (fs : List (String × Json)) : List (String × Json) :=
  fs.filter fun f => !isSupported f.2

def warning (f : String × Json) : Warning :=
  .unsupportedProperty ((f.2.lookup? "type").getD .null) f.1

variable {fs : List (String × Json)} {s : Schema}

theorem skippedDefinition?_eq (name : String) (v : Json) :
    skippedDefinition? name v = if isSupported v then none else some (warning (name, v)) := by
  rw [skippedDefinition?, isSupported_eq]
  cases PropertyType.ofJson? ((v.lookup? "type").getD .null) <;> rfl

theorem skipped_obj (fs : List (String × Json)) : skipped (.obj fs) = (dropped fs).map warning := by
  rw [skipped, dropped]
  induction fs with
  | nil => rfl
  | cons f fs ih =>
    cases hf : isSupported f.2 <;> simp [skippedDefinition?_eq, hf, ← ih]

theorem kept_cons (f : String × Json) (fs : List (String × Json)) :
    kept (f :: fs) = if isSupported f.2 then f :: kept fs else kept fs := List.filter_cons ..

theorem declares_of_parseFields (h : (parseFields fs).result = .ok s) :
    List.Forall₂ Declares (kept fs) s := by
  induction fs generalizing s with
  | nil =>
    obtain rfl := Except.ok.inj h
    exact .nil
  | cons f fs ih =>
    simp only [parseFields, Traced.bind_result, bind_eq_ok, Traced.pure_result] at h
    obtain ⟨r, hr, ds, hds, h⟩ := h
    obtain rfl := Except.ok.inj h
    rcases parse_eq_ok hr with ⟨hf, rfl⟩ | ⟨hf, p, rfl, hp⟩
    · rw [kept_cons, if_neg (by simp [hf])]
      exact ih hds
    · rw [kept_cons, if_pos hf]
      exact .cons hp (ih hds)

theorem parseFields_toFields (s : Schema) : parseFields s.toFields = pure s := by
  induction s with
  | nil => rfl
  | cons p s ih => simp [parseFields, ih, PropertyDefinition.parse_toJson]

theorem parse_toJson (s : Schema) : parse s.toJson = pure s := parseFields_toFields s

theorem sameFields_of_declares (h : List.Forall₂ Declares fs s) (hplain : ∀ f ∈ fs, IsPlain f.2) :
    List.Forall₂ (fun f g => f.1 = g.1 ∧ (restricted f.2).SameFields g.2) fs s.toFields := by
  rw [toFields, List.forall₂_map_right_iff]
  refine ((List.forall₂_and_left fs s).2 ⟨hplain, h⟩).imp fun f p hp => ?_
  exact ⟨hp.2.name.symm, hp.2.sameFields hp.1⟩

/-- A schema that is read has an entry for each definition of a supported type, in their order, and
each of the others is warned of. Written as data and read again it is the same schema, without a
warning; and where defaults are not null and options are lists, what is written are the supported
definitions without the fields that a schema does not have. -/
theorem parse_keeps (h : (parse (.obj fs)).result = .ok s) :
    List.Forall₂ Declares (kept fs) s ∧
      (parse (.obj fs)).log = (dropped fs).map warning ∧
      (parse s.toJson).result = .ok s ∧ (parse s.toJson).log = [] ∧
      ((∀ f ∈ kept fs, IsPlain f.2) →
        List.Forall₂ (fun f g => f.1 = g.1 ∧ (restricted f.2).SameFields g.2) (kept fs)
          s.toFields) := by
  have hdeclares := declares_of_parseFields (s := s) h
  refine ⟨hdeclares, ?_, ?_, ?_, sameFields_of_declares hdeclares⟩
  · rw [parse_remarks _ _ h, skipped_obj]
  · rw [parse_toJson, Traced.pure_result]
  · rw [parse_toJson, Traced.pure_log]

/-- Of four definitions two are kept: one with fields in another order, one with a field that is not
written. The types of the others are a list and a name of no type. -/
def mixedFields : List (String × Json) :=
  [("Size", .obj [("variantOptions", .arr [.str "S", .str "M"]), ("defaultValue", .str "S"),
      ("type", .str "VARIANT")]),
    ("Slot", .obj [("type", .str "SLOT")]),
    ("Label", .obj [("type", .str "TEXT"), ("preferredValues", .arr [])]),
    ("Kinds", .obj [("type", .arr [.str "TEXT"])])]

def mixedSchema : Schema :=
  [("Size", ⟨.variant, .str "S", some [.str "S", .str "M"]⟩), ("Label", ⟨.text, .null, none⟩)]

theorem kept_mixedFields : ∀ f ∈ kept mixedFields, IsPlain f.2 := by
  have hkept : kept mixedFields = [mixedFields[0], mixedFields[2]] := rfl
  rw [hkept, List.forall_mem_cons, List.forall_mem_singleton]
  exact ⟨⟨by rintro ⟨⟩, by rintro _ ⟨⟩; exact ⟨_, rfl⟩⟩, ⟨by rintro ⟨⟩, by rintro _ ⟨⟩⟩⟩

theorem parse_keeps_mixed :
    (parse (.obj mixedFields)).result = .ok mixedSchema ∧
      (parse (.obj mixedFields)).log =
        [.unsupportedProperty (.str "SLOT") "Slot",
          .unsupportedProperty (.arr [.str "TEXT"]) "Kinds"] ∧
      (parse mixedSchema.toJson).result = .ok mixedSchema ∧
      List.Forall₂ (fun f g => f.1 = g.1 ∧ (restricted f.2).SameFields g.2) (kept mixedFields)
        mixedSchema.toFields := by
  have h : (parse (.obj mixedFields)).result = .ok mixedSchema := rfl
  obtain ⟨-, hlog, hagain, -, hwritten⟩ := parse_keeps h
  exact ⟨h, hlog, hagain, hwritten kept_mixedFields⟩

end Schema

end DesignComponents
