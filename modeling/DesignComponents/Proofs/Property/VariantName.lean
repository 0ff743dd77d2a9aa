import DesignComponents.Property.VariantName
import DesignComponents.Proofs.OrderedMap
import DesignComponents.Proofs.Text.Strip

/-!
Values of properties and the names that hold them: a name gives a map of its own kind, and maps of
that kind are what names hold.
-/

namespace DesignComponents.VariantName

open OrderedMap (keys)

/-- A property and its value as a part of a name can hold them. -/
structure IsPair (key value : List Char) : Prop where
  named : key ≠ []
  key_stripped : IsStripped key
  value_stripped : IsStripped value
  comma_notMem_key : ',' ∉ key
  equals_notMem_key : '=' ∉ key
  comma_notMem_value : ',' ∉ value

/-- Each property comes once. -/
structure IsVariant (m : OrderedMap String String) : Prop where
  distinct : (keys m).Nodup
  pairs : ∀ e ∈ m, IsPair e.1.toList e.2.toList

def encodePair (e : String × String) : String := e.1 ++ "=" ++ e.2

def encode (m : OrderedMap String String) : String := ", ".intercalate (m.map encodePair)

variable {part : List Char} {e : String × String} {es : List (String × String)}

theorem parsePart_isPair (hpart : ',' ∉ part) (h : parsePart part = some e) :
    IsPair e.1.toList e.2.toList := by
  unfold parsePart at h
  split at h
  case h_1 => cases h
  case h_2 k v hsplit =>
    obtain ⟨rfl, hequals⟩ := splitAtFirst?_eq_some hsplit
    simp only [List.mem_append, List.mem_cons, not_or] at hpart
    obtain ⟨hkey, -, hvalue⟩ := hpart
    split at h
    case isTrue => cases h
    case isFalse hnamed =>
      obtain rfl := Option.some.inj h
      simp only [String.toList_ofList]
      exact {
        named := by simpa using hnamed
        key_stripped := isStripped_stripChars k
        value_stripped := isStripped_stripChars v
        comma_notMem_key := notMem_stripChars hkey
        equals_notMem_key := notMem_stripChars hequals
        comma_notMem_value := notMem_stripChars hvalue }

/-- What names give is of the kind that names hold. -/
theorem parse_isVariant (name : String) : IsVariant (parse name) where
  distinct := OrderedMap.nodup_ofList _
  pairs := by
    rw [parse]
    have hentries : ∀ e ∈ (name.toList.splitOn ',').filterMap parsePart,
        IsPair e.1.toList e.2.toList := by
      intro e he
      obtain ⟨part, hpart, he⟩ := List.mem_filterMap.1 he
      exact parsePart_isPair (notMem_of_mem_splitOn hpart) he
    generalize (name.toList.splitOn ',').filterMap parsePart = es at hentries
    induction es using List.reverseRecOn with
    | nil => exact List.forall_mem_nil _
    | append_singleton es e ih =>
      obtain ⟨hes, he⟩ := List.forall_mem_append.1 hentries
      have he := he e (.head _)
      rw [OrderedMap.ofList_concat]
      refine OrderedMap.forall_mem_put (P := fun k v : String => IsPair k.toList v.toList) (ih hes) he ?_
      intro k hk
      obtain rfl := eq_of_beq hk
      exact he

theorem encodePair_toList (e : String × String) :
    (encodePair e).toList = e.1.toList ++ '=' :: e.2.toList := by
  simp [encodePair]

namespace IsPair

variable (h : IsPair e.1.toList e.2.toList)
include h

theorem comma_notMem : ',' ∉ (encodePair e).toList := by
  simp [encodePair_toList, h.comma_notMem_key, h.comma_notMem_value]

/-- A part may have blanks in front. -/
theorem parsePart_encodePair {blanks : List Char} (hblanks : ∀ c ∈ blanks, isBlank c = true) :
    parsePart (blanks ++ (encodePair e).toList) = some e := by
  have hequals : '=' ∉ blanks ++ e.1.toList := by
    have hno : '=' ∉ blanks := fun hmem => absurd (hblanks _ hmem) (by decide)
    simp [hno, h.equals_notMem_key]
  have hkey : stripChars (blanks ++ e.1.toList) = e.1.toList := by
    rw [stripChars_append hblanks, h.key_stripped.stripChars_eq_self]
  have hnamed : e.1.toList.isEmpty = false := by simpa using h.named
  rw [encodePair_toList, ← List.append_assoc, parsePart, splitAtFirst?_append hequals]
  simp [hkey, h.value_stripped.stripChars_eq_self, hnamed]

end IsPair

/-- The parts of an encoded map, one for each pair, give the pairs again. -/
theorem filterMap_splitOn_encode (h : ∀ e ∈ es, IsPair e.1.toList e.2.toList) (hne : es ≠ [])
    {blanks : List Char} (hblanks : ∀ c ∈ blanks, isBlank c = true) :
    ((blanks ++ (encode es).toList).splitOn ',').filterMap parsePart = es := by
  induction es generalizing blanks with
  | nil => exact absurd rfl hne
  | cons e es ih =>
    rw [List.forall_mem_cons] at h
    have hcomma : ',' ∉ blanks ++ (encodePair e).toList := by
      have hno : ',' ∉ blanks := fun hmem => absurd (hblanks _ hmem) (by decide)
      simp [hno, h.1.comma_notMem]
    by_cases hes : es = []
    · have hone : encode [e] = encodePair e := String.intercalate_singleton
      rw [hes, hone, List.splitOn_eq_singleton hcomma, List.filterMap_cons,
        h.1.parsePart_encodePair hblanks]
      rfl
    · have hmore : (encode (e :: es)).toList =
          (encodePair e).toList ++ ',' :: ([' '] ++ (encode es).toList) := by
        rw [encode, List.map_cons, String.intercalate_cons_of_ne_nil (by simpa using hes)]
        simp [encode]
      rw [hmore, ← List.append_assoc, List.splitOn_append_cons_self_of_not_mem hcomma,
        List.filterMap_cons, h.1.parsePart_encodePair hblanks,
        ih h.2 hes (List.forall_mem_singleton.2 (by decide))]

theorem parse_encode {m : OrderedMap String String} (h : IsVariant m) : parse (encode m) = m := by
  by_cases hm : m = []
  · rw [hm]
    rfl
  · have hparts := filterMap_splitOn_encode h.pairs hm (List.forall_mem_nil (isBlank · = true))
    rw [parse, ← List.nil_append (encode m).toList, hparts, OrderedMap.ofList_of_nodup h.distinct]

/-- Names and the maps that they hold: reading and writing are inverse on those maps. -/
theorem parse_variants :
    (∀ name, IsVariant (parse name) ∧ parse (encode (parse name)) = parse name) ∧
      ∀ m, IsVariant m → parse (encode m) = m :=
  ⟨fun name => ⟨parse_isVariant name, parse_encode (parse_isVariant name)⟩, fun _ => parse_encode⟩

/-- A value may hold equals signs or be empty. -/
def sized : OrderedMap String String := [("Size", "a=b"), ("On hover", "")]

theorem sized_isVariant : IsVariant sized where
  distinct := by decide
  pairs := by
    rw [sized, List.forall_mem_cons, List.forall_mem_singleton]
    constructor <;> exact ⟨by decide, by decide, by decide, by decide, by decide, by decide⟩

theorem parse_variants_sized : IsVariant sized ∧ parse (encode sized) = sized :=
  ⟨sized_isVariant, parse_variants.2 sized sized_isVariant⟩

end DesignComponents.VariantName
