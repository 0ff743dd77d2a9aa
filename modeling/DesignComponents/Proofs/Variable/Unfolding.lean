import DesignComponents.Proofs.Variable.Following
import Mathlib.Data.List.Nodup

/-!
The alias graph of a table of variables, unfolded from a variable. An alias is cut where its target
has no record or is met already on the way down; nothing else is cut, so a variable that two
aliases share is unfolded under each of them.
-/

namespace DesignComponents.Resolved

mutual

def depth : Resolved → Nat
  | .literal _ | .unresolved => 0
  | .variable _ values => depthEach values + 1

def depthEach : List (String × Resolved) → Nat
  | [] => 0
  | (_, r) :: values => max (depth r) (depthEach values)

end

end DesignComponents.Resolved

namespace DesignComponents.Variables

def recordCount (vs : OrderedMap Key Json) : Nat :=
  vs.countP fun e => e.2.kind = .obj

/-- `Passes vs id r ids`: a way down the result `r` for `id` passes the variables `ids`. -/
inductive Passes (vs : OrderedMap Key Json) : String → Resolved → List String → Prop
  | last {id : String} : Passes vs id (.variable head values) [id]
  | next {id : String} : record? vs id = some record →
      ((mode, v), (mode, r)) ∈ (modesOf record).zip values → alias? v = some (.str target) →
      Passes vs target r ids → Passes vs id (.variable head values) (id :: ids)

/-- A path passes no identifier twice, and none without a record. -/
structure IsTrail (vs : OrderedMap Key Json) (path : List String) : Prop where
  nodup : path.Nodup
  recorded : ∀ id ∈ path, record? vs id ≠ none

/-- Following the aliases gives what the graph unfolds to. -/
theorem follow_unfolds {vs : OrderedMap Key Json} (ht : IsReadableTable vs) :
    (∀ seen id, ∀ path target, id = .str target → Met vs seen path →
      Yields (follow vs seen id).result (Unfolds vs path target)) ∧
    ∀ seen modes, ∀ path,
      (∀ e ∈ modes, ∀ id, alias? e.2 = some id → ∃ target, id = .str target) → Met vs seen path →
      Yields (followAll vs seen modes).result (UnfoldsEach vs path modes) := by
  obtain ⟨hfollow, heach⟩ := follow_eq ht
  constructor
  · intro seen id path target hid hm
    obtain ⟨r, hr, heq⟩ := hfollow seen id path target hid hm
    exact ⟨r, by rw [heq], hr⟩
  · intro seen modes path ha hm
    obtain ⟨values, hvalues, heq⟩ := heach seen modes path ha hm
    exact ⟨values, by rw [heq], hvalues⟩

mutual

theorem Unfolds.unique {vs : OrderedMap Key Json} {path : List String} {id : String}
    {r r' : Option Resolved} : Unfolds vs path id r → Unfolds vs path id r' → r = r'
  | .absent h, .absent _ => rfl
  | .absent h, .cycle _ => rfl
  | .absent h, .record _ h' _ => by simp [h] at h'
  | .cycle h, .absent _ => rfl
  | .cycle h, .cycle _ => rfl
  | .cycle h, .record h' _ _ => absurd h h'
  | .record _ h _, .absent h' => by simp [h] at h'
  | .record h _ _, .cycle h' => absurd h' h
  | .record _ h hv, .record _ h' hv' => by
    obtain rfl : _ = _ := Option.some.inj (h.symm.trans h')
    rw [hv.unique hv']

theorem UnfoldsEach.unique {vs : OrderedMap Key Json} {path : List String}
    {modes : List (String × Json)} {values values' : List (String × Resolved)} :
    UnfoldsEach vs path modes values → UnfoldsEach vs path modes values' → values = values'
  | .nil, .nil => rfl
  | .literal _ hv, .literal _ hv' => by rw [hv.unique hv']
  | .literal h _, .link h' _ _ => by simp [h] at h'
  | .link h _ _, .literal h' _ => by simp [h] at h'
  | .link h hr hv, .link h' hr' hv' => by
    obtain rfl : _ = _ := Json.str.inj (Option.some.inj (h.symm.trans h'))
    rw [hr.unique hr', hv.unique hv']

end

theorem unfolds_none_iff {vs : OrderedMap Key Json} {path : List String} {id : String} :
    Unfolds vs path id none ↔ record? vs id = none ∨ id ∈ path := by
  constructor
  · rintro (h | h)
    · exact .inl h
    · exact .inr h
  · rintro (h | h)
    · exact .absent h
    · exact .cycle h

theorem IsTrail.cons {vs : OrderedMap Key Json} {path : List String} {id : String}
    {record : List (String × Json)} (h : IsTrail vs path) (hid : id ∉ path)
    (hr : record? vs id = some record) : IsTrail vs (id :: path) where
  nodup := List.nodup_cons.2 ⟨hid, h.nodup⟩
  recorded := by
    rintro s (_ | ⟨_, hs⟩)
    · simp [hr]
    · exact h.recorded s hs

theorem mem_of_get?_str {vs : OrderedMap Key Json} {id : String} {v : Json}
    (h : OrderedMap.get? (.str id) vs = some v) : (.str id, v) ∈ vs := by
  induction vs with
  | nil => simp at h
  | cons e vs ih =>
    by_cases he : e.1 == .str id
    · simp only [OrderedMap.get?, he, if_true, Option.some.injEq] at h
      rw [← Key.beq_str_iff.1 he, ← h]
      exact .head _
    · simp only [OrderedMap.get?, he, Bool.false_eq_true, if_false] at h
      exact .tail _ (ih h)

/-- Distinct identifiers with records belong to distinct entries of the table. -/
theorem IsTrail.length_le {vs : OrderedMap Key Json} {path : List String} (h : IsTrail vs path) :
    path.length ≤ recordCount vs := by
  have hsub : path.map Key.str ⊆
      (vs.filter fun e => e.2.kind = .obj).map Prod.fst := by
    intro k hk
    obtain ⟨id, hid, rfl⟩ := List.mem_map.1 hk
    obtain ⟨record, hr⟩ := Option.ne_none_iff_exists'.1 (h.recorded id hid)
    simp only [record?] at hr
    split at hr
    case h_1 hget => exact List.mem_map.2 ⟨_, List.mem_filter.2 ⟨mem_of_get?_str hget, rfl⟩, rfl⟩
    case h_2 => simp at hr
  have hnodup : (path.map Key.str).Nodup := h.nodup.map fun _ _ => Key.str.inj
  calc
    path.length = (path.map Key.str).length := (List.length_map ..).symm
    _ ≤ _ := List.Nodup.length_le_of_subset hnodup hsub
    _ = recordCount vs := by rw [List.length_map, recordCount, List.countP_eq_length_filter]

mutual

/-- The deeper a variable lies, the fewer records are left for what lies inside it. -/
theorem Unfolds.depth_add_le {vs : OrderedMap Key Json} {path : List String} {id : String}
    {r : Option Resolved} (hp : IsTrail vs path) :
    Unfolds vs path id r → (r.getD .unresolved).depth + path.length ≤ recordCount vs
  | .absent _ => by simpa [Resolved.depth] using hp.length_le
  | .cycle _ => by simpa [Resolved.depth] using hp.length_le
  | .record hid hr hv => by
    have := hv.depth_add_le (hp.cons hid hr)
    simp only [Option.getD_some, Resolved.depth, List.length_cons] at this ⊢
    omega

theorem UnfoldsEach.depth_add_le {vs : OrderedMap Key Json} {path : List String}
    {modes : List (String × Json)} {values : List (String × Resolved)} (hp : IsTrail vs path) :
    UnfoldsEach vs path modes values → Resolved.depthEach values + path.length ≤ recordCount vs
  | .nil => by simpa [Resolved.depthEach] using hp.length_le
  | .literal _ hv => by
    have := hv.depth_add_le hp
    simpa [Resolved.depthEach, Resolved.depth] using this
  | .link _ hr hv => by
    have := hr.depth_add_le hp
    have := hv.depth_add_le hp
    simp only [Resolved.depthEach]
    omega

end

theorem UnfoldsEach.of_mem_zip {vs : OrderedMap Key Json} {path : List String}
    {modes : List (String × Json)} {values : List (String × Resolved)} {mode target : String}
    {v : Json} {r : Resolved} (h : UnfoldsEach vs path modes values)
    (hmem : ((mode, v), (mode, r)) ∈ modes.zip values) (hv : alias? v = some (.str target)) :
    ∃ r', Unfolds vs path target r' ∧ r = r'.getD .unresolved := by
  induction modes generalizing values with
  | nil => simp at hmem
  | cons e modes ih =>
    cases h with
    | literal hv' hvalues =>
      rcases List.mem_cons.1 hmem with hmem | hmem
      · obtain ⟨⟨rfl, rfl⟩, -, rfl⟩ := by simpa using hmem
        simp [hv] at hv'
      · exact ih hvalues hmem
    | link hv' hr hvalues =>
      rcases List.mem_cons.1 hmem with hmem | hmem
      · obtain ⟨⟨rfl, rfl⟩, -, rfl⟩ := by simpa using hmem
        obtain rfl : _ = _ := Json.str.inj (Option.some.inj (hv'.symm.trans hv))
        exact ⟨_, hr, rfl⟩
      · exact ih hvalues hmem

/-- What a way down passes is new to the path above it. -/
theorem Passes.nodup_append {vs : OrderedMap Key Json} {path ids : List String} {id : String}
    {r : Resolved} (h : Passes vs id r ids) (hr : Unfolds vs path id (some r))
    (hp : path.Nodup) : (ids.reverse ++ path).Nodup := by
  induction h generalizing path with
  | last =>
    cases hr with
    | record hid _ _ => exact List.nodup_cons.2 ⟨hid, hp⟩
  | @next record mode v r target ids head values id hrec hmem hv hpass ih =>
    cases hr with
    | record hid hrec' hvalues =>
      obtain rfl : _ = _ := Option.some.inj (hrec.symm.trans hrec')
      obtain ⟨r', hr', rfl⟩ := hvalues.of_mem_zip hmem hv
      cases r' with
      | none => cases hpass
      | some r' => simpa using ih hr' (List.nodup_cons.2 ⟨hid, hp⟩)

/-- A variable resolves to what the alias graph unfolds to from it: to nothing only if it has no
record. No way down meets a variable twice, so there are no more levels than records. -/
theorem resolve_unfolds (vs : Variables) (ht : IsReadableTable vs.table) (id : String) :
    ∃ r, (vs.resolve (.str id)).result = .ok r ∧
      (∀ r', Unfolds vs.table [] id r' ↔ r' = r) ∧
      (r = none ↔ record? vs.table id = none) ∧
      ∀ v, r = some v →
        (∀ ids, Passes vs.table id v ids → ids.Nodup) ∧ v.depth ≤ recordCount vs.table := by
  obtain ⟨r, hres, hr⟩ := (follow_unfolds ht).1 [] (.str id) [] id rfl .nil
  refine ⟨r, hres, ?_, ?_, ?_⟩
  · intro r'
    exact ⟨fun h => h.unique hr, fun h => h ▸ hr⟩
  · constructor
    · rintro rfl
      simpa using unfolds_none_iff.1 hr
    · intro h
      exact hr.unique (.absent h)
  · rintro v rfl
    constructor
    · intro ids hids
      simpa using hids.nodup_append hr List.nodup_nil
    · simpa using hr.depth_add_le ⟨List.nodup_nil, by simp⟩

def linkTo (id : String) : Json := .obj [("type", .str "VARIABLE_ALIAS"), ("id", .str id)]

@[simp] theorem alias?_str (s : String) : alias? (.str s) = none := rfl

@[simp] theorem alias?_linkTo (id : String) : alias? (linkTo id) = some (.str id) := rfl

/-- Two variables that lead to each other; the first one leads to the second in both modes. -/
def mutualTable : OrderedMap Key Json :=
  [(.str "ink", .obj [("valuesByMode", .obj [("light", linkTo "line"), ("dark", linkTo "line")])]),
   (.str "line", .obj [("valuesByMode", .obj [("light", linkTo "ink"), ("dark", .str "#000")])])]

/-- The second variable is unfolded in both modes, and the way back to the first one is cut. -/
theorem resolve_unfolds_mutual :
    IsReadableTable mutualTable ∧
      let line := Resolved.variable (headOf "line" [])
        [("light", .unresolved), ("dark", .literal (.str "#000"))]
      ((Variables.mk mutualTable []).resolve (.str "ink")).result =
        .ok (some (.variable (headOf "ink" []) [("light", line), ("dark", line)])) := by
  have ht : IsReadableTable mutualTable := by
    simp [-Prod.forall, IsReadableTable, IsReadable, modesOf, mutualTable, Json.orEmpty]
  refine ⟨ht, ?_⟩
  obtain ⟨r, hres, hr, -, -⟩ := resolve_unfolds ⟨mutualTable, []⟩ ht "ink"
  have hink : record? mutualTable "ink" =
      some [("valuesByMode", .obj [("light", linkTo "line"), ("dark", linkTo "line")])] := rfl
  have hline : record? mutualTable "line" =
      some [("valuesByMode", .obj [("light", linkTo "ink"), ("dark", .str "#000")])] := rfl
  have hcut : Unfolds mutualTable ["line", "ink"] "ink" none := .cycle (by simp)
  have hbelow : Unfolds mutualTable ["ink"] "line" _ :=
    .record (by simp) hline (.link rfl hcut (.literal rfl .nil))
  have habove : Unfolds mutualTable [] "ink" _ :=
    .record (by simp) hink (.link rfl hbelow (.link rfl hbelow .nil))
  rw [hres, ← (hr _).1 habove]
  rfl

end DesignComponents.Variables
