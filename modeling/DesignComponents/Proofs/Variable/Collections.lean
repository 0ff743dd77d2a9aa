import DesignComponents.Proofs.Document.Typed
import DesignComponents.Proofs.Variable.Unfolding

/-!
Variables with fields of their types are resolved, one by one and collection by collection.
-/

namespace DesignComponents.Variables

open Shape

/-- The tables have records of the shapes of variables and of collections under names. -/
structure IsTyped (vs : Variables) : Prop where
  table : ∃ fs, vs.table = fs.map (fun f => (Key.str f.1, f.2)) ∧ tableOf variable_ (.obj fs) = true
  collections : ∃ fs, vs.collections = fs.map (fun f => (Key.str f.1, f.2)) ∧
    tableOf collection (.obj fs) = true

theorem exists_of_alias {v id : Json} (h : variableValue v = true) (hid : alias? v = some id) :
    ∃ s, id = .str s := by
  cases v with
  | obj fs =>
    have hrecord : record [("type", text), ("id", text)] (.obj fs) = true := h
    obtain ⟨_, hobj, hfs⟩ := exists_of_record hrecord
    obtain rfl := Json.obj.inj hobj
    rw [alias?] at hid
    split at hid
    case h_1 _ _ hlookup =>
      obtain rfl := Option.some.inj hid
      exact exists_of_text (hfs "id" text _ rfl hlookup)
    case h_2 => cases hid
  | _ => cases hid

theorem isReadable_of_shape {fs : List (String × Json)} (h : variable_ (.obj fs) = true) :
    IsReadable fs := by
  have hmodes : ∀ x, fs.lookup "valuesByMode" = some x → tableOf variableValue x = true := by
    obtain ⟨_, hobj, hfs⟩ := exists_of_record h
    obtain rfl := Json.obj.inj hobj
    exact fun x => hfs "valuesByMode" _ x rfl
  cases hlookup : fs.lookup "valuesByMode" with
  | none => simp [IsReadable, modesOf, hlookup, Json.orEmpty]
  | some x =>
    have hshape := hmodes x hlookup
    obtain ⟨given, hgiven, -⟩ := exists_of_tableOf (orEmpty_tableOf (.inr hshape))
    obtain ⟨modes, rfl, hvalues⟩ := exists_of_tableOf hshape
    refine ⟨⟨given, by rw [hlookup, Option.getD_some, hgiven]⟩, fun e he id hid => ?_⟩
    have he : e ∈ modes := by simpa [modesOf, hlookup] using he
    exact exists_of_alias (hvalues e he) hid

variable {vs : Variables}

theorem IsTyped.isReadable (h : vs.IsTyped) : IsReadableTable vs.table := by
  obtain ⟨fs, hfs, hshape⟩ := h.table
  rw [hfs]
  intro e he
  obtain ⟨f, hf, rfl⟩ := List.mem_map.1 he
  obtain ⟨_, hobj, hrecords⟩ := exists_of_tableOf hshape
  obtain rfl := Json.obj.inj hobj
  obtain ⟨record, hrecord, -⟩ := exists_of_record (hrecords f hf)
  have hv := hrecords f hf
  rw [hrecord] at hv
  exact .inr ⟨record, hrecord, isReadable_of_shape hv⟩

theorem IsTyped.collection (h : vs.IsTyped) {id : String} {raw : Json}
    (hget : OrderedMap.get? (.str id) vs.collections = some raw) : collection raw = true := by
  obtain ⟨fs, hfs, hshape⟩ := h.collections
  obtain ⟨_, hobj, hcollections⟩ := exists_of_tableOf hshape
  obtain rfl := Json.obj.inj hobj
  obtain ⟨k, -, hmem⟩ := OrderedMap.exists_mem_of_get? hget
  rw [hfs] at hmem
  obtain ⟨f, hf, heq⟩ := List.mem_map.1 hmem
  obtain ⟨-, rfl⟩ := Prod.mk.inj heq
  exact hcollections f hf

theorem resolveEach_yields (ht : IsReadableTable vs.table) {ids : List Json}
    (h : ∀ id ∈ ids, text id = true) : Yields (vs.resolveEach ids).result fun _ => True := by
  induction ids with
  | nil => simp [resolveEach]
  | cons id ids ih =>
    obtain ⟨s, rfl⟩ := exists_of_text (h _ (.head _))
    simp only [resolveEach, Traced.bind_result]
    apply ((follow_unfolds ht).1 [] (.str s) [] s rfl .nil).bind
    intro r _
    apply (ih fun id hid => h id (.tail _ hid)).bind
    intro rs _
    simp

theorem modeNames_yields {modes : List Json} (h : ∀ m ∈ modes, mode m = true)
    (names : OrderedMap Key Json) : Yields (modeNames names modes) fun _ => True := by
  induction modes generalizing names with
  | nil => simp [modeNames]
  | cons m modes ih =>
    obtain ⟨hid, hrecord⟩ := Bool.and_eq_true_iff.1 (h m (.head _))
    rw [modeNames]
    apply (has_field hid).bind
    intro id hid
    obtain ⟨s, rfl⟩ := exists_of_text hid
    apply (record_getOr "name" hrecord rfl rfl).bind
    intro name _
    exact ih (fun m hm => h m (.tail _ hm)) _

theorem resolveCollection_yields (h : vs.IsTyped) (id : String) :
    Yields (vs.resolveCollection (.str id)).result fun _ => True := by
  simp only [resolveCollection, Traced.bind_result, Traced.lift_result, Json.key_str, ok_bind]
  cases hget : OrderedMap.get? (.str id) vs.collections with
  | none => simp
  | some raw =>
    have hraw := h.collection hget
    obtain ⟨fs, rfl, -⟩ := exists_of_record hraw
    simp only [Traced.bind_result, Traced.lift_result]
    apply (record_get "variableIds" hraw rfl).bind
    intro ids hids
    apply (elementsOrNone_listOf hids).bind
    intro ids hids
    apply (resolveEach_yields h.isReadable hids).bind
    intro members _
    apply (record_getOr "name" hraw rfl rfl).bind
    intro name _
    apply (record_get "modes" hraw rfl).bind
    intro modes hmodes
    apply (elementsOrNone_listOf hmodes).bind
    intro modes hmodes
    apply (modeNames_yields hmodes []).bind
    intro names _
    simp

theorem resolveCollections_yields (h : vs.IsTyped) {ids : List Key}
    (hids : ∀ id ∈ ids, ∃ s, id = .str s) :
    Yields (vs.resolveCollections ids).result fun _ => True := by
  induction ids with
  | nil => simp [resolveCollections]
  | cons id ids ih =>
    obtain ⟨s, rfl⟩ := hids id (.head _)
    simp only [resolveCollections, Traced.bind_result]
    apply (resolveCollection_yields h s).bind
    intro c _
    apply (ih fun id hid => hids id (.tail _ hid)).bind
    intro cs _
    simp

theorem resolveAll_yields (h : vs.IsTyped) : Yields vs.resolveAll.result fun _ => True := by
  apply resolveCollections_yields h
  intro id hid
  obtain ⟨fs, hfs, -⟩ := h.collections
  rw [hfs, List.map_map] at hid
  obtain ⟨f, -, rfl⟩ := List.mem_map.1 hid
  exact ⟨f.1, rfl⟩

end DesignComponents.Variables
