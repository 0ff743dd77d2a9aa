import DesignComponents.Document.Query
import DesignComponents.Proofs.Css.Extract
import DesignComponents.Proofs.Document.Typed

/-!
Questions to a document of typed fields about any node: they are answered, or refused since the
node is not its own.
-/

namespace DesignComponents

open Shape

namespace Schema

theorem optionsOf_yields {v : Json} (h : v = .null ∨ listOf text v = true) :
    Yields (PropertyDefinition.optionsOf v) fun _ => True := by
  rcases h with rfl | h
  · simp [PropertyDefinition.optionsOf]
  · obtain ⟨xs, rfl, -⟩ := exists_of_listOf h
    simp [PropertyDefinition.optionsOf]

theorem parseDefinition_yields (name : String) {v : Json} (h : propertyDefinition v = true) :
    Yields (PropertyDefinition.parse name v).result fun _ => True := by
  obtain ⟨fs, rfl, -⟩ := exists_of_record h
  simp only [PropertyDefinition.parse, Traced.bind_result, Traced.lift_result]
  apply (record_get "type" h rfl).bind
  intro type _
  cases PropertyType.ofJson? type with
  | none => simp
  | some t =>
    simp only [Traced.bind_result, Traced.lift_result]
    apply (record_get "variantOptions" h rfl).bind
    intro _ ho
    apply (optionsOf_yields ho).bind
    intro _ _
    simp

theorem parseFields_yields {fs : List (String × Json)}
    (h : ∀ f ∈ fs, propertyDefinition f.2 = true) :
    Yields (parseFields fs).result fun _ => True := by
  induction fs with
  | nil => simp
  | cons f fs ih =>
    rw [parseFields]
    simp only [Traced.bind_result]
    apply (parseDefinition_yields f.1 (h f (.head _))).bind
    intro _ _
    apply (ih fun g hg => h g (.tail _ hg)).bind
    intro _ _
    simp

theorem parse_yields {raw : Json} (h : tableOf propertyDefinition raw = true) :
    Yields (parse raw).result fun _ => True := by
  obtain ⟨fs, rfl, hfs⟩ := exists_of_tableOf h
  simpa [parse] using parseFields_yields hfs

end Schema

namespace Document

variable {d : Document} {n : Node}

theorem css_ends (d : Document) (hn : n.IsScene) :
    Ends Fault.IsForeign (d.css n).result fun _ => True := by
  simp only [css, Traced.bind_result, Traced.lift_result]
  apply (require_ends d hn).bind
  intro _ _
  apply (Css.extract_yields hn.node).ends.bind
  intro _ _
  simp

theorem parent_ends (hd : d.IsTyped) (hn : n.IsScene) :
    Ends Fault.IsForeign (d.parent n).result fun r => ∀ p, r = some p → d.Holds p := by
  simp only [parent, Traced.bind_result, Traced.lift_result]
  apply (require_ends d hn).bind
  intro id hid
  obtain ⟨s, rfl⟩ := hid
  simp only [Traced.pure_result, Ends.ok_iff]
  cases he : (d.entry? (.str s)).bind Entry.parent with
  | none => simp
  | some p =>
    obtain ⟨e, hentry, hp⟩ := Option.bind_eq_some_iff.1 he
    obtain ⟨t, rfl⟩ := (hd.entry hentry).parent p hp
    dsimp only
    intro m hm
    split at hm
    case isTrue => exact ⟨t, hm⟩
    case isFalse => simp at hm

theorem componentData_yields (hd : d.IsTyped) {id : Json} (h : text id = true) :
    Yields (d.componentData id) fun data => component data = true := by
  obtain ⟨s, rfl⟩ := exists_of_text h
  obtain ⟨fs, hc, hfs⟩ := exists_of_tableOf hd.components
  simp only [componentData, hc, Json.key_str, ok_bind, pure_eq_ok, Yields.ok_iff]
  cases hs : fs.lookup s with
  | none => rfl
  | some v =>
    obtain ⟨l, l', rfl, -⟩ := List.lookup_eq_some_iff.1 hs
    exact hfs (s, v) (by simp)

/-- The node of the document that the node's component identifier leads to. An empty identifier
counts as none. -/
def shown? (d : Document) (n : Node) : Option Node :=
  if n.fieldText "componentId" = "" then none else d.node? (.str (n.fieldText "componentId"))

/-- What the document knows of an instance's component is at hand if the component's node is. -/
theorem mainComponent_yields (hd : d.IsTyped) (hn : n.IsScene) {k : Key}
    (hk : d.require n = .ok k) :
    Yields (d.mainComponent n).result fun r => r.bind MainComponent.node = d.shown? n := by
  obtain ⟨id, hid, hshape⟩ := record_get "componentId" hn.node rfl
  simp only [mainComponent, Traced.bind_result, Traced.lift_result, hk, hid, ok_bind]
  rcases hshape with rfl | hshape
  · simp [shown?, Node.fieldText_of_get_null hid]
  obtain ⟨s, rfl⟩ := exists_of_text hshape
  have hfield := Node.fieldText_of_get hid
  by_cases hs : s = ""
  · subst hs
    simp [shown?, hfield, Json.isTruthy]
  have ht : (Json.str s).isTruthy = true := by simp [Json.isTruthy, hs]
  rw [if_pos ht]
  simp only [Traced.bind_result, Traced.lift_result, Json.key_str, ok_bind]
  apply (componentData_yields hd hshape).bind
  intro data hdata
  have hshown : d.shown? n = d.node? (.str s) := by rw [shown?, hfield, if_neg hs]
  rw [hshown]
  cases hm : d.node? (.str s) with
  | none =>
    dsimp only
    split
    · simp only [Traced.bind_result, Traced.lift_result]
      apply (record_getOr "name" hdata rfl rfl).bind
      intro _ _
      apply (record_getOr "key" hdata rfl rfl).bind
      intro _ _
      simp
    · simp
  | some m =>
    simp only [Traced.bind_result, Traced.lift_result]
    apply (record_get "name" (hd.scene ⟨s, hm⟩).node rfl).bind
    intro own _
    have hkey (name : Json) : Yields
        (do pure (some ⟨.str s, name, ← data.getOr "key" (.str ""), some m⟩) :
          Traced (Option MainComponent)).result
        fun r => r.bind MainComponent.node = some m := by
      simp only [Traced.bind_result, Traced.lift_result]
      apply (record_getOr "key" hdata rfl rfl).bind
      intro _ _
      simp
    split
    · exact hkey own
    · rw [Traced.bind_result, Traced.lift_result]
      apply (record_getOr "name" hdata rfl rfl).bind
      intro name _
      exact hkey name

theorem mainComponent_ends (hd : d.IsTyped) (hn : n.IsScene) :
    Ends Fault.IsForeign (d.mainComponent n).result fun r =>
      ∀ c, r = some c → ∀ m, c.node = some m → d.Holds m := by
  have hends := require_ends d hn
  cases hk : d.require n with
  | error e =>
    rw [hk] at hends
    simpa [mainComponent, hk] using hends
  | ok k =>
    apply (mainComponent_yields hd hn hk).ends.mono
    rintro r hr c rfl m hm
    have hshown : d.shown? n = some m := by rw [← hr, Option.bind_some, hm]
    rw [shown?] at hshown
    split at hshown
    · cases hshown
    · exact ⟨_, hshown⟩

theorem propertyDefinitions_ends (d : Document) (hn : n.IsScene) :
    Ends Fault.IsForeign (d.propertyDefinitions n).result fun _ => True := by
  simp only [propertyDefinitions, Traced.bind_result, Traced.lift_result]
  apply (require_ends d hn).bind
  intro _ _
  apply (record_get "componentPropertyDefinitions" hn.node rfl).ends.bind
  intro raw hraw
  split
  case isFalse => simp
  case isTrue ht =>
    have hraw := hraw.resolve_left (by rintro rfl; simp at ht)
    simp only [Traced.bind_result]
    apply (Schema.parse_yields hraw).ends.bind
    intro _ _
    simp

theorem variantValues_yields {ps : List (String × Json)}
    (h : ∀ p ∈ ps, propertyValue p.2 = true) : Yields (variantValues ps) fun _ => True := by
  induction ps with
  | nil => simp [variantValues]
  | cons p ps ih =>
    have hp := h p (.head _)
    obtain ⟨fs, hfs, -⟩ := exists_of_record hp
    apply (record_get "type" hp rfl).bind
    intro _ _
    rw [hfs, Json.get_obj, ok_bind]
    apply (ih fun q hq => h q (.tail _ hq)).bind
    intro _ _
    simp

theorem variantProperties_ends (hd : d.IsTyped) (hn : n.IsScene) :
    Ends Fault.IsForeign (d.variantProperties n).result fun _ => True := by
  simp only [variantProperties, Traced.bind_result, Traced.lift_result]
  apply (require_ends d hn).bind
  intro id hid
  obtain ⟨s, rfl⟩ := hid
  apply (record_get "type" hn.node rfl).ends.bind
  intro type _
  split
  · simp only [Traced.bind_result, Traced.lift_result]
    apply (record_get "componentProperties" hn.node rfl).ends.bind
    intro ps hps
    obtain ⟨fs, hfs, hshape⟩ := exists_of_tableOf (orEmpty_tableOf hps)
    simp only [hfs, Json.fields_obj, ok_bind]
    apply (variantValues_yields hshape).ends.bind
    intro _ _
    simp
  · split
    · have hkey : ∃ t, ((d.entry? (.str s)).bind Entry.parent).getD (.str "") = .str t := by
        cases he : (d.entry? (.str s)).bind Entry.parent with
        | none => exact ⟨"", rfl⟩
        | some p =>
          obtain ⟨e, hentry, hp⟩ := Option.bind_eq_some_iff.1 he
          exact (hd.entry hentry).parent p hp
      obtain ⟨t, ht⟩ := hkey
      rw [ht]
      cases hm : d.node? (.str t) with
      | none => simp
      | some m =>
        simp only [Traced.bind_result, Traced.lift_result]
        apply (record_get "type" (hd.scene ⟨t, hm⟩).node rfl).ends.bind
        intro _ _
        split
        · simp only [Traced.bind_result, Traced.lift_result]
          apply (record_getOr "name" hn.node rfl rfl).ends.bind
          intro name hname
          obtain ⟨u, rfl⟩ := exists_of_text hname
          simp
        · simp
    · simp

theorem variableModes_ends (d : Document) (hn : n.IsScene) :
    Ends Fault.IsForeign (d.variableModes n).result fun r =>
      ∀ m ∈ r, ∀ e ∈ m, ∃ s, e.1 = Key.str s := by
  simp only [variableModes, Traced.bind_result, Traced.lift_result]
  apply (require_ends d hn).bind
  intro _ _
  apply (record_get "explicitVariableModes" hn.node rfl).ends.bind
  intro modes hmodes
  split
  case isFalse => simp
  case isTrue ht =>
    obtain ⟨fs, rfl, -⟩ := exists_of_tableOf (hmodes.resolve_left (by rintro rfl; simp at ht))
    simp only [Json.table_obj, Traced.bind_result, Traced.lift_result, ok_bind, Traced.pure_result,
      Ends.ok_iff, Option.mem_some]
    rintro _ rfl e he
    obtain ⟨f, -, rfl⟩ := List.mem_map.1 he
    exact ⟨f.1, rfl⟩

end Document

end DesignComponents
