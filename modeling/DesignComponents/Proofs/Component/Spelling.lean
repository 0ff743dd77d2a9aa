import DesignComponents.Proofs.Component.Names
import DesignComponents.Proofs.Markup.Conversion
import DesignComponents.Proofs.Text.Capital
import Mathlib.Data.List.TakeWhile

/-!
Names under other spellings. Neither blanks nor the case of the first letter matter, so a set may be
exported under the name that an instance is shown with although the two are spelled differently.
-/

namespace DesignComponents

variable {sep : Char} {cs ds : List Char} {s t : String}

theorem compactChars_eq_self (h : ∀ c ∈ cs, isBlank c = false) : compactChars cs = cs :=
  List.filter_eq_self.2 fun c hc => by simp [h c hc]

theorem beforeFirst_eq_self (h : sep ∉ cs) : beforeFirst sep cs = cs :=
  List.takeWhile_eq_self_iff.2 fun c hc => by simpa using fun heq : c = sep => h (heq ▸ hc)

theorem notMem_beforeFirst (sep : Char) (cs : List Char) : sep ∉ beforeFirst sep cs :=
  fun hmem => by simpa using List.mem_takeWhile_imp hmem

/-- A mark that is no blank may be sought with the blanks or without. -/
theorem compactChars_beforeFirst (hsep : isBlank sep = false) (cs : List Char) :
    compactChars (beforeFirst sep cs) = beforeFirst sep (compactChars cs) := by
  induction cs with
  | nil => rfl
  | cons c cs ih =>
    simp only [compactChars, beforeFirst] at ih ⊢
    by_cases hc : c = sep
    · simp [hc, hsep]
    · cases hblank : isBlank c <;> simp [hc, hblank, ih]

theorem stem_eq (key : String) : stem key = beforeFirst '#' (compactChars key.toList) :=
  compactChars_beforeFirst (by decide) key.toList

theorem componentName_eq_iff : componentName s = componentName t ↔
    upperFirst (compactChars s.toList) = upperFirst (compactChars t.toList) :=
  String.ofList_inj

theorem componentName_componentName (s : String) :
    componentName (componentName s) = componentName s := by
  have hcompact : compactChars (componentName s).toList = upperFirst (compactChars s.toList) := by
    rw [compactChars_eq_self fun _ => isBlank_of_mem_componentName, componentName_toList,
      componentNameChars]
  rw [componentName_eq_iff, hcompact, upperFirst_upperFirst]

theorem mark_notMem_propertyName (s : String) : '#' ∉ (propertyName s).toList := by
  intro hmem
  rw [propertyName_toList] at hmem
  have hstem : ∀ c ∈ stem s, CharRanges.contains [('#'.toNat, '#'.toNat)] c = false := by
    intro c hc
    rw [CharRanges.contains_single]
    rintro rfl
    exact notMem_beforeFirst _ _ (List.mem_of_mem_filter hc)
  have hname := contains_of_mem_lowerFirst (by decide +kernel) (by decide) hstem hmem
  exact CharRanges.contains_single.1 hname rfl

theorem propertyName_propertyName (s : String) :
    propertyName (propertyName s) = propertyName s := by
  have hstem : stem (propertyName s) = lowerFirst (stem s) := by
    rw [stem, beforeFirst_eq_self (mark_notMem_propertyName s),
      compactChars_eq_self fun _ => isBlank_of_mem_propertyName, propertyName_toList,
      propertyNameChars, stem]
  rw [propertyName_eq_iff, hstem, lowerFirst_lowerFirst]

/-- Names that agree but for their first letters, which have one upper case. -/
inductive Respelled : List Char → List Char → Prop
  | nil : Respelled [] []
  | cons {a b : Char} {rest : List Char} (first : upperChar a = upperChar b) :
    Respelled (a :: rest) (b :: rest)

theorem Respelled.upperFirst_eq (h : Respelled cs ds) : upperFirst cs = upperFirst ds := by
  cases h with
  | nil => rfl
  | cons first => rw [upperFirst_cons, upperFirst_cons, first]

namespace Markup

/-- At any depth, what is printed opens with the tag, and a blank ends it. -/
def IsTagged (tag : String) (m : Markup) : Prop :=
  ∀ indent, Yields (m.render indent) fun text =>
    ∃ rest, text = pad indent ++ "<" ++ tag ++ " " ++ rest

theorem isTagged_leaf (s : String) (css : Option Css) :
    (leaf (.str s) css).IsTagged (componentName s) := by
  intro indent
  have hrender : (leaf (.str s) css).render indent =
      .ok (pad indent ++ "<" ++ tagText (componentName s) css ++ " />") := by
    simp [render, lines, tagName, closed, String.intercalate_singleton]
  rw [hrender, Yields.ok_iff, tagText]
  split
  case h_1 => exact ⟨"/>", by simp [String.append_assoc]⟩
  case h_2 => exact ⟨(css.map Css.styleText).getD "" ++ " />", by simp [String.append_assoc]⟩

end Markup

namespace Component

/-- Whatever the markup comes to, it is exported under the name. -/
def IsExported (name : String) (c : Component) : Prop :=
  c.source = (c.tree.render 2).map fun markup => printed name markup (named c.schema)

end Component

namespace Document

variable {d : Document} {n root : Node}

theorem Converts.isTagged {m : Markup} (h : d.Converts n m) (hkind : n.kind = .ok .instance_)
    (hname : n.value.getOr "name" (.str "") = .ok (.str s)) : m.IsTagged (componentName s) := by
  cases h with
  | instance_ _ _ tag =>
    obtain rfl := Except.ok.inj (hname.symm.trans tag)
    exact Markup.isTagged_leaf s _
  | component kind => cases kind.symm.trans hkind
  | text kind => cases kind.symm.trans hkind
  | bare kind other => exact absurd (Except.ok.inj (kind.symm.trans hkind)) other.2.1

theorem assemble_name {c : Component} (h : (d.assemble root).result = .ok c) :
    root.value.getOr "name" (.str "") = .ok c.name := by
  rw [assemble, assembleUpTo_eq] at h
  simp only [assembleLevel, Traced.bind_result, bind_eq_ok] at h
  obtain ⟨w, -, schema, -, declared, -, h⟩ := h
  cases declared with
  | none =>
    simp only [Traced.bind_result, Traced.lift_result, bind_eq_ok] at h
    obtain ⟨inherited, -, tree, -, name, hname, h⟩ := h
    obtain rfl := Except.ok.inj h
    exact hname
  | some inherited =>
    simp only [pure_bind, Traced.bind_result, Traced.lift_result, bind_eq_ok] at h
    obtain ⟨tree, -, name, hname, h⟩ := h
    obtain rfl := Except.ok.inj h
    exact hname

/-- From a typed document all is assembled and printed unless it is refused. -/
theorem IsTyped.source_ends (hd : d.IsTyped) (hroot : root.IsScene) :
    Ends Fault.IsRefusal (d.assemble root).result fun c => ∃ text, c.source = .ok text := by
  apply (assemble_ends hd hroot).mono
  rintro c ⟨⟨name, hname⟩, hprintable, -⟩
  exact (Component.source_yields hname hprintable).exists_ok

end Document

namespace Component

/-- A name that is formed again stays as it is. It has no blanks, and as the name of a property no
mark. It depends only on what is no blank, and as the name of a property on what of this precedes the
mark. So an instance is shown with what a set is exported as if their names are spelled alike but for
blanks and for first letters that have one upper case. -/
theorem names_stable :
    (∀ s, componentName (componentName s) = componentName s) ∧
    (∀ s, propertyName (propertyName s) = propertyName s) ∧
    (∀ s, ∀ c ∈ (componentName s).toList, isBlank c = false) ∧
    (∀ s, ∀ c ∈ (propertyName s).toList, isBlank c = false ∧ c ≠ '#') ∧
    (∀ s t, compactChars s.toList = compactChars t.toList → componentName s = componentName t) ∧
    (∀ s t, beforeFirst '#' (compactChars s.toList) = beforeFirst '#' (compactChars t.toList) →
      propertyName s = propertyName t) ∧
    ∀ (d e : Document) (n root : Node) (s t : String), n.kind = .ok .instance_ →
      n.value.getOr "name" (.str "") = .ok (.str s) →
      root.value.getOr "name" (.str "") = .ok (.str t) →
      Respelled (compactChars s.toList) (compactChars t.toList) →
      Returns (d.convert n).result (·.IsTagged (componentName s)) ∧
      Returns (e.assemble root).result (·.IsExported (componentName s)) ∧
      (n.IsScene → ∃ m, (d.convert n).result = .ok m) ∧
      (e.IsTyped → root.IsScene →
        Ends Fault.IsRefusal (e.assemble root).result fun c => ∃ text, c.source = .ok text) := by
  refine ⟨componentName_componentName, propertyName_propertyName,
    fun s c => isBlank_of_mem_componentName, ?_, ?_, ?_, ?_⟩
  · intro s c hc
    refine ⟨isBlank_of_mem_propertyName hc, ?_⟩
    rintro rfl
    exact mark_notMem_propertyName s hc
  · intro s t h
    rw [componentName_eq_iff, h]
  · intro s t h
    rw [propertyName_eq_iff, stem_eq, stem_eq, h]
  · intro d e n root s t hkind hshown hset hspelled
    refine ⟨.of_forall fun m hm => (Document.converts_of_ok hm).isTagged hkind hshown,
      .of_forall fun c hc => ?_, fun hn => (Document.convert_yields d hn).exists_ok,
      Document.IsTyped.source_ends⟩
    have hname : c.name = .str t := Except.ok.inj ((Document.assemble_name hc).symm.trans hset)
    rw [IsExported, source_named hname, componentName_eq_iff.2 hspelled.upperFirst_eq]

/-- What upper case tells apart stays apart: a sharp s becomes two letters, and a capital one is left
as it is. -/
example : upperChar 'ß' ≠ upperChar 'ẞ' ∧ componentName "ßx" ≠ componentName "ẞx" := by
  decide +kernel

def digraph : Json :=
  .obj [("id", .str "2"), ("type", .str "INSTANCE"), ("name", .str "ǆ box"),
    ("componentId", .str "3")]

/-- A set whose name has the digraph in title case, with an instance whose name has it small. -/
def digraphs : Json :=
  let scene (id type name : String) (children : List Json) : Json :=
    .obj [("id", .str id), ("type", .str type), ("name", .str name), ("children", .arr children)]
  scene "0" "COMPONENT_SET" " ǅbox" [
    scene "1" "COMPONENT" "Kind=Plain" [digraph], scene "3" "COMPONENT" "Kind=Main" []]

theorem names_stable_digraphs :
    let root := Node.ofJson (some []) digraphs
    let shown := Node.ofJson (some [0, 0]) digraph
    ∃ d m c, Document.ofJson (.obj [("document", digraphs)]) .null = .ok d ∧
      (d.convert shown).result = .ok m ∧ (d.assemble root).result = .ok c ∧
      m.IsTagged "Ǆbox" ∧ c.IsExported "Ǆbox" ∧ (∃ text, c.source = .ok text) ∧
      componentName "ǆ\tbox" = componentName "ǆbox" ∧
      propertyName "Show Icon#1:0" = propertyName "ShowIcon #2:0" := by
  intro root shown
  obtain ⟨-, -, -, -, hcomponent, hproperty, hspelled⟩ := names_stable
  have hrun : (Document.ofJson (.obj [("document", digraphs)]) .null >>= fun d =>
      (d.convert shown).result >>= fun m =>
        (d.assemble root).result.map fun c => ()).toOption = some () := by
    decide +kernel
  simp only [toOption_eq_some, bind_eq_ok, map_eq_ok] at hrun
  obtain ⟨d, hd, m, hm, c, hc, -⟩ := hrun
  have htyped : d.IsTyped := Document.typed_of_file (by decide) (by decide) hd
  have hroot : root.IsScene := ⟨some [], digraphs, rfl, by decide⟩
  have hname : componentName "ǆ box" = "Ǆbox" := by decide +kernel
  have hfirst : upperChar 'ǆ' = upperChar 'ǅ' := by decide +kernel
  obtain ⟨htagged, hexported, -, hends⟩ := hspelled d d shown root "ǆ box" " ǅbox" rfl rfl rfl
    (.cons hfirst)
  rw [hm, hname] at htagged
  rw [hc, hname] at hexported
  have hprinted := hends htyped hroot
  rw [hc] at hprinted
  exact ⟨d, m, c, hd, hm, hc, htagged, hexported, hprinted,
    hcomponent _ _ (by decide), hproperty _ _ (by decide)⟩

end Component

end DesignComponents
