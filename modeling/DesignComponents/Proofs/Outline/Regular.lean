import DesignComponents.Proofs.Document.Regular
import DesignComponents.Proofs.Outline.Data

/-!
Outlines of regular scenes are regular data.
-/

namespace DesignComponents

theorem MainComponent.IsRegular.ref {m : MainComponent} (h : m.IsRegular) :
    (ComponentRef.toJson ⟨m.name, m.id, m.key⟩).IsRegular :=
  .obj (by simp) (by simp [h.name, h.id, h.key])

namespace Facts

/-- All that is known of a node is regular data. -/
structure IsRegular (f : Facts) : Prop where
  name : f.name.IsRegular
  id : f.id.IsRegular
  css : ∀ css ∈ f.css, (Json.obj css).IsRegular
  instanceOf : ∀ r ∈ f.instanceOf, r.toJson.IsRegular
  propertyValues : ∀ m ∈ f.propertyValues, (valuesJson m).IsRegular
  propertySchema : ∀ s ∈ f.propertySchema, s.toJson.IsRegular
  modes : ∀ m ∈ f.modes, (modesJson m).IsRegular

/-- The names of the fields that facts are written with. -/
def fieldNames : List String :=
  ["name", "id", "children", "css", "instanceOf", "propertyValues", "propertySchema", "modes"]

theorem valuesJson_isRegular {m : OrderedMap String String} (h : (OrderedMap.keys m).Nodup) :
    (valuesJson m).IsRegular := by
  refine .obj ?_ fun e he => ?_
  · rwa [OrderedMap.keys, List.map_map]
  · obtain ⟨p, -, rfl⟩ := List.mem_map.1 he
    exact .str p.2

theorem keys_known (name : String) (v : Option Json) :
    (OrderedMap.keys (known name v)).Sublist [name] := by
  cases v with
  | none => exact List.nil_sublist _
  | some v => exact .refl _

theorem keys_toJson (f : Facts) (cs : List Json) :
    ∃ fs, f.toJson cs = .obj fs ∧ (OrderedMap.keys fs).Sublist fieldNames := by
  refine ⟨_, rfl, ?_⟩
  simp only [OrderedMap.keys, List.map_append]
  exact (((((List.Sublist.refl _).append (keys_known _ _)).append (keys_known _ _)).append
    (keys_known _ _)).append (keys_known _ _)).append (keys_known _ _)

theorem known_isRegular {α : Type} {a : Option α} {write : α → Json} (name : String)
    (h : ∀ x ∈ a, (write x).IsRegular) : ∀ e ∈ known name (a.map write), e.2.IsRegular := by
  cases a with
  | none => exact List.forall_mem_nil _
  | some x => exact List.forall_mem_singleton.2 (h x rfl)

theorem IsRegular.toJson {f : Facts} (h : f.IsRegular) {cs : List Json}
    (hcs : ∀ c ∈ cs, c.IsRegular) : (f.toJson cs).IsRegular := by
  obtain ⟨fs, hfs, hkeys⟩ := f.keys_toJson cs
  have hgiven : ∀ e ∈ [("name", f.name), ("id", f.id), ("children", Json.arr cs)],
      e.2.IsRegular := by simpa [h.name, h.id] using hcs
  rw [hfs]
  refine .obj (hkeys.nodup (by decide)) ?_
  obtain rfl := Json.obj.inj hfs
  simp only [List.forall_mem_append]
  exact ⟨⟨⟨⟨⟨hgiven, known_isRegular _ h.css⟩, known_isRegular _ h.instanceOf⟩,
    known_isRegular _ h.propertyValues⟩, known_isRegular _ h.propertySchema⟩,
    known_isRegular _ h.modes⟩

end Facts

theorem Outline.isRegular_toJson {o : Outline} (h : ∀ f ∈ o.preorder, f.IsRegular) :
    o.toJson.IsRegular := by
  induction o using Tree.induction with
  | node f os ih =>
    rw [Tree.preorder_node, List.forall_mem_cons] at h
    obtain ⟨hf, hos⟩ := h
    rw [toJson, toJsonAll_eq]
    refine hf.toJson fun c hc => ?_
    obtain ⟨o, ho, rfl⟩ := List.mem_map.1 hc
    exact ih o ho fun g hg => hos g (List.mem_flatMap.2 ⟨o, ho, hg⟩)

namespace Document

variable {d : Document} {n : Node} {f : Facts}

theorem variableModes_regular (d : Document) (hs : n.IsScene) (hn : n.IsRegular) :
    Returns (d.variableModes n).result fun r => ∀ m ∈ r, (Facts.modesJson m).IsRegular := by
  obtain ⟨modes, hmodes, hshape⟩ := Shape.record_get "explicitVariableModes" hs.node rfl
  have hregular := (hn.value.get _).of_ok hmodes
  simp only [variableModes, Traced.bind_result, Traced.lift_result, hmodes, ok_bind]
  refine Returns.step fun _ _ => ?_
  split
  case isFalse => simp
  case isTrue ht =>
    obtain ⟨fs, rfl, -⟩ := Shape.exists_of_tableOf (hshape.resolve_left (by rintro rfl; simp at ht))
    have hmap : Facts.modesJson (fs.map fun f => (.str f.1, f.2)) = .obj fs := by
      rw [Facts.modesJson, List.map_map]
      exact congrArg Json.obj (List.map_id fs)
    simpa [hmap] using hregular

theorem factsByKind_regular (hd : d.IsRegular) (hs : n.IsScene) (hn : n.IsRegular)
    (hf : f.IsRegular) (k : NodeKind) : Returns (d.factsByKind n k f).result Facts.IsRegular := by
  have hvalues : Returns (d.variantProperties n).soft.result fun r =>
      ∀ m ∈ r, (Facts.valuesJson m).IsRegular := by
    have hdistinct := (variantProperties_regular d hn).soft (by simp)
    exact hdistinct.mono fun r hr m hm => Facts.valuesJson_isRegular (hr m hm)
  cases k with
  | instance_ =>
    simp only [factsByKind, Traced.bind_result, Traced.pure_result]
    refine ((mainComponent_regular hd hn).soft (by simp)).bind fun main hmain => ?_
    refine hvalues.bind fun values hvalues => ?_
    have hinstance : ∀ r ∈ main.map fun m => ⟨m.name, m.id, m.key⟩,
        (ComponentRef.toJson r).IsRegular := by
      intro r hr
      obtain ⟨m, hm, rfl⟩ := Option.map_eq_some_iff.1 hr
      exact (hmain m hm).ref
    exact { hf with instanceOf := hinstance, propertyValues := hvalues }
  | component =>
    simp only [factsByKind, Traced.bind_result, Traced.pure_result]
    refine hvalues.bind fun values hvalues => ?_
    refine ((variableModes_regular d hs hn).soft (by simp)).bind fun modes hmodes => ?_
    exact { hf with propertyValues := hvalues, modes := hmodes }
  | componentSet =>
    simp only [factsByKind, Traced.bind_result, Traced.pure_result]
    refine ((propertyDefinitions_regular d hn).soft (by simp)).bind fun schema hschema => ?_
    exact { hf with propertySchema := hschema }
  | other =>
    simp only [factsByKind, Traced.bind_result, Traced.lift_result]
    exact Returns.step fun _ _ => hf
  | _ => exact hf

theorem styleOf_regular (d : Document) (hn : n.IsRegular) (k : NodeKind) :
    Returns (d.styleOf n k).result fun r => ∀ css ∈ r, (Json.obj css).IsRegular := by
  rw [styleOf]
  split
  · exact (css_regular d hn).soft (by simp)
  · simp

theorem observe_regular (hd : d.IsRegular) (hs : n.IsScene) (hn : n.IsRegular)
    {below : Descent} (h : (d.observe n).result = .ok (f, below)) : f.IsRegular := by
  obtain ⟨k, -, hname, hid, hcss, hfacts, -⟩ := observe_steps h
  have hname := (hn.value.getOr "name" (.str "")).of_ok hname
  have hid := (hn.value.getOr "id" (.str "")).of_ok hid
  have hcss := (styleOf_regular d hn k).of_ok hcss
  have hgiven : Facts.IsRegular { name := f.name, id := f.id, css := f.css } :=
    ⟨hname, hid, hcss, by simp, by simp, by simp, by simp⟩
  exact (factsByKind_regular hd hs hn hgiven k).of_ok hfacts

/-- Outlines of what a regular document selects are regular data. -/
theorem visitAll_regular (hd : d.IsRegular) {ns : List Node}
    (hns : ∀ n ∈ ns, n.IsScene ∧ n.IsRegular) {os : List Outline}
    (h : (d.visitAll ns).result = .ok os) : ∀ o ∈ os, o.toJson.IsRegular := by
  have hbelow (n : Node) (hn : n.IsScene ∧ n.IsRegular) :
      ∀ m ∈ n.children, Node.IsScene m ∧ Node.IsRegular m :=
    fun m hm => ⟨isScene_children n hn.1 m hm, hn.2.children m hm⟩
  have hfacts := forall_mem_visitAll hbelow
    (fun m f below hm hobs => observe_regular hd hm.1 hm.2 hobs) hns h
  exact fun o ho => Outline.isRegular_toJson (hfacts o ho)

end Document

end DesignComponents
