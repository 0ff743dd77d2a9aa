import DesignComponents.Proofs.Outline.Typed
import DesignComponents.Proofs.Property.Schema

/-!
Outlines read from their data. What is left out of the data is not known, which is another thing
than an empty map; children, maps and the definitions of a schema keep their order.
-/

namespace DesignComponents

/-- A value that may be left out, read if it is there. -/
def readKnown? {α : Type} (read : Json → Option α) : Option Json → Option (Option α)
  | none => some none
  | some v => (read v).map some

theorem readKnown?_map {α : Type} {read : Json → Option α} {write : α → Json} {a : Option α}
    (h : ∀ x ∈ a, read (write x) = some x) : readKnown? read (a.map write) = some a := by
  cases a with
  | none => rfl
  | some x => simp [readKnown?, h x rfl]

def Json.fields? : Json → Option (List (String × Json))
  | .obj fs => some fs
  | _ => none

namespace ComponentRef

def ofJson? (v : Json) : Option ComponentRef := do
  let name ← v.lookup? "name"
  let id ← v.lookup? "id"
  let key ← v.lookup? "key"
  some ⟨name, id, key⟩

theorem ofJson?_toJson (r : ComponentRef) : ofJson? r.toJson = some r := rfl

end ComponentRef

namespace Facts

def readValue? (f : String × Json) : Option (String × String) :=
  match f.2 with
  | .str s => some (f.1, s)
  | _ => none

def readValues? (v : Json) : Option (OrderedMap String String) := do
  let fs ← v.fields?
  fs.mapM readValue?

def readSchema? (v : Json) : Option Schema := (Schema.parse v).result.toOption

def readModes? (v : Json) : Option (OrderedMap Key Json) := do
  let fs ← v.fields?
  some (fs.map fun f => (.str f.1, f.2))

/-- The facts of a node, whatever its children are. -/
def ofJson? (v : Json) : Option Facts := do
  let name ← v.lookup? "name"
  let id ← v.lookup? "id"
  let css ← readKnown? Json.fields? (v.lookup? "css")
  let instanceOf ← readKnown? ComponentRef.ofJson? (v.lookup? "instanceOf")
  let propertyValues ← readKnown? readValues? (v.lookup? "propertyValues")
  let propertySchema ← readKnown? readSchema? (v.lookup? "propertySchema")
  let modes ← readKnown? readModes? (v.lookup? "modes")
  some { name, id, css, instanceOf, propertyValues, propertySchema, modes }

/-- Modes are set under texts, as the fields of any data are. -/
def HasTextKeys (f : Facts) : Prop := ∀ m ∈ f.modes, ∀ e ∈ m, ∃ s, e.1 = .str s

variable {f : Facts}

theorem readValues?_valuesJson (m : OrderedMap String String) :
    readValues? (valuesJson m) = some m := by
  change (m.map fun p => (p.1, Json.str p.2)).mapM readValue? = some m
  induction m with
  | nil => rfl
  | cons p m ih => simp [List.mapM_cons, readValue?, ih]

theorem readSchema?_toJson (s : Schema) : readSchema? s.toJson = some s := by
  rw [readSchema?, Schema.parse_toJson]
  rfl

theorem readModes?_modesJson {m : OrderedMap Key Json} (h : ∀ e ∈ m, ∃ s, e.1 = .str s) :
    readModes? (modesJson m) = some m := by
  change some ((m.map fun p => (p.1.fieldName, p.2)).map fun f => (Key.str f.1, f.2)) = some m
  rw [List.map_map]
  refine congrArg some ((List.map_congr_left fun e he => ?_).trans (List.map_id m))
  obtain ⟨s, hs⟩ := h e he
  obtain ⟨k, v⟩ := e
  obtain rfl := hs
  rfl

theorem lookup_known_append (key name : String) (v : Option Json) (fs : List (String × Json)) :
    (known name v ++ fs).lookup key = if key = name then v <|> fs.lookup key else fs.lookup key := by
  cases v with
  | none => simp
  | some v =>
    by_cases h : key = name
    · simp [h]
    · simp [List.lookup_cons, beq_false_of_ne h, h]

theorem lookup_known (key name : String) (v : Option Json) :
    (known name v).lookup key = if key = name then v else none := by
  have h := lookup_known_append key name v []
  simpa using h

theorem lookup_children (f : Facts) (cs : List Json) :
    (f.toJson cs).lookup? "children" = some (.arr cs) := rfl

theorem ofJson?_toJson (cs : List Json) (h : f.HasTextKeys) : ofJson? (f.toJson cs) = some f := by
  have hcss : readKnown? Json.fields? (f.css.map .obj) = some f.css :=
    readKnown?_map fun _ _ => rfl
  have hinstance := readKnown?_map (a := f.instanceOf) fun r _ => r.ofJson?_toJson
  have hvalues := readKnown?_map (a := f.propertyValues) fun m _ => readValues?_valuesJson m
  have hschema := readKnown?_map (a := f.propertySchema) fun s _ => readSchema?_toJson s
  have hmodes := readKnown?_map (a := f.modes) fun m hm => readModes?_modesJson (h m hm)
  simp [ofJson?, toJson, List.lookup_cons, lookup_known_append, lookup_known, hcss, hinstance,
    hvalues, hschema, hmodes]

end Facts

namespace Outline

mutual

def ofJson? : Json → Option Outline
  | .obj fs => do
    let facts ← Facts.ofJson? (.obj fs)
    let os ← childrenIn? fs
    some (.node facts os)
  | _ => none

def childrenIn? : List (String × Json) → Option (List Outline)
  | [] => none
  | (name, v) :: fs => if name = "children" then childrenOf? v else childrenIn? fs

def childrenOf? : Json → Option (List Outline)
  | .arr xs => ofJsonAll? xs
  | _ => none

def ofJsonAll? : List Json → Option (List Outline)
  | [] => some []
  | x :: xs => do
    let o ← ofJson? x
    let os ← ofJsonAll? xs
    some (o :: os)

end

def HasTextKeys (o : Outline) : Prop := ∀ f ∈ o.preorder, f.HasTextKeys

theorem childrenIn?_eq (fs : List (String × Json)) :
    childrenIn? fs = (fs.lookup "children").bind childrenOf? := by
  induction fs with
  | nil => rfl
  | cons f fs ih =>
    obtain ⟨name, v⟩ := f
    by_cases hname : name = "children"
    · simp [childrenIn?, hname]
    · simp [childrenIn?, hname, ih, List.lookup_cons, beq_false_of_ne (Ne.symm hname)]

theorem toJsonAll_eq (os : List Outline) : toJsonAll os = os.map toJson := by
  induction os with
  | nil => rfl
  | cons o os ih => rw [toJsonAll, ih, List.map_cons]

theorem ofJsonAll?_map {os : List Outline} (h : ∀ o ∈ os, ofJson? o.toJson = some o) :
    ofJsonAll? (os.map toJson) = some os := by
  induction os with
  | nil => rfl
  | cons o os ih =>
    rw [List.forall_mem_cons] at h
    simp [ofJsonAll?, h.1, ih h.2]

theorem ofJson?_obj {fs : List (String × Json)} {cs : List Json}
    (h : fs.lookup "children" = some (.arr cs)) :
    ofJson? (.obj fs) = (Facts.ofJson? (.obj fs)).bind fun f => (ofJsonAll? cs).map (.node f) := by
  rw [ofJson?, childrenIn?_eq, h]
  cases Facts.ofJson? (.obj fs) with
  | none => rfl
  | some f => cases hcs : ofJsonAll? cs <;> simp [childrenOf?, hcs]

theorem ofJson?_toJson {o : Outline} (h : o.HasTextKeys) : ofJson? o.toJson = some o := by
  induction o using Tree.induction with
  | node f os ih =>
    rw [HasTextKeys, Tree.preorder_node, List.forall_mem_cons] at h
    obtain ⟨hf, hos⟩ := h
    have hbelow (o : Outline) (ho : o ∈ os) : ofJson? o.toJson = some o :=
      ih o ho fun g hg => hos g (List.mem_flatMap.2 ⟨o, ho, hg⟩)
    have hown : Facts.ofJson? (f.toJson (os.map toJson)) = some f := Facts.ofJson?_toJson _ hf
    rw [toJson, toJsonAll_eq]
    refine (ofJson?_obj (Facts.lookup_children f _)).trans ?_
    rw [ofJsonAll?_map hbelow]
    exact congrArg (Option.bind · _) hown

end Outline

namespace Document

variable {d : Document} {n : Node} {f g : Facts}

theorem factsByKind_textKeys {k : NodeKind} (hn : n.IsScene) (hf : f.HasTextKeys)
    (h : (d.factsByKind n k f).result = .ok g) : g.HasTextKeys := by
  cases k with
  | component =>
    simp only [factsByKind, Traced.bind_result, bind_eq_ok, Traced.pure_result] at h
    obtain ⟨_, -, modes, hmodes, h⟩ := h
    obtain rfl := Except.ok.inj h
    obtain ⟨modes', hmodes', hkeys⟩ := (variableModes_ends d hn).soft (by simp)
    obtain rfl := Except.ok.inj (hmodes'.symm.trans hmodes)
    exact hkeys
  | instance_ | other =>
    simp only [factsByKind, Traced.bind_result, bind_eq_ok, Traced.pure_result] at h
    obtain ⟨_, -, _, -, h⟩ := h
    obtain rfl := Except.ok.inj h
    exact hf
  | componentSet =>
    simp only [factsByKind, Traced.bind_result, bind_eq_ok, Traced.pure_result] at h
    obtain ⟨_, -, h⟩ := h
    obtain rfl := Except.ok.inj h
    exact hf
  | _ =>
    obtain rfl := Except.ok.inj h
    exact hf

theorem visitAll_textKeys {ns : List Node} (hns : ∀ n ∈ ns, n.IsScene) {os : List Outline}
    (h : (d.visitAll ns).result = .ok os) : ∀ o ∈ os, o.HasTextKeys := by
  refine forall_mem_visitAll isScene_children (fun m f below hm hobs => ?_) hns h
  obtain ⟨k, -, -, -, -, hfacts, -⟩ := observe_steps hobs
  exact factsByKind_textKeys hm (fun _ hnone => by cases hnone) hfacts

end Document

end DesignComponents
