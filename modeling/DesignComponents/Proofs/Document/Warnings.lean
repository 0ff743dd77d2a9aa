import DesignComponents.Outline.Visit
import DesignComponents.Proofs.Json.Shape

/-!
What is remarked on a node when it is walked: its type, if it is not known, and those definitions
of a component set that are left out. All other questions to a document are answered in silence.
-/

namespace DesignComponents

namespace Traced

variable {α β : Type} {ws vs : List Warning}

theorem bind_log_nil {x : Traced α} {f : α → Traced β} (hx : x.log = [])
    (hf : ∀ a, (f a).log = []) : (x >>= f).log = [] := by
  cases h : x.result with
  | ok a => simp [bind_of_ok h, hx, hf a]
  | error e => simp [bind_of_error h, hx]

@[simp] theorem soft_log (x : Traced (Option α)) : x.soft.log = x.log := by
  unfold soft
  split <;> rfl

/-- A computation that gives these warnings if it succeeds. -/
def Remarks (x : Traced α) (ws : List Warning) : Prop := ∀ a, x.result = .ok a → x.log = ws

namespace Remarks

theorem of_log {x : Traced α} (h : x.log = ws) : Remarks x ws := fun _ _ => h

theorem bind {x : Traced α} {f : α → Traced β} (hx : Remarks x ws)
    (hf : ∀ a, x.result = .ok a → Remarks (f a) vs) : Remarks (x >>= f) (ws ++ vs) := by
  intro b hb
  rw [bind_result, bind_eq_ok] at hb
  obtain ⟨a, ha, hb⟩ := hb
  rw [bind_of_ok ha]
  simp only [hx a ha, hf a ha b hb]

theorem after {x : Traced α} {f : α → Traced β} (hx : x.log = [])
    (hf : ∀ a, x.result = .ok a → Remarks (f a) ws) : Remarks (x >>= f) ws :=
  (of_log hx).bind hf

theorem before {x : Traced α} {f : α → Traced β} (hx : Remarks x ws)
    (hf : ∀ a, (f a).log = []) : Remarks (x >>= f) ws := by
  simpa using hx.bind fun a _ => of_log (hf a)

theorem soft {x : Traced (Option α)} (he : Ends Fault.IsOfData x.result fun _ => True)
    (hx : Remarks x ws) : Remarks x.soft ws := by
  intro a ha
  rw [soft_log]
  cases h : x.result with
  | ok b => exact hx b h
  | error e =>
    rw [h] at he
    unfold Traced.soft at ha
    split at ha
    case h_1 id heq => exact absurd ⟨id, Except.error.inj (h.symm.trans heq)⟩ he
    case h_2 => simp [h] at ha

end Remarks

end Traced

open Traced

open Fault (IsOfData IsForeign)

theorem Json.get_ends (v : Json) (name : String) : Ends IsOfData (v.get name) fun _ => True := by
  cases v <;> simp [Json.get, IsOfData, IsForeign]

namespace Schema

def skippedDefinition? (name : String) (v : Json) : Option Warning :=
  let type := (v.lookup? "type").getD .null
  match PropertyType.ofJson? type with
  | none => some (.unsupportedProperty type name)
  | some _ => none

/-- The warnings on definitions that are left out, in order. -/
def skipped : Json → List Warning
  | .obj fs => fs.filterMap fun f => skippedDefinition? f.1 f.2
  | _ => []

theorem skipped_of_falsy {v : Json} (h : v.isTruthy = false) : skipped v = [] := by
  cases v with
  | obj fs =>
    cases fs with
    | nil => rfl
    | cons f fs => simp at h
  | _ => rfl

theorem optionsOf_ends (v : Json) :
    Ends IsOfData (PropertyDefinition.optionsOf v) fun _ => True := by
  cases v <;> simp [PropertyDefinition.optionsOf, Json.elements, IsOfData, IsForeign]

theorem parseDefinition_ends (name : String) (v : Json) :
    Ends IsOfData (PropertyDefinition.parse name v).result fun _ => True := by
  simp only [PropertyDefinition.parse, bind_result, lift_result]
  apply (v.get_ends "type").bind
  intro type _
  cases PropertyType.ofJson? type with
  | none => simp
  | some t =>
    simp only [bind_result, lift_result]
    apply (v.get_ends "variantOptions").bind
    intro _ _
    apply (optionsOf_ends _).bind
    intro _ _
    apply (v.get_ends "defaultValue").bind
    intro _ _
    simp

theorem parseDefinition_remarks (name : String) (v : Json) :
    Remarks (PropertyDefinition.parse name v) (skippedDefinition? name v).toList := by
  refine .after rfl fun type htype => ?_
  rw [skippedDefinition?, Json.get_eq_ok htype]
  cases PropertyType.ofJson? type with
  | none => exact .of_log rfl
  | some t =>
    refine .of_log ?_
    exact bind_log_nil rfl fun _ => bind_log_nil rfl fun _ => bind_log_nil rfl fun _ => rfl

theorem parseFields_ends (fs : List (String × Json)) :
    Ends IsOfData (parseFields fs).result fun _ => True := by
  induction fs with
  | nil => simp
  | cons f fs ih =>
    simp only [parseFields, bind_result]
    refine (parseDefinition_ends f.1 f.2).bind fun _ _ => ih.bind fun _ _ => ?_
    simp

theorem parseFields_remarks (fs : List (String × Json)) :
    Remarks (parseFields fs) (skipped (.obj fs)) := by
  induction fs with
  | nil => exact .of_log rfl
  | cons f fs ih =>
    have hcons : skipped (.obj (f :: fs)) =
        (skippedDefinition? f.1 f.2).toList ++ skipped (.obj fs) := by
      cases h : skippedDefinition? f.1 f.2 <;> simp [skipped, h]
    rw [parseFields, hcons]
    exact (parseDefinition_remarks f.1 f.2).bind fun _ _ => ih.before fun _ => rfl

theorem parse_ends (raw : Json) : Ends IsOfData (parse raw).result fun _ => True := by
  cases raw with
  | obj fs => simpa [parse] using parseFields_ends fs
  | _ => simp [parse, Json.fields, IsOfData, IsForeign]

theorem parse_remarks (raw : Json) : Remarks (parse raw) (skipped raw) := by
  cases raw with
  | obj fs => exact .after rfl fun _ h => by cases h; exact parseFields_remarks fs
  | _ => exact .after rfl fun _ h => by cases h

end Schema

namespace Document

variable {d : Document} {n : Node}

def owns (d : Document) (s : Site) : Bool := (d.require (.node s [])).isOk

/-- What is below a node does not decide whether it is the document's own. -/
theorem owns_eq (d : Document) (n : Node) : d.owns n.label = (d.require n).isOk := by
  cases n
  rfl

/-- What is remarked on a node by itself. -/
def ownWarnings (d : Document) (s : Site) : List Warning :=
  let field (name : String) (other : Json) := (s.value.lookup? name).getD other
  match NodeKind.ofNode s.value with
  | .ok .other =>
    [.unhandledNode (field "type" .null) (field "name" (.str "")) (field "id" (.str ""))]
  | .ok .componentSet =>
    if d.owns s then Schema.skipped (field "componentPropertyDefinitions" .null) else []
  | _ => []

/-- The style of a node of a kind that is observed with one. -/
def styleOf (d : Document) (n : Node) (k : NodeKind) : Traced (Option Css) :=
  if k.policy.extractsCss then (d.css n).soft else pure none

/-- What is left to observe once the kind, name, identifier and style are known. -/
def observeRest (d : Document) (n : Node) (k : NodeKind) (f : Facts) :
    Traced (Facts × Descent) := do
  let facts ← d.factsByKind n k f
  let descent ← descent n k.policy
  pure (facts, descent)

theorem observe_eq (d : Document) (n : Node) : d.observe n = (do
    let k ← n.kind
    let name ← n.value.getOr "name" (.str "")
    let id ← n.value.getOr "id" (.str "")
    let css ← d.styleOf n k
    d.observeRest n k { name := name, id := id, css := css }) := by
  unfold observe NodePolicy.ofNode Node.kind
  cases NodeKind.ofNode n.value with
  | error e => rfl
  | ok k =>
    simp only [map_ok, lift_ok_bind, NodeKind.policy_kind, styleOf, observeRest]
    cases k.policy.extractsCss <;> simp

theorem css_log (d : Document) (n : Node) : (d.css n).log = [] :=
  bind_log_nil rfl fun _ => bind_log_nil rfl fun _ => rfl

theorem styleOf_log (d : Document) (n : Node) (k : NodeKind) : (d.styleOf n k).log = [] := by
  rw [styleOf]
  split
  · rw [soft_log, css_log]
  · rfl

theorem mainComponent_log (d : Document) (n : Node) : (d.mainComponent n).log = [] := by
  refine bind_log_nil rfl fun _ => bind_log_nil rfl fun id => ?_
  split
  · refine bind_log_nil rfl fun data => bind_log_nil rfl fun _ => ?_
    split
    · split
      · exact bind_log_nil rfl fun _ => bind_log_nil rfl fun _ => rfl
      · rfl
    · refine bind_log_nil rfl fun own => ?_
      split
      · exact bind_log_nil rfl fun _ => bind_log_nil rfl fun _ => rfl
      · exact bind_log_nil rfl fun _ => bind_log_nil rfl fun _ => rfl
  · rfl

theorem variantProperties_log (d : Document) (n : Node) : (d.variantProperties n).log = [] := by
  refine bind_log_nil rfl fun _ => bind_log_nil rfl fun type => ?_
  split
  · exact bind_log_nil rfl fun _ => bind_log_nil rfl fun _ => bind_log_nil rfl fun _ => rfl
  · split
    · split
      · rfl
      · refine bind_log_nil rfl fun _ => ?_
        split
        · exact bind_log_nil rfl fun _ => bind_log_nil rfl fun _ => rfl
        · rfl
    · rfl

theorem variableModes_log (d : Document) (n : Node) : (d.variableModes n).log = [] := by
  refine bind_log_nil rfl fun _ => bind_log_nil rfl fun modes => ?_
  split
  · exact bind_log_nil rfl fun _ => rfl
  · rfl

theorem propertyDefinitions_remarks (d : Document) (n : Node) :
    Remarks (d.propertyDefinitions n).soft (if d.owns n.label then
      Schema.skipped ((n.value.lookup? "componentPropertyDefinitions").getD .null) else []) := by
  rw [owns_eq, propertyDefinitions]
  cases h : d.require n with
  | error e => exact .of_log (soft_log _)
  | ok id =>
    rw [lift_ok_bind]
    refine Remarks.soft ?_ (.after rfl fun raw hraw => ?_)
    · simp only [bind_result, lift_result]
      apply (n.value.get_ends _).bind
      intro raw _
      split
      · simp only [bind_result]
        exact (Schema.parse_ends raw).bind fun _ _ => by simp
      · simp
    · rw [Json.get_eq_ok hraw]
      split
      case isTrue => exact (Schema.parse_remarks raw).before fun _ => rfl
      case isFalse h => exact .of_log (Schema.skipped_of_falsy (by simpa using h)).symm

theorem factsByKind_remarks (d : Document) {n : Node} {k : NodeKind} {f : Facts}
    (hk : n.kind = .ok k) (hname : n.value.getOr "name" (.str "") = .ok f.name)
    (hid : n.value.getOr "id" (.str "") = .ok f.id) :
    Remarks (d.factsByKind n k f) (d.ownWarnings n.label) := by
  have hk : NodeKind.ofNode n.label.value = .ok k := hk
  rw [ownWarnings, hk]
  cases k with
  | componentSet => exact (d.propertyDefinitions_remarks n).before fun _ => rfl
  | other =>
    refine .after rfl fun type htype => .of_log ?_
    have htype : (n.label.value.lookup? "type").getD .null = type := Json.get_eq_ok htype
    have hname : (n.label.value.lookup? "name").getD (.str "") = f.name := Json.getOr_eq_ok hname
    have hid : (n.label.value.lookup? "id").getD (.str "") = f.id := Json.getOr_eq_ok hid
    simp only [htype, hname, hid]
    rfl
  | instance_ =>
    refine .of_log (bind_log_nil ?_ fun _ => bind_log_nil ?_ fun _ => rfl)
    · rw [soft_log, mainComponent_log]
    · rw [soft_log, variantProperties_log]
  | component =>
    refine .of_log (bind_log_nil ?_ fun _ => bind_log_nil ?_ fun _ => rfl)
    · rw [soft_log, variantProperties_log]
    · rw [soft_log, variableModes_log]
  | container => exact .of_log rfl
  | text => exact .of_log rfl
  | vector => exact .of_log rfl

theorem observe_remarks (d : Document) (n : Node) :
    Remarks (d.observe n) (d.ownWarnings n.label) := by
  rw [observe_eq]
  refine .after rfl fun k hk => .after rfl fun name hname => .after rfl fun id hid => ?_
  refine .after (d.styleOf_log n k) fun css _ => ?_
  have h := d.factsByKind_remarks (f := ⟨name, id, css, none, none, none, none⟩) hk hname hid
  exact h.before fun _ => bind_log_nil rfl fun _ => rfl

end Document

end DesignComponents
