import DesignComponents.Component.Assemble
import DesignComponents.Proofs.Document.Query
import DesignComponents.Proofs.Document.Warnings

/-!
The definitions that nodes have of their own.
-/

namespace DesignComponents

namespace Schema

def parsed (raw : Json) : Schema := (parse raw).result.toOption.getD []

variable {raw : Json} {fs : List (String × Json)} {s : Schema}

theorem parse_eq_parsed (h : Shape.tableOf Shape.propertyDefinition raw = true) :
    (parse raw).result = .ok (parsed raw) := by
  obtain ⟨s, hs⟩ := (parse_yields h).exists_ok
  simp [parsed, hs, Except.toOption]

theorem parseFields_keys (h : (parseFields fs).result = .ok s) :
    (OrderedMap.keys s).Sublist (fs.map Prod.fst) := by
  induction fs generalizing s with
  | nil =>
    obtain rfl := Except.ok.inj h
    exact .slnil
  | cons f fs ih =>
    simp only [parseFields, Traced.bind_result, bind_eq_ok, Traced.pure_result] at h
    obtain ⟨def?, -, ds, hds, h⟩ := h
    obtain rfl := Except.ok.inj h
    cases def? with
    | none => exact (ih hds).cons f.1
    | some p => exact (ih hds).cons_cons f.1

theorem parsed_nodup (h : Shape.tableOf Shape.propertyDefinition raw = true) :
    (OrderedMap.keys (parsed raw)).Nodup := by
  obtain ⟨fs, rfl, -⟩ := Shape.exists_of_tableOf h
  exact (parseFields_keys (parse_eq_parsed h)).nodup (Shape.nodup_of_tableOf h)

end Schema

namespace Node

variable {n : Node}

def rawDefinitions (n : Node) : Json :=
  (n.value.lookup? "componentPropertyDefinitions").getD .null

theorem IsScene.get_rawDefinitions (hn : n.IsScene) :
    n.value.get "componentPropertyDefinitions" = .ok n.rawDefinitions := by
  obtain ⟨raw, hraw, -⟩ := Shape.record_get "componentPropertyDefinitions" hn.node rfl
  rw [hraw, rawDefinitions, Json.get_eq_ok hraw]

theorem IsScene.rawDefinitions (hn : n.IsScene) (h : n.rawDefinitions.isTruthy = true) :
    Shape.tableOf Shape.propertyDefinition n.rawDefinitions = true := by
  obtain ⟨raw, hraw, hshape⟩ := Shape.record_get "componentPropertyDefinitions" hn.node rfl
  obtain rfl := Except.ok.inj (hraw.symm.trans hn.get_rawDefinitions)
  exact hshape.resolve_left fun hnull => by simp [hnull] at h

end Node

namespace Document

variable {d : Document} {n : Node}

/-- The definitions of a node of the document that has any. -/
def declared? (d : Document) (n : Node) : Option Schema :=
  if d.owns n.label && n.rawDefinitions.isTruthy then some (Schema.parsed n.rawDefinitions)
  else none

def definitions (d : Document) (n : Node) : Schema := (d.declared? n).getD []

theorem declared?_eq (d : Document) (hn : n.IsScene) :
    (d.propertyDefinitions n).soft.result = .ok (d.declared? n) := by
  have hends := d.require_ends hn
  rw [declared?, owns_eq, propertyDefinitions]
  cases hreq : d.require n with
  | error e =>
    rw [hreq] at hends
    obtain ⟨id, rfl⟩ := hends
    rfl
  | ok id =>
    simp only [Traced.lift_ok_bind, hn.get_rawDefinitions, Except.isOk, Except.toBool,
      Bool.true_and]
    by_cases h : n.rawDefinitions.isTruthy
    · have hparse := Schema.parse_eq_parsed (hn.rawDefinitions h)
      simp [h, Traced.soft, hparse]
    · simp [h, Traced.soft]

theorem ownSchema_eq (d : Document) (hn : n.IsScene) :
    (d.ownSchema n).result = .ok (d.definitions n) := by
  simp [ownSchema, declared?_eq d hn, definitions]

theorem definitions_nodup (d : Document) (hn : n.IsScene) :
    (OrderedMap.keys (d.definitions n)).Nodup := by
  rw [definitions, declared?]
  split
  case isTrue h =>
    exact Schema.parsed_nodup (hn.rawDefinitions (Bool.and_eq_true_iff.1 h).2)
  case isFalse => exact .nil

/-- What the index holds is the document's own, so its data alone decides. -/
theorem IsTyped.declared?_eq (hd : d.IsTyped) (h : d.Holds n) : d.declared? n =
    if n.rawDefinitions.isTruthy then some (Schema.parsed n.rawDefinitions) else none := by
  obtain ⟨s, -, hreq⟩ := hd.require_eq h
  simp [declared?, owns_eq, hreq, Except.isOk, Except.toBool]

end Document

end DesignComponents
