import DesignComponents.Proofs.Component.Chain
import Mathlib.Data.Finset.Card

/-!
How the assembly of a component enters itself for the sets above. The identifiers met on the way are
a set that grows with every entry; an entry is made only for an identifier not met yet, and only
while few are.
-/

namespace DesignComponents.Document

/-- The identifiers met once the node is entered. Only a component set is taken note of. -/
def met (root : Node) (seen : Finset String) : Finset String :=
  match root.kind with
  | .ok .componentSet => insert root.idText seen
  | _ => seen

/-- The definitions of a component are sought in the node above it. -/
structure Reenters (d : Document) (seen : Finset String) (main p : Node) : Prop where
  parent : (d.parent main).soft.result = .ok (some p)
  fresh : p.idText ∉ seen
  few : seen.card < maxSchemaDepth

mutual

/-- `Assembles d seen root seen' calls r`: entered for `root` with the identifiers `seen` met, the
assembly ends with `r` and with `seen'` met, having been entered for the nodes `calls` in turn. -/
inductive Assembles (d : Document) : Finset String → Node → Finset String → List Node →
    Except Fault Component → Prop
  | refused {root : Node} : (d.wrapped root).result = .error (.refused e) →
      Assembles d seen root (met root seen) [root] (.error (.refused e))
  | declared {root : Node} {id : Key} : (d.wrapped root).result = .ok (id, main) →
      (d.propertyDefinitions main).soft.result = .ok (some s) →
      (d.combine root main s).result = .ok c →
      Assembles d seen root (met root seen) [root] (.ok c)
  | inherited {root : Node} {id : Key} : (d.wrapped root).result = .ok (id, main) →
      (d.propertyDefinitions main).soft.result = .ok none →
      Inherits d (met root seen) main seen' calls s →
      (d.combine root main s).result = .ok c →
      Assembles d seen root seen' (root :: calls) (.ok c)

/-- A set above that is refused is met all the same, and has its own definitions. -/
inductive Inherits (d : Document) : Finset String → Node → Finset String → List Node →
    Schema → Prop
  | stops {p? : Option Node} : (d.parent main).soft.result = .ok p? →
      (∀ p ∈ p?, p.idText ∈ seen ∨ maxSchemaDepth ≤ seen.card) →
      Inherits d seen main seen [] []
  | above : d.Reenters seen main p → Assembles d seen p seen' calls (.ok c) →
      Inherits d seen main seen' calls c.schema
  | refused : d.Reenters seen main p → Assembles d seen p seen' calls (.error (.refused e)) →
      (d.ownSchema p).result = .ok s →
      Inherits d seen main (insert p.idText seen') calls s

end

variable {d : Document} {seen : Finset String} {root : Node}

theorem kind_of_wrapped {main : Key × Node} (h : (d.wrapped root).result = .ok main) :
    root.kind = .ok .componentSet := by
  rw [wrapped, Traced.bind_result, bind_eq_ok] at h
  obtain ⟨k, hk, h⟩ := h
  by_cases hset : k = .componentSet
  · exact hset ▸ hk
  · rw [if_pos hset] at h
    cases h

theorem met_of_wrapped {main : Key × Node} (h : (d.wrapped root).result = .ok main) :
    met root seen = insert root.idText seen := by
  rw [met, kind_of_wrapped h]

mutual

/-- Every entry takes one of the few identifiers that may still be met, and not one met before. -/
theorem Assembles.bounded {seen seen' : Finset String} {root : Node} {calls : List Node}
    {r : Except Fault Component} (hroot : root.idText ∉ seen)
    (hfew : seen.card < maxSchemaDepth) :
    Assembles d seen root seen' calls r → calls.length + seen.card ≤ maxSchemaDepth ∧
      (calls.map Node.idText).Nodup ∧ ∀ n ∈ calls, n.idText ∉ seen
  | .refused _ => by simpa using ⟨by omega, hroot⟩
  | .declared _ _ _ => by simpa using ⟨by omega, hroot⟩
  | .inherited hw _ hs _ => by
    have hcard : (met root seen).card = seen.card + 1 := by
      rw [met_of_wrapped hw, Finset.card_insert_of_notMem hroot]
    obtain ⟨hlength, hnodup, hnew⟩ := hs.bounded (by omega)
    simp only [met_of_wrapped hw, Finset.mem_insert, not_or] at hnew
    refine ⟨by simp only [List.length_cons]; omega, ?_, ?_⟩
    · rw [List.map_cons, List.nodup_cons, List.mem_map]
      refine ⟨?_, hnodup⟩
      rintro ⟨n, hn, heq⟩
      exact (hnew n hn).1 heq
    · exact List.forall_mem_cons.2 ⟨hroot, fun n hn => (hnew n hn).2⟩

theorem Inherits.bounded {seen seen' : Finset String} {main : Node} {calls : List Node}
    {s : Schema} (hfew : seen.card ≤ maxSchemaDepth) :
    Inherits d seen main seen' calls s → calls.length + seen.card ≤ maxSchemaDepth ∧
      (calls.map Node.idText).Nodup ∧ ∀ n ∈ calls, n.idText ∉ seen
  | .stops _ _ => by simpa using hfew
  | .above hup ha => ha.bounded hup.fresh hup.few
  | .refused hup ha _ => ha.bounded hup.fresh hup.few

end

theorem Reenters.unique {main p q : Node} (h : d.Reenters seen main p)
    (h' : d.Reenters seen main q) : p = q :=
  Option.some.inj (Except.ok.inj (h.parent.symm.trans h'.parent))

/-- Where the search stops it does not go on. -/
theorem Reenters.not_stops {main p : Node} {p? : Option Node} (h : d.Reenters seen main p)
    (hparent : (d.parent main).soft.result = .ok p?)
    (hstop : ∀ q ∈ p?, q.idText ∈ seen ∨ maxSchemaDepth ≤ seen.card) : False := by
  obtain rfl := Except.ok.inj (hparent.symm.trans h.parent)
  rcases hstop p rfl with hmet | hmany
  · exact h.fresh hmet
  · exact absurd h.few (Nat.not_lt.2 hmany)

mutual

theorem Assembles.unique {seen s₁ s₂ : Finset String} {root : Node} {c₁ c₂ : List Node}
    {r₁ r₂ : Except Fault Component} : Assembles d seen root s₁ c₁ r₁ →
      Assembles d seen root s₂ c₂ r₂ → s₁ = s₂ ∧ c₁ = c₂ ∧ r₁ = r₂
  | .refused h, .refused h' => by
    obtain rfl := Fault.refused.inj (Except.error.inj (h.symm.trans h'))
    exact ⟨rfl, rfl, rfl⟩
  | .refused h, .declared h' _ _ => by cases h.symm.trans h'
  | .refused h, .inherited h' _ _ _ => by cases h.symm.trans h'
  | .declared h _ _, .refused h' => by cases h.symm.trans h'
  | .inherited h _ _ _, .refused h' => by cases h.symm.trans h'
  | .declared h hs hc, .declared h' hs' hc' => by
    obtain ⟨rfl, rfl⟩ := Prod.mk.inj (Except.ok.inj (h.symm.trans h'))
    obtain rfl := Option.some.inj (Except.ok.inj (hs.symm.trans hs'))
    obtain rfl := Except.ok.inj (hc.symm.trans hc')
    exact ⟨rfl, rfl, rfl⟩
  | .declared h hs _, .inherited h' hs' _ _ => by
    obtain ⟨rfl, rfl⟩ := Prod.mk.inj (Except.ok.inj (h.symm.trans h'))
    cases hs.symm.trans hs'
  | .inherited h hs _ _, .declared h' hs' _ => by
    obtain ⟨rfl, rfl⟩ := Prod.mk.inj (Except.ok.inj (h.symm.trans h'))
    cases hs.symm.trans hs'
  | .inherited h _ hi hc, .inherited h' _ hi' hc' => by
    obtain ⟨rfl, rfl⟩ := Prod.mk.inj (Except.ok.inj (h.symm.trans h'))
    obtain ⟨rfl, rfl, rfl⟩ := hi.unique hi'
    obtain rfl := Except.ok.inj (hc.symm.trans hc')
    exact ⟨rfl, rfl, rfl⟩

theorem Inherits.unique {seen s₁ s₂ : Finset String} {main : Node} {c₁ c₂ : List Node}
    {r₁ r₂ : Schema} : Inherits d seen main s₁ c₁ r₁ → Inherits d seen main s₂ c₂ r₂ →
      s₁ = s₂ ∧ c₁ = c₂ ∧ r₁ = r₂
  | .stops _ _, .stops _ _ => ⟨rfl, rfl, rfl⟩
  | .stops h hstop, .above hup _ => (hup.not_stops h hstop).elim
  | .stops h hstop, .refused hup _ _ => (hup.not_stops h hstop).elim
  | .above hup _, .stops h hstop => (hup.not_stops h hstop).elim
  | .refused hup _ _, .stops h hstop => (hup.not_stops h hstop).elim
  | .above hup ha, .above hup' ha' => by
    obtain rfl := hup.unique hup'
    obtain ⟨rfl, rfl, h⟩ := ha.unique ha'
    obtain rfl := Except.ok.inj h
    exact ⟨rfl, rfl, rfl⟩
  | .above hup ha, .refused hup' ha' _ => by
    obtain rfl := hup.unique hup'
    cases (ha.unique ha').2.2
  | .refused hup ha _, .above hup' ha' => by
    obtain rfl := hup.unique hup'
    cases (ha.unique ha').2.2
  | .refused hup ha hs, .refused hup' ha' hs' => by
    obtain rfl := hup.unique hup'
    obtain ⟨rfl, rfl, -⟩ := ha.unique ha'
    obtain rfl := Except.ok.inj (hs.symm.trans hs')
    exact ⟨rfl, rfl, rfl⟩

end

theorem inheritedSchema_inherits {main : Node} {ids : List String} {n : Nat} (hd : d.IsTyped)
    (hmain : d.Holds main) (hids : ids.Nodup) (hlen : ids.length + n = maxSchemaDepth)
    (ih : ∀ m p, n = m + 1 → p.IsScene → p.idText ∉ ids → ∃ seen calls,
      d.Assembles ids.toFinset p seen calls (d.assembleUpTo m (ids.map .str) p).result) :
    ∃ seen calls s, (d.inheritedSchema (d.ascent n) (ids.map .str) main).result = .ok s ∧
      d.Inherits ids.toFinset main seen calls s := by
  obtain ⟨p?, hparent, hp⟩ := (parent_ends hd (hd.scene hmain)).soft (by simp)
  cases p? with
  | none => exact ⟨_, _, _, inheritedSchema_orphan hparent, .stops hparent (by simp)⟩
  | some p =>
    have hholds := hp p rfl
    have hcard := List.toFinset_card_of_nodup hids
    rw [inheritedSchema_below hd hholds hparent]
    cases n with
    | zero => exact ⟨_, _, _, rfl, .stops hparent fun q _ => .inr (by omega)⟩
    | succ m =>
      simp only [ascent, contains_map_str]
      by_cases hseen : p.idText ∈ ids
      · rw [if_pos (by simpa using hseen)]
        refine ⟨_, _, _, rfl, .stops hparent ?_⟩
        rintro q ⟨⟩
        exact .inl (List.mem_toFinset.2 hseen)
      · rw [if_neg (by simpa using hseen)]
        have hup : d.Reenters ids.toFinset main p :=
          ⟨hparent, fun h => hseen (List.mem_toFinset.1 h), by omega⟩
        obtain ⟨seen, calls, h⟩ := ih m p rfl (hd.scene hholds) hseen
        generalize (d.assembleUpTo m (ids.map .str) p).result = r at h
        cases r with
        | ok c => exact ⟨_, _, _, rfl, .above hup h⟩
        | error e =>
          have hown := ownSchema_eq d (hd.scene hholds)
          cases h with
          | refused hw => exact ⟨_, _, _, rfl, .refused hup (.refused hw) hown⟩

theorem assembleUpTo_assembles {below : List String} {n : Nat} (hd : d.IsTyped)
    (hroot : root.IsScene) (hids : (root.idText :: below).Nodup)
    (hlen : (root.idText :: below).length + n = maxSchemaDepth) :
    ∃ seen calls, d.Assembles below.toFinset root seen calls
      (d.assembleUpTo n (below.map .str) root).result := by
  induction n using Nat.strongRecOn generalizing root below with
  | ind n ih =>
    have hends := wrapped_ends hd hroot
    cases hw : (d.wrapped root).result with
    | error e =>
      rw [hw] at hends
      obtain ⟨e, rfl⟩ := hends
      have hresult : (d.assembleUpTo n (below.map .str) root).result = .error (.refused e) := by
        simp [assembleUpTo_eq, assembleLevel, hw]
      rw [hresult]
      exact ⟨_, _, .refused hw⟩
    | ok wrapped =>
      obtain ⟨id, main⟩ := wrapped
      rw [hw] at hends
      obtain ⟨rfl, -, hholds⟩ : id = .str root.idText ∧ _ := hends
      have hmain := hd.scene hholds
      have hdeclared := declared?_eq d hmain
      rw [assembleUpTo_eq, assembleLevel_eq hroot hmain hw]
      cases hs : d.declared? main with
      | some s =>
        obtain ⟨c, hc, -⟩ := combine_yields d hroot hmain s
        rw [hs] at hdeclared
        simp only [hc]
        exact ⟨_, _, .declared hw hdeclared hc⟩
      | none =>
        rw [hs] at hdeclared
        obtain ⟨seen, calls, s, hres, hinherits⟩ :=
          inheritedSchema_inherits hd hholds hids hlen fun m p hn hp hfresh =>
            ih m (by omega) hp (List.nodup_cons.2 ⟨hfresh, hids⟩) (by simp at hlen ⊢; omega)
        obtain ⟨c, hc, -⟩ := combine_yields d hroot hmain s
        rw [List.toFinset_cons, ← met_of_wrapped hw] at hinherits
        rw [List.map_cons] at hres
        simp only [hres, ok_bind, hc]
        exact ⟨_, _, .inherited hw hdeclared hinherits hc⟩

theorem assemble_assembles (hd : d.IsTyped) (hroot : root.IsScene) :
    ∃ seen calls, d.Assembles ∅ root seen calls (d.assemble root).result := by
  have hlen : [root.idText].length + (maxSchemaDepth - 1) = maxSchemaDepth := rfl
  exact assembleUpTo_assembles hd hroot (List.nodup_singleton _) hlen

/-- The assembly ends with the outcome that its entries lead to; there are few entries, and no two
for the same identifier. -/
theorem assemble_entries {file variableFile : Json} (hfile : Shape.file file = true)
    (hvariables : Shape.orNull Shape.variableFile variableFile = true)
    (hd : ofJson file variableFile = .ok d) (hroot : root.IsScene) :
    ∃ seen calls, d.Assembles ∅ root seen calls (d.assemble root).result ∧
      (∀ seen' calls' r, d.Assembles ∅ root seen' calls' r →
        calls' = calls ∧ r = (d.assemble root).result) ∧
      calls.length ≤ maxSchemaDepth ∧ (calls.map Node.idText).Nodup := by
  have htyped := typed_of_file hfile hvariables hd
  obtain ⟨seen, calls, h⟩ := assemble_assembles htyped hroot
  obtain ⟨hlength, hnodup, -⟩ := h.bounded (by simp) (by decide)
  refine ⟨seen, calls, h, ?_, by simpa using hlength, hnodup⟩
  intro seen' calls' r h'
  obtain ⟨-, hcalls, hr⟩ := h'.unique h
  exact ⟨hcalls, hr⟩

/-- Two sets with variants that show each other. -/
def mutualSets : Json :=
  let scene (id type : String) (own : List (String × Json)) (children : List Json) : Json :=
    .obj ([("id", .str id), ("type", .str type), ("children", .arr children)] ++ own)
  let shows (id component : String) : Json :=
    scene id "INSTANCE" [("componentId", .str component)] []
  scene "1" "COMPONENT_SET" [] [
    scene "1:1" "COMPONENT" [] [shows "1:2" "2:1"],
    scene "2" "COMPONENT_SET" [] [scene "2:1" "COMPONENT" [] [shows "2:2" "1:1"]]]

theorem assemble_entries_mutual :
    let root := Node.ofJson (some []) mutualSets
    ∃ d c seen calls, ofJson (.obj [("document", mutualSets)]) .null = .ok d ∧
      (d.assemble root).result = .ok c ∧ c.schema = [] ∧
      d.Assembles ∅ root seen calls (.ok c) ∧ calls.length ≤ maxSchemaDepth ∧
      (calls.map Node.idText).Nodup := by
  intro root
  have hrun : ((ofJson (.obj [("document", mutualSets)]) .null >>= fun d =>
      (d.assemble root).result.map fun c => c.schema.isEmpty).toOption) = some true := by
    decide +kernel
  obtain ⟨d, hd, hrun⟩ := bind_eq_ok.1 (toOption_eq_some.1 hrun)
  obtain ⟨c, hc, hempty⟩ := map_eq_ok.1 hrun
  have hroot : root.IsScene := ⟨some [], mutualSets, rfl, by decide⟩
  obtain ⟨seen, calls, hcalls, -, hlength, hnodup⟩ :=
    assemble_entries (by decide) (by decide) hd hroot
  exact ⟨d, c, seen, calls, hd, hc, List.isEmpty_iff.1 hempty, hc ▸ hcalls, hlength, hnodup⟩

end DesignComponents.Document
