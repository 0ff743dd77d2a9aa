import DesignComponents.Component.Assemble
import DesignComponents.Proofs.Document.Query
import DesignComponents.Proofs.Markup.Printable
import DesignComponents.Proofs.Outline.Pruned

/-!
What a component has to be for a component to be assembled from it.
-/

namespace DesignComponents

namespace Node

variable {n : Node}

open Shape

def idText (n : Node) : String := n.fieldText "id"

theorem idText_of_get {s : String} (h : n.value.get "id" = .ok (.str s)) : n.idText = s :=
  fieldText_of_get h

theorem IsScene.getOr_id (hn : n.IsScene) :
    n.value.getOr "id" (.str "") = .ok (.str n.idText) :=
  hn.getOr_text "id" rfl

theorem IsScene.head_scene (hn : n.IsScene) {m : Node} {ms : List Node}
    (h : n.children = m :: ms) : m.IsScene :=
  (hn.mem_children (h ▸ .head ms : m ∈ n.children)).1

end Node

namespace Document

/-- The first variant of a set, a component. -/
structure Varies (root variant : Node) : Prop where
  set : root.kind = .ok .componentSet
  first : root.children.head? = some variant
  component : variant.kind = .ok .component

/-- The first instance in the first variant of a set. -/
inductive Displays (root : Node) : Node → Prop
  | intro {variant shown : Node} {pre post : List Node} : Varies root variant →
      variant.children = pre ++ shown :: post → (∀ n ∈ pre, n.kind ≠ .ok .instance_) →
      shown.kind = .ok .instance_ → Displays root shown

/-- What a node lacks that a component is assembled from, the first thing that it lacks. -/
inductive Lacks (root : Node) : String → Prop
  | set : root.kind ≠ .ok .componentSet → Lacks root "Selection is not a Component Set"
  | variant : root.kind = .ok .componentSet →
      (∀ variant : Node, root.children.head? = some variant → variant.kind ≠ .ok .component) →
      Lacks root "First variant is not a Component"
  | instance_ {variant : Node} : Varies root variant →
      (∀ n : Node, n ∈ variant.children → n.kind ≠ .ok .instance_) →
      Lacks root "No instance node in the Component"

/-- The set's first variant is a component, and the first instance in it shows a component of the
document. -/
inductive Wraps (d : Document) (root : Node) : Node → Prop
  | intro {variant shown main : Node} {others pre post : List Node} {c : MainComponent} :
      root.kind = .ok .componentSet → root.children = variant :: others →
      variant.kind = .ok .component → variant.children = pre ++ shown :: post →
      (∀ n ∈ pre, n.kind ≠ .ok .instance_) → shown.kind = .ok .instance_ →
      (d.mainComponent shown).soft.result = .ok (some c) → c.node = some main →
      Wraps d root main

variable {d : Document} {root main shown variant : Node} {message : String}

@[simp] theorem refuse_result {α : Type} (r : Refusal) :
    (refuse r : Traced α).result = .error (.refused r) := rfl

theorem firstVariant?_eq (h : root.IsScene) : firstVariant? root = .ok root.children.head? := by
  obtain ⟨children, hc, hshape⟩ := Shape.record_get "children" h.node rfl
  rw [firstVariant?, hc, ok_bind]
  by_cases htruthy : children.isTruthy
  · obtain ⟨xs, rfl, -⟩ :=
      Shape.exists_of_listOf (hshape.resolve_left (by rintro rfl; simp at htruthy))
    simp only [htruthy, Bool.not_true, Bool.false_eq_true, if_false, pure_eq_ok]
    cases hchildren : root.children with
    | nil => rfl
    | cons m ms =>
      obtain ⟨fs, hfs, -⟩ := Shape.exists_of_record (h.head_scene hchildren).node
      simp [hfs, Json.kind]
  · have hnil : root.children = [] := by
      obtain ⟨place, v, rfl, -⟩ := h
      rw [Node.value_ofJson] at hc
      rw [Node.children_ofJson, Json.get_eq_ok hc]
      exact Node.childrenOf_of_falsy (by simpa using htruthy)
    simp [htruthy, hnil]

theorem firstInstance?_append {pre post : List Node}
    (hpre : ∀ n ∈ pre, n.IsScene ∧ n.kind ≠ .ok .instance_) (h : shown.kind = .ok .instance_) :
    firstInstance? (pre ++ shown :: post) = .ok (some shown) := by
  induction pre with
  | nil => simp [firstInstance?, h]
  | cons n pre ih =>
    obtain ⟨hn, hkind⟩ := hpre n (.head _)
    obtain ⟨k, hk, -⟩ := hn.kind_yields
    have hne : k ≠ .instance_ := fun hki => hkind (hki ▸ hk)
    simp only [List.cons_append, firstInstance?, hk, ok_bind, if_neg hne]
    exact ih fun m hm => hpre m (.tail _ hm)

theorem firstInstance?_none {ns : List Node}
    (h : ∀ n ∈ ns, n.IsScene ∧ n.kind ≠ .ok .instance_) : firstInstance? ns = .ok none := by
  induction ns with
  | nil => rfl
  | cons n ns ih =>
    obtain ⟨hn, hkind⟩ := h n (.head _)
    obtain ⟨k, hk, -⟩ := hn.kind_yields
    have hne : k ≠ .instance_ := fun hki => hkind (hki ▸ hk)
    simp only [firstInstance?, hk, ok_bind, if_neg hne]
    exact ih fun m hm => h m (.tail _ hm)

theorem exists_first_instance (ns : List Node) :
    (∀ n ∈ ns, n.kind ≠ .ok .instance_) ∨ ∃ pre shown post, ns = pre ++ shown :: post ∧
      (∀ n ∈ pre, n.kind ≠ .ok .instance_) ∧ shown.kind = .ok .instance_ := by
  induction ns with
  | nil => exact .inl (by simp)
  | cons n ns ih =>
    by_cases hn : n.kind = .ok .instance_
    · exact .inr ⟨[], n, ns, rfl, by simp, hn⟩
    rcases ih with hnone | ⟨pre, shown, post, rfl, hpre, hshown⟩
    · exact .inl (List.forall_mem_cons.2 ⟨hn, hnone⟩)
    · exact .inr ⟨n :: pre, shown, post, rfl, List.forall_mem_cons.2 ⟨hn, hpre⟩, hshown⟩

theorem lacks_or_displays (root : Node) :
    (∃ message, Lacks root message) ∨ ∃ shown, Displays root shown := by
  by_cases hset : root.kind = .ok .componentSet
  case neg => exact .inl ⟨_, .set hset⟩
  by_cases hvariant : ∃ variant, Varies root variant
  case neg =>
    refine .inl ⟨_, .variant hset ?_⟩
    intro variant hfirst hcomponent
    exact hvariant ⟨variant, hset, hfirst, hcomponent⟩
  obtain ⟨variant, hvaries⟩ := hvariant
  rcases exists_first_instance variant.children with hnone | ⟨pre, shown, post, hs, hpre, hshown⟩
  · exact .inl ⟨_, .instance_ hvaries hnone⟩
  · exact .inr ⟨shown, .intro hvaries hs hpre hshown⟩

theorem Varies.scene (h : Varies root variant) (hroot : root.IsScene) : variant.IsScene :=
  (hroot.mem_children (List.mem_of_head? h.first)).1

theorem Displays.scene (h : Displays root shown) (hroot : root.IsScene) : shown.IsScene := by
  obtain ⟨hvaries, hchildren, -, -⟩ := h
  exact ((hvaries.scene hroot).mem_children (hchildren ▸ by simp)).1

theorem Varies.wrapped_eq (h : Varies root variant) (hroot : root.IsScene) {shown? : Option Node}
    (hshown : firstInstance? variant.children = .ok shown?) (hs : ∀ n ∈ shown?, Node.IsScene n) :
    (d.wrapped root).result =
      match shown? with
      | none => .error (.refused .noInstance)
      | some shown => (d.mainComponent shown).soft.result >>= fun main =>
          match main.bind MainComponent.node with
          | none => .error (.refused (.noMainComponent (.str (shown.fieldText "name"))))
          | some node => .ok (.str root.idText, node) := by
  obtain ⟨children, hc, hshape⟩ := Shape.record_get "children" (h.scene hroot).node rfl
  obtain ⟨xs, hxs, -⟩ := Shape.elementsOrNone_listOf hshape
  simp only [wrapped, Traced.bind_result, Traced.lift_result, h.set, ok_bind, ne_eq,
    not_true_eq_false, if_false, hroot.getOr_id, Json.key_str, firstVariant?_eq hroot, h.first,
    h.component, hc, hxs, hshown]
  cases shown? with
  | none => rfl
  | some shown =>
    simp only [Traced.bind_result]
    congr 1
    funext main
    cases main.bind MainComponent.node with
    | none => simp [(hs shown rfl).getOr_text "name" rfl]
    | some node => rfl

theorem Displays.wrapped_eq (h : Displays root shown) (hroot : root.IsScene) :
    (d.wrapped root).result = (d.mainComponent shown).soft.result >>= fun main =>
      match main.bind MainComponent.node with
      | none => .error (.refused (.noMainComponent (.str (shown.fieldText "name"))))
      | some node => .ok (.str root.idText, node) := by
  have hs := h.scene hroot
  obtain @⟨variant, _, pre, post, hvaries, hchildren, hpre, hinstance⟩ := h
  have hfirst : firstInstance? variant.children = .ok (some shown) := by
    rw [hchildren]
    refine firstInstance?_append (fun n hn => ⟨?_, hpre n hn⟩) hinstance
    exact ((hvaries.scene hroot).mem_children (hchildren ▸ List.mem_append_left _ hn)).1
  exact hvaries.wrapped_eq hroot hfirst (by simpa using hs)

theorem Lacks.wrapped_eq (h : Lacks root message) (hroot : root.IsScene) :
    ∃ r, (d.wrapped root).result = .error (.refused r) ∧ r.message = message := by
  obtain ⟨k, hk, -⟩ := hroot.kind_yields
  cases h with
  | set hset =>
    have hne : k ≠ .componentSet := fun h => hset (h ▸ hk)
    exact ⟨.notComponentSet, by simp [wrapped, hk, hne], rfl⟩
  | variant hset hvariant =>
    refine ⟨.firstVariantNotComponent, ?_, rfl⟩
    cases hfirst : root.children.head? with
    | none => simp [wrapped, hset, hroot.getOr_id, firstVariant?_eq hroot, hfirst]
    | some variant =>
      obtain ⟨k, hk, -⟩ := (hroot.mem_children (List.mem_of_head? hfirst)).1.kind_yields
      have hne : k ≠ .component := fun h => hvariant variant hfirst (h ▸ hk)
      simp [wrapped, hset, hroot.getOr_id, firstVariant?_eq hroot, hfirst, hk, hne]
  | instance_ hvaries hnone =>
    have hscene := hvaries.scene hroot
    have hfirst := firstInstance?_none fun n hn => ⟨(hscene.mem_children hn).1, hnone n hn⟩
    exact ⟨.noInstance, hvaries.wrapped_eq hroot hfirst (by simp), rfl⟩

theorem Displays.wraps (h : Displays root shown) {c : MainComponent}
    (hc : (d.mainComponent shown).soft.result = .ok (some c)) (hmain : c.node = some main) :
    d.Wraps root main := by
  obtain ⟨⟨hset, hfirst, hcomponent⟩, hchildren, hpre, hinstance⟩ := h
  obtain ⟨others, hroot⟩ := List.head?_eq_some_iff.1 hfirst
  exact .intro hset hroot hcomponent hchildren hpre hinstance hc hmain

theorem Wraps.wrapped_eq (hroot : root.IsScene) (h : d.Wraps root main) :
    (d.wrapped root).result = .ok (.str root.idText, main) := by
  obtain ⟨hset, hchildren, hvariant, hshown, hpre, hinstance, hc, hnode⟩ := h
  have hvaries : Varies root _ := ⟨hset, by rw [hchildren, List.head?_cons], hvariant⟩
  rw [(Displays.intro hvaries hshown hpre hinstance).wrapped_eq hroot, hc]
  simp [hnode]

theorem wrapped_ends (hd : d.IsTyped) (hroot : root.IsScene) :
    Ends Fault.IsRefusal (d.wrapped root).result fun p =>
      p.1 = .str root.idText ∧ d.Wraps root p.2 ∧ d.Holds p.2 := by
  rcases lacks_or_displays root with ⟨message, hlacks⟩ | ⟨shown, hshown⟩
  · obtain ⟨r, hr, -⟩ := hlacks.wrapped_eq (d := d) hroot
    rw [hr]
    exact ⟨r, rfl⟩
  · obtain ⟨main?, hmain, hholds⟩ :=
      (mainComponent_ends hd (hshown.scene hroot)).soft (by simp)
    rw [hshown.wrapped_eq hroot, hmain, ok_bind]
    cases hnode : main?.bind MainComponent.node with
    | none => exact ⟨_, rfl⟩
    | some main =>
      obtain ⟨c, rfl, hc⟩ := Option.bind_eq_some_iff.1 hnode
      exact ⟨rfl, hshown.wraps hmain hc, hholds c rfl main hc⟩

end Document

end DesignComponents
