import DesignComponents.Proofs.Component.Ascent
import DesignComponents.Proofs.Document.Ownership

/-!
Why a node is not made into a component. Its own lacks are told; those of the nodes above it that
are entered for their definitions are not, and what is made of the node is the same with them.
-/

namespace DesignComponents.Document

/-- What a node lacks, as told to the user: the first thing that it lacks itself, else the component
that the instance in it shows. -/
inductive Unfit (d : Document) (root : Node) : String → Prop
  | lacking {message : String} : Lacks root message → Unfit d root message
  | unknown {shown : Node} : Displays root shown →
      (¬ d.Indexes shown ∨ shown.fieldText "componentId" = "" ∨
        d.node? (.str (shown.fieldText "componentId")) = none) →
      Unfit d root ("Main component not found for instance " ++ shown.fieldText "name")

/-- The component has the set's name, and the markup of the component shown in the set. -/
structure Presents (d : Document) (root : Node) (c : Component) : Prop where
  name : c.name = .str (root.fieldText "name")
  tree : ∃ shown main, Displays root shown ∧
    d.node? (.str (shown.fieldText "componentId")) = some main ∧
    (d.convert main).result = .ok c.tree

variable {d : Document} {root main shown n : Node} {message : String}

theorem shown?_eq_none : d.shown? n = none ↔
    n.fieldText "componentId" = "" ∨ d.node? (.str (n.fieldText "componentId")) = none := by
  rw [shown?]
  split
  case isTrue h => simp [h]
  case isFalse h => simp [h]

theorem node?_of_shown? (h : d.shown? n = some main) :
    d.node? (.str (n.fieldText "componentId")) = some main := by
  rw [shown?] at h
  split at h
  · cases h
  · exact h

/-- The node of an instance's component is at hand if the index holds the instance and the node. -/
theorem mainComponent_soft (hd : d.IsTyped) (hplain : d.IsPlain) (hn : n.IsScene)
    (hmeets : d.Meets n) :
    Yields (d.mainComponent n).soft.result fun r => ∀ main,
      r.bind MainComponent.node = some main ↔ d.Indexes n ∧ d.shown? n = some main := by
  by_cases hindexed : d.Indexes n
  · obtain ⟨k, hk⟩ := hplain.require_of_indexes hindexed
    obtain ⟨r, hr, hshown⟩ := mainComponent_yields hd hn hk
    refine ⟨r, by simp [Traced.soft, hr], ?_⟩
    intro main
    rw [hshown]
    exact (and_iff_right hindexed).symm
  · obtain ⟨r, hr, -⟩ := (mainComponent_ends hd hn).soft (by simp)
    refine ⟨r, hr, ?_⟩
    obtain rfl := hplain.soft_eq_none hmeets hindexed hr
    simp [hindexed]

theorem Displays.meets (h : Displays root shown) (hmeets : d.Meets root) : d.Meets shown := by
  obtain ⟨hvaries, hchildren, -, -⟩ := h
  exact (hmeets.child (List.mem_of_head? hvaries.first)).child (hchildren ▸ by simp)

section

variable (hd : d.IsTyped) (hplain : d.IsPlain) (hroot : root.IsScene) (hmeets : d.Meets root)

include hd hplain hroot hmeets

theorem Unfit.wrapped_eq (h : d.Unfit root message) :
    ∃ r, (d.wrapped root).result = .error (.refused r) ∧ r.message = message := by
  cases h with
  | lacking h => exact h.wrapped_eq hroot
  | @unknown shown h hunknown =>
    obtain ⟨r, hr, hmain⟩ := mainComponent_soft hd hplain (h.scene hroot) (h.meets hmeets)
    have hnone : r.bind MainComponent.node = none := by
      rw [Option.eq_none_iff_forall_ne_some]
      intro main hnode
      obtain ⟨hindexed, hshown⟩ := (hmain main).1 hnode
      rcases hunknown with hforeign | hunknown
      · exact hforeign hindexed
      · simp [shown?_eq_none.2 hunknown] at hshown
    refine ⟨.noMainComponent (.str (shown.fieldText "name")), ?_, rfl⟩
    rw [h.wrapped_eq hroot, hr, ok_bind, hnone]

/-- A node that lacks nothing has a component to be wrapped. -/
theorem unfit_or_wrapped : (∃ message, d.Unfit root message) ∨
    ∃ shown main, Displays root shown ∧ d.shown? shown = some main ∧
      (d.wrapped root).result = .ok (.str root.idText, main) := by
  rcases lacks_or_displays root with ⟨message, h⟩ | ⟨shown, h⟩
  · exact .inl ⟨message, .lacking h⟩
  obtain ⟨r, hr, hmain⟩ := mainComponent_soft hd hplain (h.scene hroot) (h.meets hmeets)
  by_cases hindexed : d.Indexes shown
  case neg => exact .inl ⟨_, .unknown h (.inl hindexed)⟩
  cases hshown : d.shown? shown with
  | none => exact .inl ⟨_, .unknown h (.inr (shown?_eq_none.1 hshown))⟩
  | some main =>
    refine .inr ⟨shown, main, h, hshown, ?_⟩
    rw [h.wrapped_eq hroot, hr, ok_bind, (hmain main).2 ⟨hindexed, hshown⟩]

end

namespace Assembles

variable {seen seen' : Finset String} {calls : List Node} {r : Except Fault Component}

theorem of_refused {e : Refusal} (h : d.Assembles seen root seen' calls r)
    (hw : (d.wrapped root).result = .error (.refused e)) : r = .error (.refused e) := by
  cases h with
  | refused hw' => exact congrArg _ (Except.error.inj (hw'.symm.trans hw))
  | declared hw' | inherited hw' => cases hw'.symm.trans hw

/-- Wherever the definitions come from, the rest of the component does not. -/
theorem of_wrapped {id : Key} (h : d.Assembles seen root seen' calls r) (hroot : root.IsScene)
    (hmain : main.IsScene) (hw : (d.wrapped root).result = .ok (id, main)) :
    Yields r fun c => ∃ s, d.Combined root main s c := by
  have hcombined {main' : Node} {id' : Key} {s : Schema} {c : Component}
      (hw' : (d.wrapped root).result = .ok (id', main'))
      (hc : (d.combine root main' s).result = .ok c) : d.Combined root main s c := by
    obtain ⟨-, rfl⟩ := Prod.mk.inj (Except.ok.inj (hw'.symm.trans hw))
    obtain ⟨c', hc', h⟩ := combine_yields d hroot hmain s
    exact Except.ok.inj (hc'.symm.trans hc) ▸ h
  cases h with
  | refused hw' => cases hw'.symm.trans hw
  | declared hw' _ hc | inherited hw' _ _ hc => exact ⟨_, rfl, _, hcombined hw' hc⟩

theorem wrapped_of_above (h : d.Assembles seen root seen' (root :: calls) r) {p : Node}
    (hp : p ∈ calls) : ∃ main, (d.wrapped root).result = .ok main := by
  cases h with
  | refused | declared => simp at hp
  | inherited hw => exact ⟨_, hw⟩

end Assembles

theorem Combined.presents {s : Schema} {c : Component} (h : d.Combined root main s c)
    (hdisplays : Displays root shown) (hshown : d.shown? shown = some main) : d.Presents root c :=
  ⟨h.name, shown, main, hdisplays, node?_of_shown? hshown, h.tree⟩

section

variable (hd : d.IsTyped) (hplain : d.IsPlain) (hroot : root.IsScene) (hmeets : d.Meets root)

include hd hplain hroot hmeets

theorem Unfit.assemble_eq (h : d.Unfit root message) :
    ∃ r, (d.assemble root).result = .error (.refused r) ∧ r.message = message := by
  obtain ⟨r, hr, hmessage⟩ := h.wrapped_eq hd hplain hroot hmeets
  obtain ⟨seen, calls, hassembles⟩ := assemble_assembles hd hroot
  exact ⟨r, hassembles.of_refused hr, hmessage⟩

/-- What is wrapped is presented, whatever the assembly is entered for on the way. -/
theorem unfit_or_presents : (∃ message, d.Unfit root message) ∨
    Yields (d.assemble root).result (d.Presents root) := by
  rcases unfit_or_wrapped hd hplain hroot hmeets with hunfit | ⟨shown, main, hs, hshown, hw⟩
  · exact .inl hunfit
  obtain ⟨seen, calls, hassembles⟩ := assemble_assembles hd hroot
  have hmain := hd.scene ⟨_, node?_of_shown? hshown⟩
  apply Or.inr
  apply (hassembles.of_wrapped hroot hmain hw).mono
  rintro c ⟨s, hc⟩
  exact hc.presents hs hshown

end

/-- The assembly fails if the node is unfit, as it tells, and not otherwise. Where it is entered for
nodes above, be they unfit or not, it gives what the node presents. -/
theorem assemble_refuses {file variableFile : Json} (hfile : Shape.file file = true)
    (hvariables : Shape.orNull Shape.variableFile variableFile = true)
    (hd : ofJson file variableFile = .ok d) (hroot : root.IsScene) (hmeets : d.Meets root) :
    (∀ message, (∃ r, (d.assemble root).result = .error (.refused r) ∧ r.message = message) ↔
      d.Unfit root message) ∧
    ((∀ message, ¬ d.Unfit root message) → Yields (d.assemble root).result (d.Presents root)) ∧
    ∀ seen calls p, d.Assembles ∅ root seen (root :: calls) (d.assemble root).result →
      p ∈ calls → Yields (d.assemble root).result (d.Presents root) := by
  have htyped := typed_of_file hfile hvariables hd
  have hplain := plain_of_file hfile hd
  have hfit := unfit_or_presents htyped hplain hroot hmeets
  refine ⟨?_, ?_, ?_⟩
  · intro message
    constructor
    · rintro ⟨r, hr, rfl⟩
      rcases hfit with ⟨message, hunfit⟩ | ⟨c, hc, -⟩
      · obtain ⟨r', hr', rfl⟩ := hunfit.assemble_eq htyped hplain hroot hmeets
        obtain rfl := Fault.refused.inj (Except.error.inj (hr.symm.trans hr'))
        exact hunfit
      · cases hr.symm.trans hc
    · intro hunfit
      exact hunfit.assemble_eq htyped hplain hroot hmeets
  · intro hnone
    exact hfit.resolve_left fun ⟨message, hunfit⟩ => hnone message hunfit
  · intro seen calls p habove hp
    obtain ⟨main, hw⟩ := habove.wrapped_of_above hp
    apply hfit.resolve_left
    rintro ⟨message, hunfit⟩
    obtain ⟨r, hr, -⟩ := hunfit.wrapped_eq htyped hplain hroot hmeets
    cases hr.symm.trans hw

/-- A set that shows a component in a frame. -/
def framedSets : Json :=
  let scene (id type : String) (own : List (String × Json)) (children : List Json) : Json :=
    .obj ([("id", .str id), ("type", .str type), ("children", .arr children)] ++ own)
  scene "1" "COMPONENT_SET" [("name", .str "Card")] [
    scene "1:1" "COMPONENT" [] [scene "1:2" "INSTANCE" [("componentId", .str "2:1")] []],
    scene "2" "FRAME" [] [scene "2:1" "COMPONENT" [] []]]

theorem assemble_refuses_framed :
    let root := Node.ofJson (some []) framedSets
    let frame := Node.ofJson (some [1]) (.obj [("id", .str "2"), ("type", .str "FRAME"),
      ("children", .arr [.obj [("id", .str "2:1"), ("type", .str "COMPONENT"),
        ("children", .arr [])]])])
    ∃ d c, ofJson (.obj [("document", framedSets)]) .null = .ok d ∧
      (d.assemble root).result = .ok c ∧ d.Presents root c ∧
      ∃ r, (d.assemble frame).result = .error (.refused r) ∧
        r.message = "Selection is not a Component Set" := by
  intro root frame
  have hrun : (ofJson (.obj [("document", framedSets)]) .null >>= fun d =>
      (d.assemble root).result.map fun _ => ()).toOption = some () := by
    decide +kernel
  obtain ⟨d, hd, hrun⟩ := bind_eq_ok.1 (toOption_eq_some.1 hrun)
  obtain ⟨c, hc, -⟩ := map_eq_ok.1 hrun
  obtain ⟨root', hroot', hd', -⟩ := root_of_ofJson hd
  obtain rfl : framedSets = root' := Except.ok.inj hroot'
  have hmeets : d.Meets root := .inl ⟨_, Tree.root_mem _, hd'⟩
  have hroot : root.IsScene := ⟨some [], framedSets, rfl, by decide⟩
  have hframe : frame ∈ root.children := .tail _ (.head _)
  obtain ⟨hrefuses, hpresents, -⟩ := assemble_refuses (by decide) (by decide) hd hroot hmeets
  obtain ⟨hframed, -, -⟩ := assemble_refuses (by decide) (by decide) hd
    (hroot.mem_children hframe).1 (hmeets.child hframe)
  have hfit (message : String) : ¬ d.Unfit root message := by
    intro hu
    obtain ⟨r, hr, -⟩ := (hrefuses message).2 hu
    cases hr.symm.trans hc
  obtain ⟨c', hc', hpresented⟩ := hpresents hfit
  obtain rfl := Except.ok.inj (hc.symm.trans hc')
  have hkind : frame.kind = .ok .container := rfl
  exact ⟨d, c, hd, hc, hpresented, (hframed _).2 (.lacking (.set (by simp [hkind])))⟩

end DesignComponents.Document
