import DesignComponents.Proofs.Component.Level

/-!
Chains of component sets. From each set the chain goes on to the set that the main component of its
instance belongs to, as long as that component has no definitions of its own.
-/

namespace DesignComponents.Document

/-- The main component in a set has no definitions of its own, and this is the node above it. -/
inductive Ascends (d : Document) (root p : Node) : Prop
  | intro {main : Node} : d.Wraps root main → main.rawDefinitions.isTruthy = false →
      (d.parent main).soft.result = .ok (some p) → Ascends d root p

/-- The sets of a chain from one up, and the definitions that it ends with. Those below it have the
given identifiers. -/
inductive Chain (d : Document) : List String → Node → List Node → Schema → Prop
  | declared {root main : Node} : d.Wraps root main → main.rawDefinitions.isTruthy = true →
      Chain d below root [root] (Schema.parsed main.rawDefinitions)
  | orphan {root main : Node} : d.Wraps root main → main.rawDefinitions.isTruthy = false →
      (d.parent main).soft.result = .ok none → Chain d below root [root] []
  | stopped {root p : Node} : d.Ascends root p →
      p.idText ∈ root.idText :: below ∨ maxSchemaDepth ≤ (root.idText :: below).length →
      Chain d below root [root] []
  | unfit {root p : Node} : d.Ascends root p → p.idText ∉ root.idText :: below →
      (root.idText :: below).length < maxSchemaDepth → (∀ main, ¬ d.Wraps p main) →
      Chain d below root [root] (d.definitions p)
  | above {root p : Node} : d.Ascends root p → p.idText ∉ root.idText :: below →
      (root.idText :: below).length < maxSchemaDepth →
      Chain d (root.idText :: below) p levels last → Chain d below root (root :: levels) last

variable {d : Document} {root main : Node} {below : List String} {levels : List Node}
  {last : Schema}

namespace Chain

theorem length_le (h : d.Chain below root levels last) (hb : below.length < maxSchemaDepth) :
    below.length + levels.length ≤ maxSchemaDepth := by
  induction h with
  | above _ _ hlt _ ih =>
    have := ih hlt
    simp only [List.length_cons] at this ⊢
    omega
  | _ => exact hb

/-- No two sets of a chain have the same identifier. -/
theorem nodup (h : d.Chain below root levels last) (hb : root.idText ∉ below) :
    (levels.map Node.idText).Nodup ∧ ∀ n ∈ levels, n.idText ∉ below := by
  induction h with
  | above _ hp _ _ ih =>
    obtain ⟨hnodup, hfresh⟩ := ih hp
    simp only [List.mem_cons, not_or] at hfresh
    rw [List.map_cons, List.nodup_cons, List.mem_map, List.forall_mem_cons]
    refine ⟨⟨?_, hnodup⟩, hb, fun n hn => (hfresh n hn).2⟩
    rintro ⟨n, hn, heq⟩
    exact (hfresh n hn).1 heq
  | _ => simpa using hb

end Chain

theorem Wraps.holds (hd : d.IsTyped) (hroot : root.IsScene) (h : d.Wraps root main) :
    d.Holds main := by
  have hends := wrapped_ends hd hroot
  rw [h.wrapped_eq hroot] at hends
  exact hends.2.2

theorem wrapped_refuses (hd : d.IsTyped) (hroot : root.IsScene) (h : ∀ main, ¬ d.Wraps root main) :
    ∃ r, (d.wrapped root).result = .error (.refused r) := by
  have hends := wrapped_ends hd hroot
  cases hw : (d.wrapped root).result with
  | ok p =>
    rw [hw] at hends
    exact absurd hends.2.1 (h p.2)
  | error e =>
    rw [hw] at hends
    obtain ⟨r, rfl⟩ := hends
    exact ⟨r, rfl⟩

theorem Wraps.unique (hroot : root.IsScene) {main' : Node} (h : d.Wraps root main)
    (h' : d.Wraps root main') : main = main' := by
  have heq := (h.wrapped_eq hroot).symm.trans (h'.wrapped_eq hroot)
  exact (Prod.mk.inj (Except.ok.inj heq)).2

namespace Ascends

variable {p q : Node}

theorem of_wraps (hroot : root.IsScene) (h : d.Ascends root p) (hw : d.Wraps root main) :
    main.rawDefinitions.isTruthy = false ∧ (d.parent main).soft.result = .ok (some p) := by
  obtain ⟨hw', hraw, hparent⟩ := h
  obtain rfl := hw.unique hroot hw'
  exact ⟨hraw, hparent⟩

theorem not_declared (hroot : root.IsScene) (h : d.Ascends root p) (hw : d.Wraps root main)
    (hraw : main.rawDefinitions.isTruthy = true) : False := by
  have := (h.of_wraps hroot hw).1
  simp [hraw] at this

theorem not_orphan (hroot : root.IsScene) (h : d.Ascends root p) (hw : d.Wraps root main)
    (hparent : (d.parent main).soft.result = .ok none) : False := by
  have := (h.of_wraps hroot hw).2
  simp [hparent] at this

theorem unique (hroot : root.IsScene) (h : d.Ascends root p) (h' : d.Ascends root q) : p = q := by
  obtain ⟨hw, -, hparent⟩ := h
  obtain ⟨-, hparent'⟩ := h'.of_wraps hroot hw
  exact Option.some.inj (Except.ok.inj (hparent.symm.trans hparent'))

theorem holds (hd : d.IsTyped) (hroot : root.IsScene) (h : d.Ascends root p) : d.Holds p := by
  obtain ⟨hw, -, hparent⟩ := h
  obtain ⟨r, hr, hholds⟩ := (parent_ends hd (hd.scene (hw.holds hd hroot))).soft (by simp)
  exact hholds p (Except.ok.inj (hr.symm.trans hparent))

end Ascends

namespace Chain

theorem wraps (h : d.Chain below root levels last) : ∃ main, d.Wraps root main := by
  cases h with
  | declared hw | orphan hw => exact ⟨_, hw⟩
  | stopped hup | unfit hup | above hup =>
    obtain ⟨hw, -, -⟩ := hup
    exact ⟨_, hw⟩

theorem unique (hd : d.IsTyped) (hroot : root.IsScene) {levels' : List Node} {last' : Schema}
    (h : d.Chain below root levels last) (h' : d.Chain below root levels' last') :
    levels = levels' ∧ last = last' := by
  induction h generalizing levels' last' with
  | declared hw hraw =>
    cases h' with
    | declared hw' => exact hw.unique hroot hw' ▸ ⟨rfl, rfl⟩
    | orphan hw' hraw' =>
      obtain rfl := hw.unique hroot hw'
      simp [hraw] at hraw'
    | stopped hup | unfit hup | above hup => exact (hup.not_declared hroot hw hraw).elim
  | orphan hw hraw hparent =>
    cases h' with
    | declared hw' hraw' =>
      obtain rfl := hw.unique hroot hw'
      simp [hraw] at hraw'
    | orphan => exact ⟨rfl, rfl⟩
    | stopped hup | unfit hup | above hup => exact (hup.not_orphan hroot hw hparent).elim
  | stopped hup hstop =>
    cases h' with
    | declared hw hraw => exact (hup.not_declared hroot hw hraw).elim
    | orphan hw _ hparent => exact (hup.not_orphan hroot hw hparent).elim
    | stopped => exact ⟨rfl, rfl⟩
    | unfit hup' hfresh hlt | above hup' hfresh hlt =>
      obtain rfl := hup.unique hroot hup'
      exact absurd hstop (not_or.2 ⟨hfresh, Nat.not_le.2 hlt⟩)
  | unfit hup hfresh hlt hfits =>
    cases h' with
    | declared hw hraw => exact (hup.not_declared hroot hw hraw).elim
    | orphan hw _ hparent => exact (hup.not_orphan hroot hw hparent).elim
    | stopped hup' hstop =>
      obtain rfl := hup.unique hroot hup'
      exact absurd hstop (not_or.2 ⟨hfresh, Nat.not_le.2 hlt⟩)
    | unfit hup' => exact hup.unique hroot hup' ▸ ⟨rfl, rfl⟩
    | above hup' _ _ hchain =>
      obtain rfl := hup.unique hroot hup'
      exact absurd hchain.wraps (not_exists.2 hfits)
  | above hup hfresh hlt hchain ih =>
    cases h' with
    | declared hw hraw => exact (hup.not_declared hroot hw hraw).elim
    | orphan hw _ hparent => exact (hup.not_orphan hroot hw hparent).elim
    | stopped hup' hstop =>
      obtain rfl := hup.unique hroot hup'
      exact absurd hstop (not_or.2 ⟨hfresh, Nat.not_le.2 hlt⟩)
    | unfit hup' _ _ hfits =>
      obtain rfl := hup.unique hroot hup'
      exact absurd hchain.wraps (not_exists.2 hfits)
    | above hup' _ _ hchain' =>
      obtain rfl := hup.unique hroot hup'
      obtain ⟨rfl, rfl⟩ := ih (hd.scene (hup.holds hd hroot)) hchain'
      exact ⟨rfl, rfl⟩

theorem keys_nodup (hd : d.IsTyped) (hroot : root.IsScene)
    (h : d.Chain below root levels last) :
    ∀ s ∈ levels.map d.definitions ++ [last], (OrderedMap.keys s).Nodup := by
  induction h with
  | declared hw hraw =>
    have hmain := hd.scene (hw.holds hd hroot)
    simpa using ⟨definitions_nodup d hroot, Schema.parsed_nodup (hmain.rawDefinitions hraw)⟩
  | orphan | stopped => simpa using definitions_nodup d hroot
  | unfit hup =>
    have hp := hd.scene (hup.holds hd hroot)
    simpa using ⟨definitions_nodup d hroot, definitions_nodup d hp⟩
  | above hup _ _ _ ih =>
    rw [List.map_cons, List.cons_append, List.forall_mem_cons]
    exact ⟨definitions_nodup d hroot, ih (hd.scene (hup.holds hd hroot))⟩

end Chain

/-- A component assembled from a set, with the definitions of a chain. -/
structure Assembled (d : Document) (below : List String) (root : Node) (c : Component) : Prop where
  name : ∃ s, c.name = .str s
  tree : c.tree.IsPrintable
  schema : ∃ levels last, d.Chain below root levels last ∧
    c.schema = OrderedMap.mergeAll (levels.map d.definitions ++ [last])

/-- The definitions that a chain adds to those of its first set. -/
def IsInherited (d : Document) (below : List String) (root : Node) (s : Schema) : Prop :=
  ∃ levels last, d.Chain below root (root :: levels) last ∧
    s = OrderedMap.mergeAll (levels.map d.definitions ++ [last])

variable {ascend : Option (List Key → Node → Traced Component)} {seen : List Key} {n : Nat}

theorem assembleLevel_refuses (hd : d.IsTyped) (hroot : root.IsScene)
    (h : ∀ main, ¬ d.Wraps root main) :
    ∃ r, (d.assembleLevel ascend seen root).result = .error (.refused r) := by
  obtain ⟨r, hr⟩ := wrapped_refuses hd hroot h
  exact ⟨r, by simp [assembleLevel, hr]⟩

theorem assembleLevel_yields (hd : d.IsTyped) (hroot : root.IsScene) (hw : d.Wraps root main)
    (hinherited : main.rawDefinitions.isTruthy = false →
      Yields (d.inheritedSchema ascend (.str root.idText :: seen) main).result
        (d.IsInherited below root)) :
    Yields (d.assembleLevel ascend seen root).result (d.Assembled below root) := by
  have hholds := hw.holds hd hroot
  have hmain := hd.scene hholds
  have hrest (s : Schema) (hs : d.IsInherited below root s) :
      Yields (d.combine root main s).result (d.Assembled below root) := by
    apply (combine_yields d hroot hmain s).mono
    intro c hc
    obtain ⟨levels, last, hchain, rfl⟩ := hs
    exact ⟨⟨_, hc.name⟩, hc.printable, root :: levels, last, hchain, hc.schema⟩
  rw [assembleLevel_eq hroot hmain (hw.wrapped_eq hroot), hd.declared?_eq hholds]
  by_cases hraw : main.rawDefinitions.isTruthy
  · rw [if_pos hraw]
    exact hrest _ ⟨[], _, .declared hw hraw, rfl⟩
  · rw [if_neg hraw]
    simp only [Bool.not_eq_true] at hraw
    exact (hinherited hraw).bind fun s hs => hrest s hs

theorem contains_map_str (ss : List String) (s : String) :
    (ss.map Key.str).contains (.str s) = ss.contains s := by
  induction ss with
  | nil => rfl
  | cons t ss ih => simp only [List.map_cons, List.contains_cons, Key.beq_str, ih]

/-- How a chain goes on if it may have so many sets more. -/
def ascent (d : Document) : Nat → Option (List Key → Node → Traced Component)
  | 0 => none
  | n + 1 => some (d.assembleUpTo n)

theorem assembleUpTo_eq (d : Document) (n : Nat) :
    d.assembleUpTo n = d.assembleLevel (d.ascent n) := by
  cases n <;> rfl

theorem inheritedSchema_yields (hd : d.IsTyped) (hroot : root.IsScene) (hw : d.Wraps root main)
    (hraw : main.rawDefinitions.isTruthy = false)
    (hlen : (root.idText :: below).length + n = maxSchemaDepth)
    (ih : ∀ m p q, n = m + 1 → p.IsScene → d.Wraps p q →
      Yields (d.assembleUpTo m ((root.idText :: below).map .str) p).result
        (d.Assembled (root.idText :: below) p)) :
    Yields (d.inheritedSchema (d.ascent n) ((root.idText :: below).map .str) main).result
      (d.IsInherited below root) := by
  have hmain := hd.scene (hw.holds hd hroot)
  obtain ⟨p?, hparent, hp⟩ := (parent_ends hd hmain).soft (by simp)
  cases p? with
  | none =>
    rw [inheritedSchema_orphan hparent]
    exact Yields.ok_iff.2 ⟨[], [], .orphan hw hraw hparent, rfl⟩
  | some p =>
    have hholds := hp p rfl
    have hscene := hd.scene hholds
    have hup : d.Ascends root p := .intro hw hraw hparent
    rw [inheritedSchema_below hd hholds hparent]
    cases n with
    | zero => exact Yields.ok_iff.2 ⟨[], [], .stopped hup (.inr (by omega)), rfl⟩
    | succ m =>
      simp only [ascent, contains_map_str]
      by_cases hseen : p.idText ∈ root.idText :: below
      · rw [if_pos (by simpa using hseen)]
        exact Yields.ok_iff.2 ⟨[], [], .stopped hup (.inl hseen), rfl⟩
      · rw [if_neg (by simpa using hseen)]
        have hlt : (root.idText :: below).length < maxSchemaDepth := by omega
        by_cases hfits : ∃ q, d.Wraps p q
        · obtain ⟨q, hq⟩ := hfits
          obtain ⟨c, hc, hassembled⟩ := ih m p q rfl hscene hq
          obtain ⟨levels, last, hchain, hschema⟩ := hassembled.schema
          rw [hc]
          exact Yields.ok_iff.2 ⟨levels, last, .above hup hseen hlt hchain, hschema⟩
        · have hnone := not_exists.1 hfits
          obtain ⟨r, hr⟩ := assembleLevel_refuses hd hscene hnone
          rw [← assembleUpTo_eq] at hr
          rw [hr]
          exact Yields.ok_iff.2 ⟨[], _, .unfit hup hseen hlt hnone, rfl⟩

theorem assembleUpTo_yields (hd : d.IsTyped) (hroot : root.IsScene) (hw : d.Wraps root main)
    (hlen : (root.idText :: below).length + n = maxSchemaDepth) :
    Yields (d.assembleUpTo n (below.map .str) root).result (d.Assembled below root) := by
  induction n using Nat.strongRecOn generalizing root main below with
  | ind n ih =>
    rw [assembleUpTo_eq]
    apply assembleLevel_yields hd hroot hw
    intro hraw
    refine inheritedSchema_yields hd hroot hw hraw hlen ?_
    rintro m p q rfl hp hq
    exact ih m (by omega) hp hq (by simp at hlen ⊢; omega)

theorem assemble_yields (hd : d.IsTyped) (hroot : root.IsScene) (hw : d.Wraps root main) :
    Yields (d.assemble root).result (d.Assembled [] root) := by
  have hlen : [root.idText].length + (maxSchemaDepth - 1) = maxSchemaDepth := rfl
  exact assembleUpTo_yields hd hroot hw hlen

theorem assemble_ends (hd : d.IsTyped) (hroot : root.IsScene) :
    Ends Fault.IsRefusal (d.assemble root).result (d.Assembled [] root) := by
  by_cases h : ∃ main, d.Wraps root main
  · obtain ⟨main, hw⟩ := h
    exact (assemble_yields hd hroot hw).ends
  · obtain ⟨r, hr⟩ := assembleLevel_refuses hd hroot (not_exists.1 h)
    rw [assemble, assembleUpTo_eq, hr]
    exact ⟨r, rfl⟩

end DesignComponents.Document
