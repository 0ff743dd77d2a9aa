import DesignComponents.Proofs.Host.Printed
import DesignComponents.Proofs.Variable.Unfolding
import Mathlib

/-!
Cycles of aliases. Resolving a variable warns of a cycle if and only if one can be reached from it;
where none can, what an alias stands for is the same on every way to it.
-/

namespace DesignComponents.Variables

/-- An alias among the values of the first variable leads to the second one. -/
inductive Link (vs : OrderedMap Key Json) : String → String → Prop
  | intro {id : String} : record? vs id = some record → (mode, v) ∈ modesOf record →
      alias? v = some (.str target) → Link vs id target

/-- Aliases lead from the variable to one from which they lead back to itself. -/
def ReachesCycle (vs : OrderedMap Key Json) (id : String) : Prop :=
  ∃ c, Relation.ReflTransGen (Link vs) id c ∧ Relation.TransGen (Link vs) c c

/-- No way from the variable leads to one of these. -/
def Avoids (vs : OrderedMap Key Json) (id : String) (path : List String) : Prop :=
  ∀ s ∈ path, ¬ Relation.ReflTransGen (Link vs) id s

/-- `Inside vs id r id' r'`: in the result `r` for `id` lies the result `r'` for `id'`. -/
inductive Inside (vs : OrderedMap Key Json) : String → Resolved → String → Resolved → Prop
  | self {id : String} : Inside vs id r id r
  | nested {id : String} : record? vs id = some record →
      ((mode, v), (mode, r)) ∈ (modesOf record).zip values → alias? v = some (.str target) →
      Inside vs target r id' r' → Inside vs id (.variable head values) id' r'

/-- `Way vs id path target`: aliases lead from `id` over all of `path`, the last one first, to
`target`. -/
inductive Way (vs : OrderedMap Key Json) (id : String) : List String → String → Prop
  | start : Way vs id [] id
  | link : Way vs id path s → Link vs s target → Way vs id (s :: path) target

section

variable {vs : OrderedMap Key Json} {path path' : List String} {id target : String}
  {r : Option Resolved}

theorem UnfoldsEach.of_mem {modes : List (String × Json)} {values : List (String × Resolved)}
    {mode : String} {v : Json} (h : UnfoldsEach vs path modes values) (hmem : (mode, v) ∈ modes)
    (hv : alias? v = some (.str target)) (hcuts : cutsEach vs path modes values = []) :
    ∃ r, Unfolds vs path target r ∧ cuts vs path target (r.getD .unresolved) = [] := by
  induction modes generalizing values with
  | nil => simp at hmem
  | cons e modes ih =>
    cases h with
    | literal hv' hvalues =>
      rw [cutsEach, List.append_eq_nil_iff] at hcuts
      rcases List.mem_cons.1 hmem with hmem | hmem
      · obtain ⟨rfl, rfl⟩ := Prod.mk.inj hmem
        simp [hv] at hv'
      · exact ih hvalues hmem hcuts.2
    | link hv' hr hvalues =>
      rw [cutsEach, List.append_eq_nil_iff, hv'] at hcuts
      rcases List.mem_cons.1 hmem with hmem | hmem
      · obtain ⟨rfl, rfl⟩ := Prod.mk.inj hmem
        obtain rfl : _ = _ := Json.str.inj (Option.some.inj (hv'.symm.trans hv))
        exact ⟨_, hr, hcuts.1⟩
      · exact ih hvalues hmem hcuts.2

theorem Unfolds.cuts_of_mem (h : Unfolds vs path id r) (hid : id ∈ path) :
    cuts vs path id (r.getD .unresolved) = [id] := by
  cases h with
  | absent | cycle => rw [cuts_getD_none, if_pos hid]
  | record hnot => exact absurd hid hnot

/-- Where nothing is cut, each alias of the variable is unfolded below it, with nothing cut. -/
theorem Unfolds.of_link (h : Unfolds vs path id r)
    (hcuts : cuts vs path id (r.getD .unresolved) = []) (hl : Link vs id target) :
    ∃ r', Unfolds vs (id :: path) target r' ∧
      cuts vs (id :: path) target (r'.getD .unresolved) = [] := by
  obtain ⟨hrec, hmem, hv⟩ := hl
  cases h with
  | absent hnone => simp [hrec] at hnone
  | cycle hid =>
    exact absurd (((Unfolds.cycle hid).cuts_of_mem hid).symm.trans hcuts) (List.cons_ne_nil _ _)
  | record _ hrec' hvalues =>
    obtain rfl : _ = _ := Option.some.inj (hrec.symm.trans hrec')
    rw [Option.getD_some, cuts, hrec] at hcuts
    exact hvalues.of_mem hmem hv hcuts

theorem Unfolds.of_reach (h : Unfolds vs path id r)
    (hcuts : cuts vs path id (r.getD .unresolved) = [])
    (hreach : Relation.ReflTransGen (Link vs) id target) : ∃ path' r', Unfolds vs path' target r' ∧
      cuts vs path' target (r'.getD .unresolved) = [] ∧ path ⊆ path' := by
  induction hreach with
  | refl => exact ⟨path, r, h, hcuts, List.Subset.refl _⟩
  | tail _ hl ih =>
    obtain ⟨path', r', h', hcuts', hsub⟩ := ih
    obtain ⟨r'', h'', hcuts''⟩ := h'.of_link hcuts' hl
    exact ⟨_, r'', h'', hcuts'', fun s hs => .tail _ (hsub hs)⟩

/-- Where nothing is cut there is no cycle: going round it once more would come back to the path. -/
theorem Unfolds.not_reachesCycle (h : Unfolds vs path id r)
    (hcuts : cuts vs path id (r.getD .unresolved) = []) : ¬ ReachesCycle vs id := by
  rintro ⟨c, hreach, hround⟩
  obtain ⟨path₁, r₁, h₁, hcuts₁, -⟩ := h.of_reach hcuts hreach
  obtain ⟨s, hl, hback⟩ := Relation.TransGen.head'_iff.1 hround
  obtain ⟨r₂, h₂, hcuts₂⟩ := h₁.of_link hcuts₁ hl
  obtain ⟨path₃, r₃, h₃, hcuts₃, hsub⟩ := h₂.of_reach hcuts₂ hback
  simp [h₃.cuts_of_mem (hsub (.head _))] at hcuts₃

theorem ReachesCycle.of_link (hl : Link vs id target) (h : ReachesCycle vs target) :
    ReachesCycle vs id := by
  obtain ⟨c, hreach, hround⟩ := h
  exact ⟨c, .head hl hreach, hround⟩

theorem Avoids.of_link (hl : Link vs id target) (hno : ¬ ReachesCycle vs id)
    (h : Avoids vs id path) : Avoids vs target (id :: path) := by
  rintro s (_ | ⟨_, hs⟩) hreach
  · exact hno ⟨id, .refl, .head' hl hreach⟩
  · exact h s hs (.head hl hreach)

mutual

/-- What leads to no cycle and not back to the path is unfolded alike below every such path, and
nothing of it is cut. -/
theorem Unfolds.of_avoids {path path' : List String} {id : String} {r : Option Resolved}
    (hno : ¬ ReachesCycle vs id) (hp : Avoids vs id path)
    (hp' : Avoids vs id path') : Unfolds vs path id r →
      Unfolds vs path' id r ∧ cuts vs path' id (r.getD .unresolved) = []
  | .absent h => ⟨.absent h, if_neg fun hid => hp' id hid .refl⟩
  | .cycle hid => (hp id hid .refl).elim
  | .record _ hr hv => by
    have hlink (e : String × Json) (he : e ∈ modesOf _) (t : String)
        (ht : alias? e.2 = some (.str t)) : Link vs id t := .intro hr he ht
    have heach := hv.of_avoids fun e he t ht =>
      ⟨fun hc => hno (hc.of_link (hlink e he t ht)), hp.of_link (hlink e he t ht) hno,
        hp'.of_link (hlink e he t ht) hno⟩
    refine ⟨.record (fun hid => hp' id hid .refl) hr heach.1, ?_⟩
    rw [Option.getD_some, cuts, hr]
    exact heach.2

theorem UnfoldsEach.of_avoids {path path' : List String} {modes : List (String × Json)}
    {values : List (String × Resolved)}
    (h : ∀ e ∈ modes, ∀ t, alias? e.2 = some (.str t) →
      ¬ ReachesCycle vs t ∧ Avoids vs t path ∧ Avoids vs t path') :
    UnfoldsEach vs path modes values →
      UnfoldsEach vs path' modes values ∧ cutsEach vs path' modes values = []
  | .nil => ⟨.nil, rfl⟩
  | .literal hv hvalues => by
    have hrest := hvalues.of_avoids fun e he => h e (.tail _ he)
    refine ⟨.literal hv hrest.1, ?_⟩
    rw [cutsEach, hv, hrest.2]
    rfl
  | .link hv hr hvalues => by
    obtain ⟨hno, hp, hp'⟩ := h _ (.head _) _ hv
    have hfirst := hr.of_avoids hno hp hp'
    have hrest := hvalues.of_avoids fun e he => h e (.tail _ he)
    refine ⟨.link hv hfirst.1 hrest.1, ?_⟩
    rw [cutsEach, hv, hrest.2, List.append_nil]
    exact hfirst.2

end

theorem Inside.of_unfolds {head : VariableHead} {id' : String} {values : List (String × Resolved)}
    {v : Resolved} (h : Inside vs id v id' (.variable head values))
    (hr : Unfolds vs path id (some v)) (hno : ¬ ReachesCycle vs id) (hp : Avoids vs id path) :
    ∃ path', Unfolds vs path' id' (some (.variable head values)) ∧ ¬ ReachesCycle vs id' ∧
      Avoids vs id' path' := by
  generalize hv' : Resolved.variable head values = v' at h
  induction h generalizing path with
  | self => exact ⟨path, hv' ▸ hr, hno, hp⟩
  | nested hrec hmem hv hin ih =>
    cases hr with
    | record hid hrec' hvalues =>
      obtain rfl : _ = _ := Option.some.inj (hrec.symm.trans hrec')
      obtain ⟨r', hr', rfl⟩ := hvalues.of_mem_zip hmem hv
      have hl : Link vs _ _ := .intro hrec (List.of_mem_zip hmem).1 hv
      cases r' with
      | none =>
        subst hv'
        cases hin
      | some r' => exact ih hr' (fun hc => hno (hc.of_link hl)) (hp.of_link hl hno) hv'

theorem UnfoldsEach.forall₂ {P : String → Option Resolved → Prop} {modes : List (String × Json)}
    {values : List (String × Resolved)} (h : UnfoldsEach vs path modes values)
    (hP : ∀ e ∈ modes, ∀ t r, alias? e.2 = some (.str t) → Unfolds vs path t r → P t r) :
    List.Forall₂ (fun e x => x.1 = e.1 ∧ ∀ t, alias? e.2 = some (.str t) →
      ∃ r, P t r ∧ x.2 = r.getD .unresolved) modes values := by
  induction modes generalizing values with
  | nil =>
    cases h
    exact .nil
  | cons e modes ih =>
    have hrest := fun e he => hP e (.tail _ he)
    cases h with
    | literal hv hvalues => exact .cons ⟨rfl, by simp [hv]⟩ (ih hvalues hrest)
    | link hv hr hvalues =>
      refine .cons ⟨rfl, fun t ht => ?_⟩ (ih hvalues hrest)
      obtain rfl : _ = _ := Json.str.inj (Option.some.inj (hv.symm.trans ht))
      exact ⟨_, hP _ (.head _) _ _ hv hr, rfl⟩

theorem Way.reaches (h : Way vs id path target) : Relation.ReflTransGen (Link vs) id target ∧
    ∀ s ∈ path, Relation.ReflTransGen (Link vs) id s ∧ Relation.TransGen (Link vs) s target := by
  induction h with
  | start => exact ⟨.refl, by simp⟩
  | link _ hl ih =>
    refine ⟨ih.1.tail hl, ?_⟩
    rintro s (_ | ⟨_, hs⟩)
    · exact ⟨ih.1, .single hl⟩
    · exact ⟨(ih.2 s hs).1, (ih.2 s hs).2.tail hl⟩

theorem ReachesCycle.of_reach (hreach : Relation.ReflTransGen (Link vs) id target)
    (h : ReachesCycle vs target) : ReachesCycle vs id := by
  obtain ⟨c, hc, hround⟩ := h
  exact ⟨c, hreach.trans hc, hround⟩

theorem Way.avoids (h : Way vs id path target) (hno : ¬ ReachesCycle vs id) :
    Avoids vs target path := by
  intro s hs hback
  obtain ⟨hreach, hround⟩ := h.reaches.2 s hs
  exact hno ⟨s, hreach, hround.trans_left hback⟩

/-- What leads to no cycle is followed alike with all places seen that it does not lead to. -/
theorem follow_of_avoids {seen : List (Fin vs.length)} (ht : IsReadableTable vs)
    (hno : ¬ ReachesCycle vs id) (hr : Unfolds vs path id r) (hp : Avoids vs id path)
    (hm : Met vs seen path') (hp' : Avoids vs id path') :
    follow vs seen (.str id) = ⟨[], .ok r⟩ := by
  obtain ⟨r', hr', heq⟩ := (follow_eq ht).1 seen (.str id) path' id rfl hm
  obtain ⟨hr, hcuts⟩ := hr.of_avoids hno hp hp'
  obtain rfl := hr.unique hr'
  rw [heq, hcuts]
  rfl

end

/-- Under each mode of the record stands what the target of its alias is resolved to by itself. -/
def IsComposed (vs : Variables) (record : List (String × Json))
    (values : List (String × Resolved)) : Prop :=
  List.Forall₂ (fun e x => x.1 = e.1 ∧ ∀ target, alias? e.2 = some (.str target) →
    ∃ r, vs.resolve (.str target) = ⟨[], .ok r⟩ ∧ x.2 = r.getD .unresolved) (modesOf record) values

/-- There is one warning for each place where the result was cut, in the order of the modes, and one
at all if and only if the variable leads to a cycle. A run prints them, each on a line. If the
variable leads to no cycle, what stands for an alias does not depend on the way to it. -/
theorem resolve_warns (vs : Variables) (ht : IsReadableTable vs.table) (id : String) :
    ∃ r, vs.resolve (.str id) =
        ⟨cycleWarnings (cuts vs.table [] id (r.getD .unresolved)), .ok r⟩ ∧
      (∀ h, (Run.ofTraced (vs.resolve (.str id))).on h =
        (.ok r, { h with
          printed := h.printed ++ Run.linesOf ((cuts vs.table [] id (r.getD .unresolved)).map
            fun target => (Warning.aliasCycle (.str target)).line) })) ∧
      ((∃ k, .aliasCycle k ∈ (vs.resolve (.str id)).log) ↔ ReachesCycle vs.table id) ∧
      (¬ ReachesCycle vs.table id →
        (∀ id' head values,
          Inside vs.table id (r.getD .unresolved) id' (.variable head values) →
          ∃ record, record? vs.table id' = some record ∧ IsComposed vs record values) ∧
        ∀ path target seen, Way vs.table id path target → Met vs.table seen path →
          follow vs.table seen (.str target) = vs.resolve (.str target)) := by
  obtain ⟨r, hr, heq⟩ := (follow_eq ht).1 [] (.str id) [] id rfl .nil
  have hnil (t : String) : Avoids vs.table t [] := fun s hs => absurd hs List.not_mem_nil
  refine ⟨r, heq, fun h => ?_, ?_, ?_⟩
  · rw [Run.ofTraced_on, resolve, heq, cycleWarnings, List.map_map]
    rfl
  · have hlog : (vs.resolve (.str id)).log =
        cycleWarnings (cuts vs.table [] id (r.getD .unresolved)) := by
      rw [resolve, heq]
    rw [hlog]
    constructor
    · rintro ⟨k, hk⟩
      by_contra hno
      rw [(hr.of_avoids hno (hnil id) (hnil id)).2] at hk
      cases hk
    · intro hc
      cases hcuts : cuts vs.table [] id (r.getD .unresolved) with
      | nil => exact absurd hc (hr.not_reachesCycle hcuts)
      | cons t ts => exact ⟨.str t, .head _⟩
  · intro hno
    constructor
    · intro id' head values hin
      cases r with
      | none => cases hin
      | some v =>
        obtain ⟨path, hrecord, hno', hp⟩ := hin.of_unfolds hr hno (hnil id)
        cases hrecord with
        | record hid hrec hvalues =>
          refine ⟨_, hrec, hvalues.forall₂ ?_⟩
          intro e he t r' hv hr'
          have hl : Link vs.table id' t := .intro hrec he hv
          exact follow_of_avoids ht (fun hc => hno' (hc.of_link hl)) hr' (hp.of_link hl hno') .nil
            (hnil t)
    · intro path target seen hway hm
      have hno' : ¬ ReachesCycle vs.table target := fun hc => hno (hc.of_reach hway.reaches.1)
      obtain ⟨r', hr', -⟩ := (follow_eq ht).1 [] (.str target) [] target rfl .nil
      rw [resolve, follow_of_avoids ht hno' hr' (hnil target) hm (hway.avoids hno),
        follow_of_avoids ht hno' hr' (hnil target) .nil (hnil target)]

/-- Text of two colours, and two variables that lead to each other, the first one twice. -/
def palette : OrderedMap Key Json :=
  [(.str "text", .obj [("valuesByMode", .obj [("light", linkTo "ink"), ("dark", linkTo "ink")])]),
   (.str "ink", .obj [("valuesByMode", .obj [("light", .str "#000"), ("dark", linkTo "none")])]),
   (.str "on", .obj [("valuesByMode", .obj [("light", linkTo "off"), ("dark", linkTo "off")])]),
   (.str "off", .obj [("valuesByMode", .obj [("light", linkTo "on")])])]

theorem isReadableTable_palette : IsReadableTable palette := by
  simp [-Prod.forall, IsReadableTable, IsReadable, modesOf, palette, Json.orEmpty]

/-- Both ways round are cut and warned of; the colour that is shared is the same on every way. -/
theorem resolve_warns_palette :
    let vs := Variables.mk palette []
    let cycle := Warning.aliasCycle (.str "on")
    IsReadableTable palette ∧
      (vs.resolve (.str "on")).log = [cycle, cycle] ∧ ReachesCycle palette "on" ∧
      ¬ ReachesCycle palette "text" ∧
      follow palette [⟨0, by decide⟩] (.str "ink") = vs.resolve (.str "ink") := by
  intro vs cycle
  have hon : (vs.resolve (.str "on")).log = [cycle, cycle] := by cbv
  have htext : (vs.resolve (.str "text")).log = [] := by cbv
  obtain ⟨_, -, -, hcycle, -⟩ := resolve_warns vs isReadableTable_palette "on"
  obtain ⟨_, -, -, hno, hcomposed⟩ := resolve_warns vs isReadableTable_palette "text"
  rw [htext] at hno
  have hno : ¬ ReachesCycle palette "text" := fun hc => by simpa using hno.2 hc
  have hmode : ("light", linkTo "ink") ∈ [("light", linkTo "ink"), ("dark", linkTo "ink")] :=
    .head _
  have hway : Way palette "text" ["text"] "ink" := .link .start (.intro rfl hmode rfl)
  refine ⟨isReadableTable_palette, hon, hcycle.1 ⟨.str "on", ?_⟩, hno, ?_⟩
  · rw [hon]
    exact .head _
  · exact (hcomposed hno).2 ["text"] "ink" _ hway (.cons rfl .nil)

end DesignComponents.Variables
