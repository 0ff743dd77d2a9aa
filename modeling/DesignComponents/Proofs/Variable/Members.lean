import DesignComponents.Proofs.OrderedMap
import DesignComponents.Proofs.Variable.Unfolding

/-!
Collections with the variables they list. What has a record is a member, whatever its aliases lead
to; what has none is left out, and the members around it stay.
-/

namespace DesignComponents

theorem Key.key_toJson (k : Key) : k.toJson.key = .ok k := by
  cases k <;> rfl

namespace OrderedMap

variable {α : Type}

/-- A map by texts as one by keys of any kind. -/
def byText (m : OrderedMap String α) : OrderedMap Key α := m.map fun e => (.str e.1, e.2)

theorem put_byText (s : String) (a : α) (m : OrderedMap String α) :
    put (.str s) a (byText m) = byText (put s a m) := by
  induction m with
  | nil => rfl
  | cons e m ih =>
    simp only [byText] at ih
    by_cases h : e.1 == s <;> simp [byText, put, h, ih]

theorem get?_byText (s : String) (m : OrderedMap String α) :
    get? (.str s) (byText m) = get? s m := by
  induction m with
  | nil => rfl
  | cons e m ih =>
    simp only [byText] at ih
    by_cases h : e.1 == s <;> simp [byText, get?, h, ih]

theorem keys_byText (m : OrderedMap String α) : keys (byText m) = (keys m).map .str := by
  simp [keys, byText]

theorem get?_of_mem {m : OrderedMap Key α} (h : m.Pairwise fun a b => (a.1 == b.1) = false)
    {e : Key × α} (he : e ∈ m) : get? e.1 m = some e.2 := by
  induction m with
  | nil => cases he
  | cons a m ih =>
    obtain ⟨hne, hm⟩ := List.pairwise_cons.1 h
    rcases List.mem_cons.1 he with rfl | he
    · simp [get?]
    · simp [get?, hne e he, ih hm he]

end OrderedMap

namespace Variables

/-- The record of a collection lists variables with these identifiers, and modes with these
identifiers and names. -/
structure Lists (record : List (String × Json)) (ids : List String)
    (names : List (String × Json)) : Prop where
  ids : ((record.lookup "variableIds").getD .null).elementsOrNone = .ok (ids.map .str)
  modes : ∃ modes, ((record.lookup "modes").getD .null).elementsOrNone = .ok (modes.map .obj) ∧
    List.Forall₂ (fun mode e => mode.lookup "modeId" = some (.str e.1) ∧
      (mode.lookup "name").getD (.str "") = e.2) modes names

/-- Collections under keys of their own. An entry that is null is no collection. -/
structure AreReadableCollections (collections : OrderedMap Key Json) : Prop where
  distinct : collections.Pairwise fun a b => (a.1 == b.1) = false
  entries : ∀ e ∈ collections, e.2 = .null ∨
    ∃ record ids names, e.2 = .obj record ∧ Lists record ids names

/-- The variable with the identifier is `v`, as it is resolved by itself: all the modes of its
record are there, and what is cut is cut below them. -/
inductive Member (vs : Variables) (id : String) : Resolved → Prop
  | intro : record? vs.table id = some record →
      UnfoldsEach vs.table [id] (modesOf record) values →
      (vs.resolve (.str id)).result = .ok (some (.variable (headOf id record) values)) →
      Member vs id (.variable (headOf id record) values)

/-- The members of a collection are those of the listed variables that have a record. A mode stands
where its identifier is listed first, under the name by which it is listed last. -/
inductive Gathers (vs : Variables) : Key × Json → ResolvedCollection → Prop
  | intro {key : Key} {ids : List String} {names : List (String × Json)} {c : ResolvedCollection} :
    Lists record ids names → c.name = (record.lookup "name").getD key.toJson →
    List.Forall₂ (Member vs) (ids.filter fun id => (record? vs.table id).isSome) c.members →
    c.modes.keys = (names.map Prod.fst).eraseDups.map .str →
    (∀ id, OrderedMap.get? (.str id) c.modes = OrderedMap.get? id names.reverse) →
    Gathers vs (key, .obj record) c

theorem Lists.unique {record : List (String × Json)} {ids ids' : List String}
    {names names' : List (String × Json)} (h : Lists record ids names)
    (h' : Lists record ids' names') : ids = ids' ∧ names = names' := by
  obtain ⟨modes, hmodes, hnames⟩ := h.modes
  obtain ⟨modes', hmodes', hnames'⟩ := h'.modes
  have hids := Except.ok.inj (h.ids.symm.trans h'.ids)
  have hsame := Except.ok.inj (hmodes.symm.trans hmodes')
  rw [List.map_inj_right fun _ _ => Json.str.inj] at hids
  rw [List.map_inj_right fun _ _ => Json.obj.inj] at hsame
  subst hsame
  refine ⟨hids, Relator.RightUnique.forall₂ ?_ hnames hnames'⟩
  rintro mode ⟨id, name⟩ ⟨id', name'⟩ ⟨hid, hname⟩ ⟨hid', hname'⟩
  obtain rfl : id = id' := Json.str.inj (Option.some.inj (hid.symm.trans hid'))
  exact Prod.ext rfl (hname.symm.trans hname')

theorem Member.resolve_eq {vs : Variables} {id : String} {v : Resolved} (h : Member vs id v) :
    (vs.resolve (.str id)).result = .ok (some v) := by
  cases h with
  | intro _ _ hres => exact hres

variable {vs : Variables}

theorem member_or_absent (ht : IsReadableTable vs.table) (id : String) :
    (record? vs.table id = none ∧ (vs.resolve (.str id)).result = .ok none) ∨
    ∃ v, (record? vs.table id).isSome ∧ Member vs id v ∧
      (vs.resolve (.str id)).result = .ok (some v) := by
  obtain ⟨r, hr, heq⟩ := (follow_eq ht).1 [] (.str id) [] id rfl .nil
  have hres : (vs.resolve (.str id)).result = .ok r := by rw [resolve, heq]
  cases hr with
  | absent hnone => exact .inl ⟨hnone, hres⟩
  | cycle hid => cases hid
  | record _ hrec hvalues => exact .inr ⟨_, by simp [hrec], .intro hrec hvalues hres, hres⟩

theorem resolveEach_members (ht : IsReadableTable vs.table) (ids : List String) :
    Yields (vs.resolveEach (ids.map .str)).result
      (List.Forall₂ (Member vs) (ids.filter fun id => (record? vs.table id).isSome)) := by
  induction ids with
  | nil => exact ⟨[], rfl, .nil⟩
  | cons id ids ih =>
    obtain ⟨members, hmembers, hall⟩ := ih
    simp only [List.map_cons, resolveEach, Traced.bind_result, hmembers]
    rcases member_or_absent ht id with ⟨hnone, hres⟩ | ⟨v, hsome, hv, hres⟩
    · refine ⟨members, by rw [hres]; rfl, ?_⟩
      rwa [List.filter_cons_of_neg (by simp [hnone])]
    · refine ⟨v :: members, by rw [hres]; rfl, ?_⟩
      simp only [List.filter_cons, hsome, if_true]
      exact .cons hv hall

theorem modeNames_eq {modes : List (List (String × Json))} {names : List (String × Json)}
    (h : List.Forall₂ (fun mode e => mode.lookup "modeId" = some (.str e.1) ∧
      (mode.lookup "name").getD (.str "") = e.2) modes names) (m : OrderedMap String Json) :
    modeNames m.byText (modes.map .obj) = .ok (m.merge names).byText := by
  induction h generalizing m with
  | nil => rfl
  | cons hmode _ ih =>
    simp [modeNames, Json.field, hmode.1, hmode.2, OrderedMap.put_byText, ih,
      OrderedMap.merge_cons]

theorem resolveCollection_null (key : Key)
    (hget : OrderedMap.get? key vs.collections = some .null) :
    (vs.resolveCollection key.toJson).result = .ok none := by
  simp [resolveCollection, Key.key_toJson, hget]

theorem resolveCollection_gathers (ht : IsReadableTable vs.table) {key : Key}
    {record : List (String × Json)} {ids : List String} {names : List (String × Json)}
    (hget : OrderedMap.get? key vs.collections = some (.obj record)) (h : Lists record ids names) :
    ∃ c, (vs.resolveCollection key.toJson).result = .ok (some c) ∧
      Gathers vs (key, .obj record) c := by
  obtain ⟨members, hmembers, hall⟩ := resolveEach_members ht ids
  obtain ⟨modes, hmodes, hnames⟩ := h.modes
  have hmap : modeNames [] (modes.map .obj) = .ok (OrderedMap.ofList names).byText :=
    modeNames_eq hnames []
  refine ⟨⟨(record.lookup "name").getD key.toJson, (OrderedMap.ofList names).byText, members⟩, ?_,
    .intro h rfl hall ?_ ?_⟩
  · simp only [resolveCollection, Key.key_toJson, Traced.lift_ok_bind, hget, Json.get_obj,
      Json.getOr_obj, h.ids, hmodes, Traced.bind_result, hmembers, ok_bind, hmap]
    rfl
  · rw [OrderedMap.keys_byText, OrderedMap.keys_ofList]
  · intro id
    rw [OrderedMap.get?_byText, OrderedMap.get?_ofList]

theorem resolveCollections_gathers (ht : IsReadableTable vs.table)
    (hc : AreReadableCollections vs.collections) {es : OrderedMap Key Json}
    (hes : es ⊆ vs.collections) :
    Yields (vs.resolveCollections (es.map Prod.fst)).result
      (List.Forall₂ (Gathers vs) (es.filter fun e => e.2.kind ≠ .null)) := by
  induction es with
  | nil => exact ⟨[], rfl, .nil⟩
  | cons e es ih =>
    obtain ⟨cs, hcs, hall⟩ := ih fun e he => hes (.tail _ he)
    have hget := OrderedMap.get?_of_mem hc.distinct (hes (.head _))
    simp only [List.map_cons, resolveCollections, Traced.bind_result, hcs]
    obtain ⟨key, v⟩ := e
    rcases hc.entries _ (hes (.head _)) with hnull | ⟨record, ids, names, hrec, hlists⟩
    · obtain rfl : v = .null := hnull
      refine ⟨cs, by rw [resolveCollection_null key hget]; rfl, ?_⟩
      rwa [List.filter_cons_of_neg (by simp [Json.kind])]
    · obtain rfl : v = .obj record := hrec
      obtain ⟨c, hres, hgathers⟩ := resolveCollection_gathers ht hget hlists
      refine ⟨c :: cs, by rw [hres]; rfl, ?_⟩
      rw [List.filter_cons_of_pos (by simp [Json.kind])]
      exact .cons hgathers hall

/-- There is one collection for each record, in the order of the table. Its members are all of its
variables that have a record, whatever aliases they hold. -/
theorem resolveAll_gathers (vs : Variables) (ht : IsReadableTable vs.table)
    (hc : AreReadableCollections vs.collections) :
    ∃ cs, vs.resolveAll.result = .ok cs ∧
      List.Forall₂ (Gathers vs) (vs.collections.filter fun e => e.2.kind ≠ .null) cs :=
  resolveCollections_gathers ht hc (List.Subset.refl _)

def theme : List (String × Json) :=
  [("variableIds", .arr [.str "ink", .str "gone", .str "paper", .str "none", .str "ink"]),
   ("modes", .arr [
     .obj [("modeId", .str "light"), ("name", .str "Light")], .obj [("modeId", .str "dark")],
     .obj [("modeId", .str "light"), ("name", .str "Day")]])]

/-- A variable that leads to itself and to none, one whose record is gone, and a collection that
lists them with a mode renamed. Another collection is gone. -/
def themed : Variables where
  table := [
    (.str "ink", .obj [("valuesByMode",
      .obj [("light", linkTo "ink"), ("dark", linkTo "none"), ("print", .str "#000")])]),
    (.str "gone", .null), (.str "paper", .obj [])]
  collections := [(.str "old", .null), (.str "theme", .obj theme)]

theorem theme_lists : Lists theme ["ink", "gone", "paper", "none", "ink"]
    [("light", .str "Light"), ("dark", .str ""), ("light", .str "Day")] where
  ids := rfl
  modes := ⟨_, rfl, .cons ⟨rfl, rfl⟩ (.cons ⟨rfl, rfl⟩ (.cons ⟨rfl, rfl⟩ .nil))⟩

theorem themed_isReadable :
    IsReadableTable themed.table ∧ AreReadableCollections themed.collections := by
  constructor
  · simp [-Prod.forall, IsReadableTable, IsReadable, modesOf, themed, Json.orEmpty]
  · refine ⟨by simp [themed], ?_⟩
    rintro e (_ | ⟨_, _ | ⟨_, he⟩⟩)
    · exact .inl rfl
    · exact .inr ⟨_, _, _, rfl, theme_lists⟩
    · cases he

/-- The variable with a cycle is a member each time it is listed, with all its modes. -/
theorem resolveAll_gathers_themed :
    IsReadableTable themed.table ∧ AreReadableCollections themed.collections ∧
      ∃ c, themed.resolveAll.result = .ok [c] ∧
        (∃ ink paper, c.members = [ink, paper, ink] ∧ Member themed "ink" ink) ∧
        c.modes.keys = [.str "light", .str "dark"] ∧
        OrderedMap.get? (.str "light") c.modes = some (.str "Day") := by
  obtain ⟨ht, hc⟩ := themed_isReadable
  obtain ⟨cs, hres, hall⟩ := resolveAll_gathers themed ht hc
  refine ⟨ht, hc, ?_⟩
  cases hall with
  | cons hfirst hrest =>
    cases hrest
    cases hfirst with
    | intro hlists _ hmembers hmodes hnamed =>
      obtain ⟨rfl, rfl⟩ := hlists.unique theme_lists
      refine ⟨_, hres, ?_, hmodes.trans rfl, (hnamed "light").trans rfl⟩
      have hlisted : ["ink", "gone", "paper", "none", "ink"].filter
          (fun id => (record? themed.table id).isSome) = ["ink", "paper", "ink"] := by rfl
      rw [hlisted] at hmembers
      generalize ResolvedCollection.members _ = members at hmembers ⊢
      rcases hmembers with _ | ⟨hink, _ | ⟨_, _ | ⟨hink', hnil⟩⟩⟩
      cases hnil
      rw [Option.some.inj (Except.ok.inj (hink'.resolve_eq.symm.trans hink.resolve_eq))]
      exact ⟨_, _, rfl, hink⟩

end Variables

end DesignComponents
