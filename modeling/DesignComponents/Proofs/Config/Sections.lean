import DesignComponents.Config.Basic
import DesignComponents.Proofs.Document.Warnings

/-!
Sections of settings that are no objects. Each of them brings one warning of its own, and all else
that is read from the settings is what it would be without them.
-/

namespace DesignComponents.Config

/-- The fields but for those with the given names. -/
def without (names : List String) (fs : List (String × Json)) : List (String × Json) :=
  fs.filter fun f => !names.contains f.1

/-- All the names are those of sections that are there and are no objects. -/
def Misplaced (names : List String) (fs : List (String × Json)) : Prop :=
  ∀ name ∈ names, name ∈ sectionNames ∧ ∃ v, fs.lookup name = some v ∧ v.kind ≠ .obj

instance (names : List String) (fs : List (String × Json)) : Decidable (Misplaced names fs) :=
  decidable_of_iff (∀ name ∈ names, name ∈ sectionNames ∧
    ∃ v ∈ fs.lookup name, v.kind ≠ .obj) (by simp [Misplaced, Option.mem_def])

variable {names : List String} {fs : List (String × Json)}

theorem lookup_without (names : List String) (fs : List (String × Json)) (name : String) :
    (without names fs).lookup name = if name ∈ names then none else fs.lookup name := by
  rw [without, lookup_filter fun key => !names.contains key]
  by_cases hname : name ∈ names <;> simp [hname]

/-! ### What is read -/

/-- A setting of a section, null if it is not there. -/
def read (fs : List (String × Json)) (name key : String) : Json :=
  match fs.lookup name with
  | some (.obj gs) => (gs.lookup key).getD .null
  | _ => .null

theorem setting_obj (fs : List (String × Json)) (name key : String) :
    setting (.obj fs) name key = .ok (read fs name key) := by
  unfold setting part read
  rw [Json.getOr_obj, ok_bind]
  cases fs.lookup name with
  | none => simp
  | some v => cases v <;> simp

/-- What is no object holds no settings. -/
theorem read_without (h : Misplaced names fs) (name key : String) :
    read (without names fs) name key = read fs name key := by
  unfold read
  rw [lookup_without]
  by_cases hname : name ∈ names
  · obtain ⟨-, v, hv, hkind⟩ := h name hname
    rw [if_pos hname, hv]
    cases v with
    | obj gs => exact absurd rfl hkind
    | _ => rfl
  · rw [if_neg hname]

theorem setting_without (h : Misplaced names fs) (name key : String) :
    setting (.obj (without names fs)) name key = setting (.obj fs) name key := by
  rw [setting_obj, setting_obj, read_without h]

theorem token_without (h : Misplaced names fs) (environment : Option String) :
    token (.obj (without names fs)) environment = token (.obj fs) environment := by
  unfold token
  rw [setting_without h]

theorem snapshotDir_without (h : Misplaced names fs) :
    snapshotDir (.obj (without names fs)) = snapshotDir (.obj fs) := by
  rw [snapshotDir, snapshotDir, setting_without h]

theorem selectedIds_without (h : Misplaced names fs) :
    selectedIds (.obj (without names fs)) = selectedIds (.obj fs) := by
  rw [selectedIds, selectedIds, setting_without h]

theorem debounceSeconds_without (h : Misplaced names fs) :
    debounceSeconds (.obj (without names fs)) = debounceSeconds (.obj fs) := by
  rw [debounceSeconds, debounceSeconds, setting_without h]

/-! ### What is remarked -/

def unknownNames (fs : List (String × Json)) : List Warning :=
  (fs.filter fun f => !sectionNames.contains f.1).map fun f => .unknownSection f.1 sectionNames

def unknownSettings (name : String) (known : List String) (fs : List (String × Json)) :
    List Warning :=
  (fs.filter fun f => !known.contains f.1).map fun f => .unknownSetting name f.1 known

def sectionRemarks (fs : List (String × Json)) (s : String × List String) : List Warning :=
  match (fs.lookup s.1).getD (.obj []) with
  | .obj gs => unknownSettings s.1 s.2 gs
  | v => [.sectionNotObject s.1 v.kind]

def idsRemarks (ids : Json) : List Warning :=
  if !isNull ids && !isTextList ids then [.nodeIdsNotTexts] else []

def debounceRemarks (debounce : Json) : List Warning :=
  if !isNull debounce && !isDebounce debounce then [.badDebounce debounce] else []

/-- The warnings on settings, in order. -/
def remarks (fs : List (String × Json)) : List Warning :=
  unknownNames fs ++ sections.flatMap (sectionRemarks fs) ++
    idsRemarks (read fs "selection" "nodeIds") ++
    debounceRemarks (read fs "watch" "debounceSeconds")

/-- Nothing but warnings. -/
def tell (ws : List Warning) : Traced Unit := ⟨ws, .ok ()⟩

theorem tell_bind (ws vs : List Warning) : (tell ws >>= fun _ => tell vs) = tell (ws ++ vs) :=
  Traced.bind_of_ok rfl _

theorem warn_eq_tell (w : Warning) : Traced.warn w = tell [w] := rfl

theorem pure_eq_tell : (pure () : Traced Unit) = tell [] := rfl

theorem checkNames_eq (fs : List (String × Json)) :
    checkNames (fs.map fun f => .str f.1) = tell (unknownNames fs) := by
  induction fs with
  | nil => rfl
  | cons f fs ih =>
    simp only [List.map_cons, checkNames, Json.key_str, Traced.lift_ok_bind]
    split
    case isTrue hknown =>
      rw [ih, unknownNames, unknownNames, List.filter_cons_of_neg (by simpa using hknown)]
    case isFalse hknown =>
      rw [ih, warn_eq_tell, tell_bind, unknownNames, unknownNames,
        List.filter_cons_of_pos (by simpa using hknown)]
      rfl

theorem checkSettings_eq (name : String) (known : List String) (fs : List (String × Json)) :
    checkSettings name known fs = tell (unknownSettings name known fs) := by
  induction fs with
  | nil => rfl
  | cons f fs ih =>
    rw [checkSettings]
    split
    case isTrue hknown =>
      rw [ih, unknownSettings, unknownSettings, List.filter_cons_of_neg (by simpa using hknown)]
    case isFalse hknown =>
      rw [ih, warn_eq_tell, tell_bind, unknownSettings, unknownSettings,
        List.filter_cons_of_pos (by simpa using hknown)]
      rfl

theorem checkSections_eq (fs : List (String × Json)) (ss : List (String × List String)) :
    checkSections (.obj fs) ss = tell (ss.flatMap (sectionRemarks fs)) := by
  induction ss with
  | nil => rfl
  | cons s ss ih =>
    obtain ⟨name, known⟩ := s
    rw [checkSections, Json.getOr_obj, Traced.lift_ok_bind, List.flatMap_cons, sectionRemarks]
    cases (fs.lookup name).getD (.obj []) with
    | obj gs => simp only [checkSettings_eq, ih, tell_bind]
    | _ => simp only [warn_eq_tell, ih, tell_bind]

theorem validate_eq (fs : List (String × Json)) : validate (.obj fs) = tell (remarks fs) := by
  cases fs with
  | nil => rfl
  | cons f fs =>
    have helements : (Json.obj (f :: fs)).elements = .ok ((f :: fs).map fun g => .str g.1) := rfl
    simp only [validate, Json.isTruthy_obj_cons, if_true, helements, setting_obj,
      Traced.lift_ok_bind, checkNames_eq, checkSections_eq, warn_eq_tell, pure_eq_tell]
    simp only [remarks, idsRemarks, debounceRemarks, List.append_assoc]
    split <;> split <;> simp only [tell_bind, List.append_nil, List.nil_append]

/-! ### Warnings on misplaced sections -/

/-- The warning is that one of the sections is no object. -/
def isMisplaced (names : List String) : Warning → Bool
  | .sectionNotObject name _ => names.contains name
  | _ => false

theorem unknownNames_notMisplaced : ∀ w ∈ unknownNames fs, isMisplaced names w = false := by
  intro w hw
  obtain ⟨f, -, rfl⟩ := List.mem_map.1 hw
  rfl

theorem idsRemarks_notMisplaced (v : Json) : ∀ w ∈ idsRemarks v, isMisplaced names w = false := by
  unfold idsRemarks
  split <;> simp [isMisplaced]

theorem debounceRemarks_notMisplaced (v : Json) :
    ∀ w ∈ debounceRemarks v, isMisplaced names w = false := by
  unfold debounceRemarks
  split <;> simp [isMisplaced]

theorem sectionRemarks_notMisplaced {s : String × List String} (hs : s.1 ∉ names) :
    ∀ w ∈ sectionRemarks fs s, isMisplaced names w = false := by
  intro w hw
  unfold sectionRemarks at hw
  split at hw
  · obtain ⟨f, -, rfl⟩ := List.mem_map.1 hw
    rfl
  · rw [List.mem_singleton.1 hw]
    simpa [isMisplaced] using hs

theorem sectionRemarks_of_misplaced {s : String × List String} {v : Json}
    (hv : fs.lookup s.1 = some v) (hkind : v.kind ≠ .obj) :
    sectionRemarks fs s = [.sectionNotObject s.1 v.kind] := by
  unfold sectionRemarks
  rw [hv]
  cases v with
  | obj gs => exact absurd rfl hkind
  | _ => rfl

theorem filter_eq_self_of {ws : List Warning} (h : ∀ w ∈ ws, isMisplaced names w = false) :
    ws.filter (fun w => !isMisplaced names w) = ws :=
  List.filter_eq_self.2 fun w hw => by simp [h w hw]

theorem filter_eq_nil_of {ws : List Warning} (h : ∀ w ∈ ws, isMisplaced names w = false) :
    ws.filter (isMisplaced names) = [] :=
  List.filter_eq_nil_iff.2 fun w hw => by simp [h w hw]

theorem unknownNames_without (h : Misplaced names fs) :
    unknownNames (without names fs) = unknownNames fs := by
  unfold unknownNames without
  rw [List.filter_filter]
  congr 1
  apply List.filter_congr
  intro f _
  by_cases hf : f.1 ∈ names
  · simp [(h f.1 hf).1]
  · simp [hf]

theorem sectionRemarks_without (h : Misplaced names fs) (s : String × List String) :
    sectionRemarks (without names fs) s =
      (sectionRemarks fs s).filter fun w => !isMisplaced names w := by
  by_cases hname : s.1 ∈ names
  · obtain ⟨-, v, hv, hkind⟩ := h s.1 hname
    rw [sectionRemarks_of_misplaced hv hkind, sectionRemarks, lookup_without, if_pos hname]
    simp [isMisplaced, hname, unknownSettings]
  · rw [filter_eq_self_of (sectionRemarks_notMisplaced hname), sectionRemarks, lookup_without,
      if_neg hname, sectionRemarks]

/-- Without the misplaced sections the warnings are the same but for those on them. -/
theorem remarks_without (h : Misplaced names fs) :
    remarks (without names fs) = (remarks fs).filter fun w => !isMisplaced names w := by
  have hsections : sections.flatMap (sectionRemarks (without names fs)) =
      (sections.flatMap (sectionRemarks fs)).filter fun w => !isMisplaced names w := by
    rw [List.filter_flatMap, funext (sectionRemarks_without h)]
  simp only [remarks, List.filter_append, hsections, unknownNames_without h, read_without h,
    filter_eq_self_of unknownNames_notMisplaced, filter_eq_self_of (idsRemarks_notMisplaced _),
    filter_eq_self_of (debounceRemarks_notMisplaced _)]

/-- There is one warning on each of them. -/
theorem remarks_misplaced (h : Misplaced names fs) {name : String} (hname : name ∈ names) :
    ∃ v, fs.lookup name = some v ∧
      (remarks fs).filter (isMisplaced [name]) = [.sectionNotObject name v.kind] := by
  obtain ⟨hknown, v, hv, hkind⟩ := h name hname
  have hsection (s : String × List String) :
      (sectionRemarks fs s).filter (isMisplaced [name]) =
        if s.1 = name then [.sectionNotObject name v.kind] else [] := by
    split
    case isTrue hs =>
      rw [sectionRemarks_of_misplaced (hs ▸ hv) hkind, hs]
      simp [isMisplaced]
    case isFalse hs => exact filter_eq_nil_of (sectionRemarks_notMisplaced (by simpa using hs))
  refine ⟨v, hv, ?_⟩
  simp only [remarks, List.filter_append, filter_eq_nil_of unknownNames_notMisplaced,
    filter_eq_nil_of (idsRemarks_notMisplaced _), filter_eq_nil_of (debounceRemarks_notMisplaced _),
    List.filter_flatMap, hsection]
  simp only [sectionNames, List.mem_cons, List.not_mem_nil, or_false] at hknown
  rcases hknown with rfl | rfl | rfl | rfl <;> simp [sections]

end DesignComponents.Config
