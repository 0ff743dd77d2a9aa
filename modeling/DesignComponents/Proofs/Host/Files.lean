import DesignComponents.Host.Files
import DesignComponents.Proofs.Host.Path
import DesignComponents.Proofs.OrderedMap
import DesignComponents.Proofs.Outcome

/-!
Where paths lead. A path leads where the text of its location leads, as long as the way it takes
does not go up through what is not there.
-/

namespace DesignComponents.Files

open DesignComponents.Path (IsName follow partsOf steps tidy)

variable {files : Files} {l m : Location} {s path path' : String} {ps : List String}

/-- Ends of a walk that differ in nothing but the text of the path that a failure names. -/
inductive Alike : Except Fault Location → Except Fault Location → Prop
  | ok (l : Location) : Alike (.ok l) (.ok l)
  | noFile (path path' : String) : Alike (.error (.noFile path)) (.error (.noFile path'))
  | notDirectory (path path' : String) :
    Alike (.error (.notDirectory path)) (.error (.notDirectory path'))
  | nameTooLong (path path' : String) :
    Alike (.error (.nameTooLong path)) (.error (.nameTooLong path'))

theorem walk_alike (files : Files) (path path' : String) (l : Location) (ps : List String) :
    Alike (walk files path l ps) (walk files path' l ps) := by
  induction ps generalizing l with
  | nil => exact .ok l
  | cons p ps ih =>
    rw [walk, walk]
    split
    · exact .noFile path path'
    · exact .notDirectory path path'
    · split
      · exact ih l
      · split
        · exact .nameTooLong path path'
        · exact ih (follow l p)

theorem walk_append (files : Files) (path : String) (l : Location) (ps qs : List String) :
    walk files path l (ps ++ qs) = walk files path l ps >>= fun m => walk files path m qs := by
  induction ps generalizing l with
  | nil => rfl
  | cons p ps ih =>
    rw [List.cons_append, walk, walk]
    split
    · rfl
    · rfl
    · split
      · exact ih l
      · split
        · rfl
        · exact ih (follow l p)

theorem walk_of_isName (hl : at? files l = some .directory) (hs : IsName s) (ps : List String) :
    walk files path l (s :: ps) = walk files path (l ++ [s]) ps := by
  have hstep := hs.step
  rw [walk, hl]
  simp [hstep.1, hstep.2, Nat.not_lt.2 hs.size, follow, hs.ne_up]

theorem walk_of_stay {stay : List String} (hl : at? files l = some .directory)
    (hstay : ∀ s ∈ stay, Path.isStep s = false) (ps : List String) :
    walk files path l (stay ++ ps) = walk files path l ps := by
  induction stay with
  | nil => rfl
  | cons s stay ih =>
    rw [List.forall_mem_cons] at hstay
    have hs : s = "" ∨ s = "." := by simpa [Path.isStep, or_iff_not_imp_left] using hstay.1
    rw [List.cons_append, walk, hl]
    simpa [hs] using ih hstay.2

theorem walk_eq_foldl (h : walk files path l ps = .ok m) :
    m = (ps.filter Path.isStep).foldl follow l := by
  induction ps generalizing l with
  | nil => simpa [walk] using h.symm
  | cons p ps ih =>
    rw [walk] at h
    split at h
    · cases h
    · cases h
    · split at h
      · rename_i hstay
        have hno : Path.isStep p = false := by rcases hstay with rfl | rfl <;> rfl
        rw [List.filter_cons_of_neg (by simp [hno])]
        exact ih h
      · rename_i hgo
        have hyes : Path.isStep p = true := by simpa [Path.isStep, not_or] using hgo
        split at h
        · cases h
        · rw [List.filter_cons_of_pos hyes]
          exact ih h

/-- Where a path leads, if it leads anywhere. -/
theorem eq_resolve_of_locate {here : Location} (h : locate files here path = .ok m) :
    m = Path.resolve here path := by
  obtain ⟨_, -, hwalk⟩ := bind_eq_ok.1 h
  exact walk_eq_foldl hwalk

/-- A location to which a walk from the root leads. -/
inductive Reached (files : Files) : Location → Prop
  | root : Reached files []
  | name {l : Location} {s : String} (above : Reached files l)
    (directory : at? files l = some .directory) (isName : IsName s) : Reached files (l ++ [s])

namespace Reached

theorem walk (h : Reached files l) (path : String) : walk files path [] l = .ok l := by
  induction h with
  | root => rfl
  | name _ hdir hs ih =>
    rw [walk_append, ih, ok_bind, walk_of_isName hdir hs]
    rfl

theorem slash_notMem (h : Reached files l) : ∀ s ∈ l, '/' ∉ s.toList := by
  induction h with
  | root => simp
  | name _ _ hs ih => simpa [or_imp, forall_and] using ⟨ih, hs.slash⟩

theorem isStep (h : Reached files l) : ∀ s ∈ l, Path.isStep s = true := by
  induction h with
  | root => simp
  | name _ _ hs ih => simpa [or_imp, forall_and] using ⟨ih, hs.isStep⟩

theorem dropLast (h : Reached files l) : Reached files l.dropLast := by
  cases h with
  | root => exact root
  | name above _ _ => simpa using above

theorem of_walk (hl : Reached files l) (h : Files.walk files path l ps = .ok m)
    (hps : ∀ p ∈ ps, '/' ∉ p.toList) : Reached files m := by
  induction ps generalizing l with
  | nil =>
    obtain rfl : l = m := by simpa [Files.walk] using h
    exact hl
  | cons p ps ih =>
    have hrest : ∀ q ∈ ps, '/' ∉ q.toList := fun q hq => hps q (.tail _ hq)
    rw [Files.walk] at h
    split at h
    · cases h
    · cases h
    · rename_i hdir
      split at h
      · exact ih hl h hrest
      · rename_i hgo
        split at h
        · cases h
        · rename_i hsize
          refine ih ?_ h hrest
          rw [follow]
          split
          · exact hl.dropLast
          · rename_i hup
            exact hl.name hdir ⟨by simpa [Path.isStep, not_or] using hgo, hup,
              hps p (List.mem_cons_self ..), Nat.not_lt.1 hsize⟩

end Reached

variable {here : Location}

/-! ### Paths as they are given and in full -/

theorem locate_tidy (hdir : at? files here = some .directory)
    (haccepted : checkPath (tidy path) = .ok ()) :
    locate files here (tidy path) =
      walk files (tidy path) (if Path.isAbsolute path then [] else here) (steps path) := by
  obtain ⟨stay, hparts, hstay⟩ := Path.exists_partsOf_tidy path
  rw [locate, haccepted, ok_bind, Path.isAbsolute_tidy, hparts]
  apply walk_of_stay _ hstay
  split
  · rfl
  · exact hdir

/-- A path as it is given and the one it is short for. The way goes up only where something is. -/
structure Expands (files : Files) (here : Location) (path : String) : Prop where
  reached : Reached files here
  directory : at? files here = some .directory
  accepted : checkPath (tidy path) = .ok ()
  acceptedInFull : checkPath (tidy (Path.resolve here path).text) = .ok ()
  up : ".." ∈ steps path → ∃ l, locate files here (tidy path) = .ok l

theorem Expands.locate_alike (h : Expands files here path) :
    Alike (locate files here (tidy path))
      (locate files here (tidy (Path.resolve here path).text)) := by
  have hstart : Reached files (if Path.isAbsolute path then [] else here) := by
    split
    · exact .root
    · exact h.reached
  have hfrom (s : String) (hs : s ∈ Path.resolve here path) :
      s ∈ (if Path.isAbsolute path then [] else here) ∨ s ∈ steps path := Path.mem_foldl_follow hs
  have hsteps : steps (Path.resolve here path).text = Path.resolve here path := by
    apply Location.steps_text
    · intro s hs
      exact (hfrom s hs).elim (hstart.isStep s) Path.isStep_of_mem_steps
    · intro s hs
      exact (hfrom s hs).elim (hstart.slash_notMem s) Path.slash_notMem_of_mem_steps
  rw [locate_tidy h.directory h.acceptedInFull, Location.isAbsolute_text, if_pos rfl, hsteps]
  by_cases hup : ".." ∈ steps path
  · obtain ⟨l, hl⟩ := h.up hup
    have heq : l = Path.resolve here path := by
      rw [eq_resolve_of_locate hl, Path.resolve_tidy]
    rw [locate_tidy h.directory h.accepted] at hl
    have hreached := hstart.of_walk hl fun _ => Path.slash_notMem_of_mem_steps
    rw [locate_tidy h.directory h.accepted, hl, ← heq, hreached.walk]
    exact .ok l
  · rw [locate_tidy h.directory h.accepted, Path.resolve, Path.foldl_follow_eq_append hup,
      walk_append, hstart.walk, ok_bind]
    exact walk_alike ..

/-! ### What is kept when files are written and directories are made -/

theorem at?_put_self (hl : l ≠ []) (c : Content) : at? (OrderedMap.put l c files) l = some c := by
  simp [at?, hl, OrderedMap.get?_put_self]

theorem at?_put_of_ne (hlm : l ≠ m) (c : Content) :
    at? (OrderedMap.put l c files) m = at? files m := by
  simp [at?, OrderedMap.get?_put_of_ne hlm]

theorem at?_remove_self (hl : l ≠ []) : at? (remove files l) l = none := by
  have hget : OrderedMap.get? l (remove files l) = none := by
    cases hc : OrderedMap.get? l (remove files l) with
    | none => rfl
    | some c =>
      obtain ⟨k, hk, hmem⟩ := OrderedMap.exists_mem_of_get? hc
      have hkl : k = l := by simpa using hk
      simp [remove, hkl] at hmem
  simp [at?, hl, hget]

theorem at?_remove_of_ne (hlm : m ≠ l) : at? (remove files l) m = at? files m := by
  have hget : OrderedMap.get? m (remove files l) = OrderedMap.get? m files := by
    unfold remove
    induction files with
    | nil => rfl
    | cons e files ih =>
      by_cases he : e.1 = l
      · have hem : e.1 ≠ m := fun hem => hlm (hem.symm.trans he)
        simp [he, ih, OrderedMap.get?, Ne.symm hlm]
      · simp [he, ih, OrderedMap.get?]
  rw [at?, at?, hget]

/-- What is no directory is on the way to nowhere. -/
theorem walk_put (hl : at? files l ≠ some .directory) (c : Content) {start : Location}
    (h : walk files path start ps = .ok m) :
    walk (OrderedMap.put l c files) path start ps = .ok m := by
  induction ps generalizing start with
  | nil => exact h
  | cons p ps ih =>
    rw [walk] at h ⊢
    split at h
    · cases h
    · cases h
    · rename_i hdir
      have hne : l ≠ start := by
        rintro rfl
        exact hl hdir
      rw [at?_put_of_ne hne, hdir]
      dsimp only
      split at h
      · rename_i hstay
        rw [if_pos hstay]
        exact ih h
      · rename_i hgo
        rw [if_neg hgo]
        split at h
        · cases h
        · rename_i hsize
          rw [if_neg hsize]
          exact ih h

theorem locate_put (hl : at? files l ≠ some .directory) (c : Content)
    (h : locate files here path = .ok m) :
    locate (OrderedMap.put l c files) here path = .ok m := by
  obtain ⟨_, hcheck, hwalk⟩ := bind_eq_ok.1 h
  exact bind_eq_ok.2 ⟨_, hcheck, walk_put hl c hwalk⟩

theorem content?_eq_some {c : Content} :
    content? files here path = some c ↔
      ∃ m, locate files here path = .ok m ∧ at? files m = some c := by
  rw [content?]
  cases locate files here path <;> simp

theorem at?_of_content? {c : Content} (h : content? files here path = some c) :
    at? files (Path.resolve here path) = some c := by
  obtain ⟨l, hl, hat⟩ := content?_eq_some.1 h
  rwa [← eq_resolve_of_locate hl]

theorem content?_put_self (hl : at? files l ≠ some .directory) (c : Content)
    (h : locate files here path = .ok l) :
    content? (OrderedMap.put l c files) here path = some c := by
  have hne : l ≠ [] := by
    rintro rfl
    exact hl rfl
  exact content?_eq_some.2 ⟨l, locate_put hl c h, at?_put_self hne c⟩

theorem content?_put_of_ne (hl : at? files l ≠ some .directory) (c : Content) {c' : Content}
    (hne : locate files here path ≠ .ok l) (h : content? files here path = some c') :
    content? (OrderedMap.put l c files) here path = some c' := by
  obtain ⟨m, hm, hat⟩ := content?_eq_some.1 h
  have hlm : l ≠ m := by
    rintro rfl
    exact hne hm
  exact content?_eq_some.2 ⟨m, locate_put hl c hm, (at?_put_of_ne hlm c).trans hat⟩

theorem write_eq_ok {text : String} {files' : Files} (h : write files here path text = .ok files') :
    ∃ l, locate files here path = .ok l ∧ at? files l ≠ some .directory ∧
      files' = OrderedMap.put l (.file text) files := by
  obtain ⟨l, hl, h⟩ := bind_eq_ok.1 h
  split at h
  · cases h
  · rename_i hne
    exact ⟨l, hl, hne, by simpa using h.symm⟩

theorem getLast?_of_locate_join {directory name : String} (hname : IsName name)
    (h : locate files here (Path.join directory name) = .ok l) : l.getLast? = some name := by
  rw [eq_resolve_of_locate h, Path.resolve_join here directory hname]
  simp

theorem makeDirectory_keeps {files' : Files} {path' : String} {c : Content}
    (h : makeDirectory files here path = .ok files') (hc : content? files here path' = some c) :
    content? files' here path' = some c := by
  obtain ⟨l, hl, h⟩ := bind_eq_ok.1 h
  split at h
  · cases h
  · rename_i hnone
    obtain rfl : OrderedMap.put l .directory files = files' := by simpa using h
    refine content?_put_of_ne (by simp [hnone]) _ ?_ hc
    intro hl'
    obtain ⟨m, hm, hat⟩ := content?_eq_some.1 hc
    obtain rfl : l = m := by simpa [hl'] using hm
    simp [hnone] at hat

theorem makeStages_keeps {files' : Files} {path' : String} {c : Content} {stages : List String}
    (h : makeStages here files stages = .ok files') (hc : content? files here path' = some c) :
    content? files' here path' = some c := by
  induction stages generalizing files with
  | nil =>
    obtain rfl : files = files' := by simpa [makeStages] using h
    exact hc
  | cons path longer ih =>
    cases longer with
    | nil =>
      rw [makeStages, provideDirectory] at h
      split at h
      · obtain rfl : files = files' := by simpa using h
        exact hc
      · exact makeDirectory_keeps h hc
    | cons path₂ longer =>
      simp only [makeStages] at h
      split at h
      · exact ih h hc
      · obtain ⟨made, hmade, h⟩ := bind_eq_ok.1 h
        exact ih h (makeDirectory_keeps hmade hc)

/-- A text without carriage returns is read as it was written. -/
theorem unifyLineEnds_of_notMem {cs : List Char} (h : '\r' ∉ cs) : unifyLineEnds cs = cs := by
  induction cs using unifyLineEnds.induct with
  | case1 => rfl
  | case2 cs ih => exact absurd (.head _) h
  | case3 cs _ ih => exact absurd (.head _) h
  | case4 c cs _ hc ih =>
    rw [unifyLineEnds, ih fun hmem => h (.tail _ hmem)]
    all_goals assumption

end DesignComponents.Files
