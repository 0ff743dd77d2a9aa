import DesignComponents.OrderedMap
import Mathlib.Data.List.Induction
import Mathlib.Data.List.Nodup

/-!
Keys and look-ups of maps that are put together: the last map that has a key gives the value, the
first one the place.
-/

namespace DesignComponents.OrderedMap

variable {κ α : Type}

section

variable [BEq κ] {P : κ → α → Prop} {k : κ} {a : α} {m : OrderedMap κ α}

theorem forall_mem_put (hm : ∀ e ∈ m, P e.1 e.2) (hk : P k a)
    (hsame : ∀ k', (k' == k) = true → P k' a) : ∀ e ∈ put k a m, P e.1 e.2 := by
  induction m with
  | nil => simpa using hk
  | cons e m ih =>
    intro e' he'
    by_cases h : e.1 == k
    · simp only [put, h, if_true] at he'
      rcases List.mem_cons.1 he' with rfl | he'
      · exact hsame e.1 h
      · exact hm e' (.tail _ he')
    · simp only [put, h, Bool.false_eq_true, if_false] at he'
      rcases List.mem_cons.1 he' with rfl | he'
      · exact hm _ (.head _)
      · exact ih (fun e he => hm e (.tail _ he)) e' he'

theorem exists_mem_of_get? (h : get? k m = some a) : ∃ k', (k' == k) = true ∧ (k', a) ∈ m := by
  induction m with
  | nil => simp at h
  | cons e m ih =>
    by_cases he : e.1 == k
    · simp only [get?, he, if_true, Option.some.injEq] at h
      exact ⟨e.1, he, h ▸ .head _⟩
    · simp only [get?, he, Bool.false_eq_true, if_false] at h
      obtain ⟨k', hk', hmem⟩ := ih h
      exact ⟨k', hk', .tail _ hmem⟩

theorem merge_cons (m : OrderedMap κ α) (e : κ × α) (m' : OrderedMap κ α) :
    merge m (e :: m') = merge (put e.1 e.2 m) m' := rfl

theorem merge_append (m es es' : OrderedMap κ α) :
    merge m (es ++ es') = merge (merge m es) es' := List.foldl_append

end

def keys (m : OrderedMap κ α) : List κ := m.map Prod.fst

@[simp] theorem keys_nil : keys ([] : OrderedMap κ α) = [] := rfl

@[simp] theorem keys_cons (e : κ × α) (m : OrderedMap κ α) : keys (e :: m) = e.1 :: keys m := rfl

variable [DecidableEq κ]

/-- All the entries of maps, where the last map that has a key gives the value. -/
def mergeAll (ms : List (OrderedMap κ α)) : OrderedMap κ α := ms.foldr merge []

theorem keys_put (k : κ) (a : α) (m : OrderedMap κ α) :
    keys (put k a m) = if k ∈ keys m then keys m else keys m ++ [k] := by
  induction m with
  | nil => rfl
  | cons e m ih =>
    by_cases h : e.1 = k
    · simp [put, h]
    · have h' : ¬ k = e.1 := fun h' => h h'.symm
      simp only [put, beq_iff_eq, h, if_false, keys_cons, ih, List.mem_cons, h', false_or]
      split <;> simp

theorem get?_eq_none {k : κ} {m : OrderedMap κ α} : get? k m = none ↔ k ∉ keys m := by
  induction m with
  | nil => simp
  | cons e m ih =>
    by_cases h : e.1 = k
    · simp [get?, h]
    · have h' : ¬ k = e.1 := fun h' => h h'.symm
      simp [get?, h, h', ih]

theorem get?_merge (k : κ) (m m' : OrderedMap κ α) (h : (keys m').Nodup) :
    get? k (merge m m') = (get? k m').or (get? k m) := by
  induction m' generalizing m with
  | nil => simp
  | cons e m' ih =>
    rw [keys_cons, List.nodup_cons] at h
    rw [merge_cons, ih _ h.2]
    by_cases hk : e.1 = k
    · subst hk
      rw [get?_eq_none.2 h.1, get?_put_self]
      simp [get?]
    · rw [get?_put_of_ne hk]
      simp [get?, hk]

theorem keys_merge (m m' : OrderedMap κ α) (h : (keys m').Nodup) :
    keys (merge m m') = keys m ++ (keys m').filter (· ∉ keys m) := by
  induction m' generalizing m with
  | nil => simp
  | cons e m' ih =>
    rw [keys_cons, List.nodup_cons] at h
    rw [merge_cons, ih _ h.2, keys_put]
    by_cases hk : e.1 ∈ keys m
    · simp [hk]
    · have hne : (keys m').filter (· ∉ keys m ++ [e.1]) = (keys m').filter (· ∉ keys m) := by
        apply List.filter_congr
        intro k hk'
        have hke : k ≠ e.1 := fun hke => h.1 (hke ▸ hk')
        simp [hke]
      rw [if_neg hk, hne, keys_cons, List.filter_cons_of_pos (by simpa using hk)]
      simp

theorem nodup_merge {m m' : OrderedMap κ α} (h : (keys m).Nodup) (h' : (keys m').Nodup) :
    (keys (merge m m')).Nodup := by
  rw [keys_merge m m' h', List.nodup_append]
  refine ⟨h, h'.filter _, ?_⟩
  rintro k hk _ hk' rfl
  exact absurd hk (by simpa using (List.mem_filter.1 hk').2)

theorem eraseDups_of_nodup {ks : List κ} (h : ks.Nodup) : ks.eraseDups = ks := by
  induction ks with
  | nil => rfl
  | cons k ks ih =>
    rw [List.nodup_cons] at h
    have hne : ks.filter (fun k' => !k' == k) = ks := by
      apply List.filter_eq_self.2
      intro k' hk'
      have hne : k' ≠ k := fun he => h.1 (he ▸ hk')
      simpa using hne
    rw [List.eraseDups_cons, hne, ih h.2]

theorem eraseDups_filter (p : κ → Bool) (ks : List κ) :
    (ks.filter p).eraseDups = ks.eraseDups.filter p := by
  induction hn : ks.length using Nat.strongRecOn generalizing ks with
  | ind n ih =>
    cases ks with
    | nil => rfl
    | cons k ks =>
      have hlt : (ks.filter (fun k' => !k' == k)).length < n :=
        hn ▸ Nat.lt_succ_of_le (List.length_filter_le ..)
      rw [List.eraseDups_cons]
      by_cases hp : p k
      · rw [List.filter_cons_of_pos hp, List.filter_cons_of_pos hp, List.eraseDups_cons,
          ← ih _ hlt _ rfl, List.filter_filter, List.filter_filter]
        simp only [Bool.and_comm]
      · rw [List.filter_cons_of_neg hp, List.filter_cons_of_neg hp, ← ih _ hlt _ rfl,
          List.filter_filter]
        congr 1
        apply List.filter_congr
        intro k' _
        by_cases hk : k' = k <;> simp_all

/-- The keys of maps that are put together stand where each came first. -/
theorem keys_mergeAll {ms : List (OrderedMap κ α)} (h : ∀ m ∈ ms, (keys m).Nodup) :
    keys (mergeAll ms) = (ms.flatMap keys).eraseDups ∧ (keys (mergeAll ms)).Nodup := by
  induction ms with
  | nil => exact ⟨rfl, .nil⟩
  | cons m ms ih =>
    have hm := h m (.head _)
    obtain ⟨hkeys, hnodup⟩ := ih fun m' hm' => h m' (.tail _ hm')
    refine ⟨?_, nodup_merge hm hnodup⟩
    change keys (merge m (mergeAll ms)) = _
    rw [keys_merge m _ hnodup, hkeys, List.flatMap_cons, List.eraseDups_append,
      eraseDups_of_nodup hm, List.removeAll, eraseDups_filter]
    simp

/-- The last of the maps that has a key gives the value. -/
theorem get?_mergeAll (k : κ) {ms : List (OrderedMap κ α)} (h : ∀ m ∈ ms, (keys m).Nodup) :
    get? k (mergeAll ms) = ms.reverse.findSome? (get? k) := by
  induction ms with
  | nil => rfl
  | cons m ms ih =>
    have hms : ∀ m' ∈ ms, (keys m').Nodup := fun m' hm' => h m' (.tail _ hm')
    change get? k (merge m (mergeAll ms)) = _
    rw [get?_merge k m _ (keys_mergeAll hms).2, ih hms, List.reverse_cons, List.findSome?_append]
    simp

theorem ofList_concat (es : List (κ × α)) (e : κ × α) :
    ofList (es ++ [e]) = put e.1 e.2 (ofList es) := List.foldl_concat ..

/-- A key that comes again keeps its place. -/
theorem keys_ofList (es : List (κ × α)) : keys (ofList es) = (es.map Prod.fst).eraseDups := by
  induction es using List.reverseRecOn with
  | nil => rfl
  | append_singleton es e ih =>
    rw [ofList_concat, keys_put, ih, List.map_append, List.eraseDups_append]
    by_cases h : e.1 ∈ es.map Prod.fst
    · simp [h, List.removeAll]
    · simp [h, List.removeAll, List.eraseDups_cons]

/-- A key that comes again takes the new value. -/
theorem get?_ofList (k : κ) (es : List (κ × α)) : get? k (ofList es) = get? k es.reverse := by
  induction es using List.reverseRecOn with
  | nil => rfl
  | append_singleton es e ih =>
    rw [ofList_concat, List.reverse_append, List.reverse_singleton, List.singleton_append]
    by_cases h : e.1 = k
    · subst h
      simp [get?_put_self, get?]
    · simp [get?_put_of_ne h, get?, h, ih]

theorem nodup_put {m : OrderedMap κ α} (k : κ) (a : α) (h : (keys m).Nodup) :
    (keys (put k a m)).Nodup := by
  rw [keys_put]
  split
  case isTrue => exact h
  case isFalse hk => exact h.append (List.nodup_singleton k) (by simpa using hk)

theorem nodup_ofList (es : List (κ × α)) : (keys (ofList es)).Nodup := by
  induction es using List.reverseRecOn with
  | nil => exact .nil
  | append_singleton es e ih =>
    rw [ofList_concat]
    exact nodup_put e.1 e.2 ih

theorem put_of_notMem {k : κ} (a : α) {m : OrderedMap κ α} (h : k ∉ keys m) :
    put k a m = m ++ [(k, a)] := by
  induction m with
  | nil => rfl
  | cons e m ih =>
    rw [keys_cons, List.mem_cons, not_or] at h
    have hne : ¬ (e.1 == k) = true := by simpa using Ne.symm h.1
    rw [put, if_neg hne, ih h.2, List.cons_append]

/-- Entries whose keys are distinct are the map. -/
theorem ofList_of_nodup {m : OrderedMap κ α} (h : (keys m).Nodup) : ofList m = m := by
  induction m using List.reverseRecOn with
  | nil => rfl
  | append_singleton m e ih =>
    rw [keys, List.map_append, List.nodup_append] at h
    obtain ⟨hm, -, hdisjoint⟩ := h
    have hnew : e.1 ∉ keys m := fun hmem => hdisjoint _ hmem e.1 (by simp) rfl
    rw [ofList_concat, ih hm, put_of_notMem e.2 hnew]

end DesignComponents.OrderedMap
