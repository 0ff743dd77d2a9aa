import DesignComponents.Proofs.Text.Strip
import DesignComponents.Scene.NodeId

/-!
Which texts stand for an identifier. As it is and as addresses have it, an identifier is put into
one form, and no text stands for two.
-/

namespace DesignComponents

theorem CharRanges.contains_eq_false {rs ss : CharRanges} {c : Char}
    (h : ∀ r ∈ rs, ∀ s ∈ ss, r.2 < s.1 ∨ s.2 < r.1) (hc : rs.contains c = true) :
    ss.contains c = false := by
  simp only [contains, List.any_eq_true, Bool.and_eq_true, decide_eq_true_eq] at hc
  obtain ⟨r, hr, hrange⟩ := hc
  simp only [contains, List.any_eq_false, Bool.and_eq_true, decide_eq_true_eq]
  intro s hs hrange'
  have := h r hr s hs
  omega

theorem isBlank_of_isDecimalDigit {c : Char} (h : isDecimalDigit c = true) : isBlank c = false :=
  CharRanges.contains_eq_false (by decide +kernel) h

namespace NodeId

/-- A digit at least, and nothing but digits. -/
structure IsNumeral (cs : List Char) : Prop where
  nonempty : cs ≠ []
  digits : ∀ c ∈ cs, isDecimalDigit c = true

/-- Pairs of numbers: a colon in each pair, a semicolon between one and the next. -/
inductive IsPath : List Char → Prop
  | last {a b : List Char} (ha : IsNumeral a) (hb : IsNumeral b) : IsPath (a ++ ':' :: b)
  | more {a b cs : List Char} (ha : IsNumeral a) (hb : IsNumeral b) (hcs : IsPath cs) :
    IsPath (a ++ ':' :: (b ++ ';' :: cs))

/-- An `I` may precede the pairs. -/
inductive IsIdentifier : List Char → Prop
  | plain {cs : List Char} (h : IsPath cs) : IsIdentifier cs
  | marked {cs : List Char} (h : IsPath cs) : IsIdentifier ('I' :: cs)

/-- An identifier as addresses have it. -/
def withHyphens (cs : List Char) : List Char := cs.map fun c => if c = ':' then '-' else c

/-- Two numbers with a colon or hyphen between them, whatever comes behind. -/
inductive Begins : List Char → Prop
  | intro {mark a b rest : List Char} {sep : Char} (hmark : mark = [] ∨ mark = ['I'])
    (ha : IsNumeral a) (hsep : sep = ':' ∨ sep = '-') (hb : IsNumeral b) :
    Begins (mark ++ (a ++ sep :: (b ++ rest)))

/-- A text that stands for an identifier, with blanks around it. -/
structure Writes (id s : String) : Prop where
  identifier : IsIdentifier id.toList
  written : ∃ before form after : List Char, s.toList = before ++ (form ++ after) ∧
    (form = id.toList ∨ form = withHyphens id.toList) ∧
    (∀ c ∈ before, isBlank c = true) ∧ ∀ c ∈ after, isBlank c = true

variable {cs a b rest : List Char} {c sep : Char}

/-! ### Numbers -/

theorem IsNumeral.notMem (h : IsNumeral a) (hc : isDecimalDigit c = false) : c ∉ a :=
  fun hmem => Bool.false_ne_true (hc.symm.trans (h.digits c hmem))

theorem IsNumeral.digits?_append (h : IsNumeral a) (hsep : isDecimalDigit sep = false) :
    digits? (a ++ sep :: rest) = some (sep :: rest) := by
  have hstop : ¬ isDecimalDigit sep = true := by simp [hsep]
  have htake : (a ++ sep :: rest).takeWhile isDecimalDigit = a := by
    rw [List.takeWhile_append_of_pos h.digits, List.takeWhile_cons_of_neg hstop, List.append_nil]
  have hdrop : (a ++ sep :: rest).dropWhile isDecimalDigit = sep :: rest := by
    rw [List.dropWhile_append_of_pos h.digits, List.dropWhile_cons_of_neg hstop]
  rw [digits?, htake, hdrop]
  cases a with
  | nil => exact absurd rfl h.nonempty
  | cons c cs => rfl

theorem isNumeral_takeWhile (h : cs.takeWhile isDecimalDigit ≠ []) :
    IsNumeral (cs.takeWhile isDecimalDigit) :=
  ⟨h, fun _ hc => List.mem_takeWhile_imp hc⟩

theorem exists_of_digits? (h : digits? cs = some rest) : ∃ a, IsNumeral a ∧ cs = a ++ rest := by
  unfold digits? at h
  split at h
  case h_1 => cases h
  case h_2 hne =>
    obtain rfl := Option.some.inj h
    exact ⟨_, isNumeral_takeWhile hne, List.takeWhile_append_dropWhile.symm⟩

theorem IsNumeral.digits?_isSome (h : IsNumeral a) (rest : List Char) :
    (digits? (a ++ rest)).isSome = true := by
  have htake : (a ++ rest).takeWhile isDecimalDigit ≠ [] := by
    rw [List.takeWhile_append_of_pos h.digits]
    exact fun hnil => h.nonempty (List.append_eq_nil_iff.1 hnil).1
  unfold digits?
  split
  case h_1 hnil => exact absurd hnil htake
  case h_2 => rfl

theorem isPairFront_iff : isPairFront cs = true ↔
    ∃ a sep b rest, IsNumeral a ∧ (sep = ':' ∨ sep = '-') ∧ IsNumeral b ∧
      cs = a ++ sep :: (b ++ rest) := by
  constructor
  · intro h
    have hpair {sep : Char} {rest : List Char} (hcs : digits? cs = some (sep :: rest))
        (hrest : (digits? rest).isSome = true) (hsep : sep = ':' ∨ sep = '-') :
        ∃ a sep b rest, IsNumeral a ∧ (sep = ':' ∨ sep = '-') ∧ IsNumeral b ∧
          cs = a ++ sep :: (b ++ rest) := by
      obtain ⟨a, ha, rfl⟩ := exists_of_digits? hcs
      obtain ⟨rest', hrest'⟩ := Option.isSome_iff_exists.1 hrest
      obtain ⟨b, hb, rfl⟩ := exists_of_digits? hrest'
      exact ⟨a, sep, b, rest', ha, hsep, hb, rfl⟩
    unfold isPairFront at h
    split at h
    case h_1 hcs => exact hpair hcs h (.inl rfl)
    case h_2 hcs => exact hpair hcs h (.inr rfl)
    case h_3 => cases h
  · rintro ⟨a, sep, b, rest, ha, rfl | rfl, hb, rfl⟩
    · rw [isPairFront, ha.digits?_append isDecimalDigit_colon]
      exact hb.digits?_isSome rest
    · rw [isPairFront, ha.digits?_append isDecimalDigit_hyphen]
      exact hb.digits?_isSome rest

theorem looksLikeId_mark (cs : List Char) : looksLikeId ('I' :: cs) = isPairFront cs := rfl

theorem looksLikeId_of_ne (h : cs.head? ≠ some 'I') : looksLikeId cs = isPairFront cs := by
  unfold looksLikeId
  split
  case h_1 => exact absurd rfl h
  case h_2 => rfl

theorem looksLikeId_iff : looksLikeId cs = true ↔ Begins cs := by
  constructor
  · intro h
    by_cases hmark : cs.head? = some 'I'
    · obtain ⟨body, rfl⟩ := List.head?_eq_some_iff.1 hmark
      rw [looksLikeId_mark, isPairFront_iff] at h
      obtain ⟨a, sep, b, rest, ha, hsep, hb, rfl⟩ := h
      exact .intro (.inr (Eq.refl ['I'])) ha hsep hb
    · rw [looksLikeId_of_ne hmark, isPairFront_iff] at h
      obtain ⟨a, sep, b, rest, ha, hsep, hb, rfl⟩ := h
      exact .intro (.inl (Eq.refl [])) ha hsep hb
  · rintro @⟨mark, a, b, rest, sep, rfl | rfl, ha, hsep, hb⟩
    · have hdigit : (a ++ sep :: (b ++ rest)).head? ≠ some 'I' := by
        rw [List.head?_append_of_ne_nil _ ha.nonempty]
        exact fun hhead => ha.notMem (by decide) (List.mem_of_head? hhead)
      rw [List.nil_append, looksLikeId_of_ne hdigit, isPairFront_iff]
      exact ⟨a, sep, b, rest, ha, hsep, hb, rfl⟩
    · rw [List.cons_append, List.nil_append, looksLikeId_mark, isPairFront_iff]
      exact ⟨a, sep, b, rest, ha, hsep, hb, rfl⟩

/-! ### Identifiers -/

theorem IsPath.chars (h : IsPath cs) :
    ∀ c ∈ cs, c = ':' ∨ c = ';' ∨ isDecimalDigit c = true := by
  induction h with
  | last ha hb =>
    simp only [List.mem_append, List.mem_cons]
    rintro c (hc | rfl | hc)
    · exact .inr (.inr (ha.digits c hc))
    · exact .inl rfl
    · exact .inr (.inr (hb.digits c hc))
  | more ha hb _ ih =>
    simp only [List.mem_append, List.mem_cons]
    rintro c (hc | rfl | hc | rfl | hc)
    · exact .inr (.inr (ha.digits c hc))
    · exact .inl rfl
    · exact .inr (.inr (hb.digits c hc))
    · exact .inr (.inl rfl)
    · exact ih c hc

theorem IsPath.front (h : IsPath cs) :
    ∃ a b rest, IsNumeral a ∧ IsNumeral b ∧ cs = a ++ ':' :: (b ++ rest) := by
  cases h with
  | @last a b ha hb => exact ⟨a, b, [], ha, hb, by simp⟩
  | @more a b cs ha hb _ => exact ⟨a, b, ';' :: cs, ha, hb, rfl⟩

theorem withHyphens_of_notMem (h : ':' ∉ cs) : withHyphens cs = cs := by
  refine (List.map_congr_left fun c hc => ?_).trans (List.map_id cs)
  exact if_neg fun (hcolon : c = ':') => h (hcolon ▸ hc)

theorem withColons_withHyphens (h : '-' ∉ cs) : withColons (withHyphens cs) = cs := by
  rw [withColons, withHyphens, List.map_map]
  refine (List.map_congr_left fun c hc => ?_).trans (List.map_id cs)
  have hne : c ≠ '-' := fun hhyphen => h (hhyphen ▸ hc)
  by_cases hcolon : c = ':'
  · simp [hcolon]
  · simp [hcolon, hne]

theorem colon_notMem_withHyphens (cs : List Char) : ':' ∉ withHyphens cs := by
  simp only [withHyphens, List.mem_map, not_exists, not_and]
  intro c _ hc
  split at hc
  · exact absurd hc (by decide)
  · contradiction

theorem withHyphens_front (ha : IsNumeral a) (hb : IsNumeral b) (rest : List Char) :
    withHyphens (a ++ ':' :: (b ++ rest)) = a ++ '-' :: (b ++ withHyphens rest) := by
  have hdigits {d : List Char} (hd : IsNumeral d) : withHyphens d = d :=
    withHyphens_of_notMem (hd.notMem isDecimalDigit_colon)
  calc withHyphens (a ++ ':' :: (b ++ rest))
      _ = withHyphens a ++ '-' :: (withHyphens b ++ withHyphens rest) := by simp [withHyphens]
      _ = a ++ '-' :: (b ++ withHyphens rest) := by rw [hdigits ha, hdigits hb]

namespace IsIdentifier

variable (h : IsIdentifier cs)
include h

theorem chars : ∀ c ∈ cs, c = 'I' ∨ c = ':' ∨ c = ';' ∨ isDecimalDigit c = true := by
  cases h with
  | plain h => exact fun c hc => .inr (h.chars c hc)
  | marked h =>
    rw [List.forall_mem_cons]
    exact ⟨.inl rfl, fun c hc => .inr (h.chars c hc)⟩

theorem not_isBlank : ∀ c ∈ cs, isBlank c = false := by
  intro c hc
  rcases h.chars c hc with rfl | rfl | rfl | hdigit
  · decide
  · decide
  · decide
  · exact isBlank_of_isDecimalDigit hdigit

theorem hyphen_notMem : '-' ∉ cs := fun hmem => by
  simpa [isDecimalDigit_hyphen] using h.chars _ hmem

theorem front : ∃ mark a b rest, (mark = [] ∨ mark = ['I']) ∧ IsNumeral a ∧ IsNumeral b ∧
    cs = mark ++ (a ++ ':' :: (b ++ rest)) := by
  cases h with
  | plain h =>
    obtain ⟨a, b, rest, ha, hb, rfl⟩ := h.front
    exact ⟨[], a, b, rest, .inl rfl, ha, hb, rfl⟩
  | marked h =>
    obtain ⟨a, b, rest, ha, hb, rfl⟩ := h.front
    exact ⟨['I'], a, b, rest, .inr rfl, ha, hb, rfl⟩

theorem colon_mem : ':' ∈ cs := by
  obtain ⟨mark, a, b, rest, -, -, -, rfl⟩ := h.front
  simp

theorem begins_withHyphens : Begins (withHyphens cs) := by
  obtain ⟨mark, a, b, rest, hmark, ha, hb, rfl⟩ := h.front
  have hmark' : withHyphens mark = mark := by
    rcases hmark with rfl | rfl <;> rfl
  have happend : withHyphens (mark ++ (a ++ ':' :: (b ++ rest))) =
      mark ++ (a ++ '-' :: (b ++ withHyphens rest)) := by
    rw [← withHyphens_front ha hb, withHyphens, List.map_append]
    exact congrArg (· ++ _) hmark'
  rw [happend]
  exact .intro hmark ha (.inr rfl) hb

theorem withHyphens_not_isBlank : ∀ c ∈ withHyphens cs, isBlank c = false := by
  intro c hc
  obtain ⟨d, hd, rfl⟩ := List.mem_map.1 hc
  split
  · decide
  · exact h.not_isBlank d hd

end IsIdentifier

/-! ### Their form -/

theorem normalizeChars_of_begins (h : Begins (stripChars cs)) (hcolon : ':' ∉ stripChars cs) :
    normalizeChars cs = withColons (stripChars cs) := by
  simp [normalizeChars, looksLikeId_iff.2 h, hcolon]

theorem normalizeChars_of_not (h : ¬ (Begins (stripChars cs) ∧ ':' ∉ stripChars cs)) :
    normalizeChars cs = stripChars cs := by
  rw [← looksLikeId_iff] at h
  simp only [normalizeChars]
  rw [if_neg]
  simpa using h

/-- Blanks around a text with none at its ends come to nothing. -/
theorem stripChars_within {before after : List Char} (hcs : ∀ c ∈ cs, isBlank c = false)
    (hbefore : ∀ c ∈ before, isBlank c = true) (hafter : ∀ c ∈ after, isBlank c = true) :
    stripChars (before ++ (cs ++ after)) = cs := by
  rw [stripChars_append hbefore, stripChars_append_blanks hafter,
    (isStripped_of_forall hcs).stripChars_eq_self]

theorem Writes.normalize_eq {id s : String} (h : Writes id s) : normalize s = id := by
  obtain ⟨hid, before, form, after, hs, hform, hbefore, hafter⟩ := h
  apply String.toList_inj.1
  rw [normalize_toList, hs]
  rcases hform with rfl | rfl
  · have hstrip := stripChars_within hid.not_isBlank hbefore hafter
    rw [normalizeChars_of_not (by simp [hstrip, hid.colon_mem]), hstrip]
  · have hstrip := stripChars_within hid.withHyphens_not_isBlank hbefore hafter
    rw [normalizeChars_of_begins (hstrip.symm ▸ hid.begins_withHyphens)
      (hstrip.symm ▸ colon_notMem_withHyphens _), hstrip, withColons_withHyphens hid.hyphen_notMem]

theorem Begins.separator_mem (h : Begins cs) : ':' ∈ cs ∨ '-' ∈ cs := by
  obtain ⟨-, -, rfl | rfl, -⟩ := h
  · exact .inl (by simp)
  · exact .inr (by simp)

theorem colon_mem_withColons (h : '-' ∈ cs) : ':' ∈ withColons cs :=
  List.mem_map.2 ⟨'-', h, rfl⟩

theorem isStripped_withColons (h : IsStripped cs) : IsStripped (withColons cs) := by
  have hend {c : Char} {end? : Option Char} (hend? : ∀ c ∈ end?, isBlank c = false)
      (hc : c ∈ end?.map fun c => if c = '-' then ':' else c) : isBlank c = false := by
    obtain ⟨d, hd, rfl⟩ := Option.map_eq_some_iff.1 hc
    split
    · decide
    · exact hend? d hd
  rw [withColons]
  refine ⟨fun c hc => hend h.1 ?_, fun c hc => hend h.2 ?_⟩
  · rwa [List.head?_map] at hc
  · rwa [List.getLast?_map] at hc

theorem normalizeChars_normalizeChars (cs : List Char) :
    normalizeChars (normalizeChars cs) = normalizeChars cs := by
  by_cases h : Begins (stripChars cs) ∧ ':' ∉ stripChars cs
  · obtain ⟨hbegins, hcolon⟩ := h
    have hstripped := isStripped_withColons (isStripped_stripChars cs)
    have hmem : ':' ∈ withColons (stripChars cs) :=
      colon_mem_withColons (hbegins.separator_mem.resolve_left hcolon)
    rw [normalizeChars_of_begins hbegins hcolon, normalizeChars_of_not, hstripped.stripChars_eq_self]
    rw [hstripped.stripChars_eq_self]
    exact fun h => h.2 hmem
  · have hstripped := (isStripped_stripChars cs).stripChars_eq_self
    rw [normalizeChars_of_not h, normalizeChars_of_not (by rwa [hstripped]), hstripped]

/-- Putting an identifier into form is done once and for all; every way to write an identifier
comes to the identifier, so no two come to one; and any text is either freed of blanks, or, if it
begins as an identifier and holds no colon, has a colon for each of its hyphens too. -/
theorem normalize_identifiers :
    (∀ s, normalize (normalize s) = normalize s) ∧
      (∀ id s, Writes id s → normalize s = id) ∧
      (∀ id id' s s', Writes id s → Writes id' s' → normalize s = normalize s' → id = id') ∧
      ∀ s, let cs := (strip s).toList
        (Begins cs ∧ ':' ∉ cs ∧ normalize s = String.ofList (withColons cs)) ∨
          (¬ (Begins cs ∧ ':' ∉ cs) ∧ normalize s = strip s) := by
  refine ⟨fun s => ?_, fun id s h => h.normalize_eq, fun id id' s s' h h' heq => ?_, fun s => ?_⟩
  · apply String.toList_inj.1
    rw [normalize_toList, normalize_toList, normalizeChars_normalizeChars]
  · rw [← h.normalize_eq, heq, h'.normalize_eq]
  · rw [strip_toList]
    by_cases h : Begins (stripChars s.toList) ∧ ':' ∉ stripChars s.toList
    · exact .inl ⟨h.1, h.2, by rw [normalize, normalizeChars_of_begins h.1 h.2]⟩
    · exact .inr ⟨h, by rw [normalize, normalizeChars_of_not h, strip]⟩

/-- An instance in an instance, as addresses have it. -/
def nestedId : String := "I12:3;45:٦"

theorem nestedId_isIdentifier : IsIdentifier nestedId.toList := by
  have hnumeral (cs : List Char) (hne : cs ≠ []) (hcs : cs.all isDecimalDigit = true) :
      IsNumeral cs := ⟨hne, List.all_eq_true.1 hcs⟩
  have h12 := hnumeral ['1', '2'] (by decide) (by decide)
  have h3 := hnumeral ['3'] (by decide) (by decide)
  have h45 := hnumeral ['4', '5'] (by decide) (by decide)
  have h6 := hnumeral ['٦'] (by decide) (by decide)
  exact .marked (.more h12 h3 (.last h45 h6))

theorem normalize_identifiers_nested :
    Writes nestedId "\tI12-3;45-٦ " ∧ normalize "\tI12-3;45-٦ " = nestedId := by
  have hblank (cs : List Char) (hcs : cs.all isBlank = true) : ∀ c ∈ cs, isBlank c = true :=
    List.all_eq_true.1 hcs
  have h : Writes nestedId "\tI12-3;45-٦ " :=
    ⟨nestedId_isIdentifier, ['\t'], withHyphens nestedId.toList, [' '], by decide, .inr rfl,
      hblank _ (by decide), hblank _ (by decide)⟩
  exact ⟨h, normalize_identifiers.2.1 _ _ h⟩

end NodeId

end DesignComponents
