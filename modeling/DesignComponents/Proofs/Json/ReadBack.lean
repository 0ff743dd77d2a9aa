import DesignComponents.Proofs.Json.Inline
import DesignComponents.Proofs.Json.Regular

/-!
Regular data is read back from the lines that it is written in.
-/

namespace DesignComponents.Json

/-! ### Texts -/

theorem hexValue?_hexDigit {n : Nat} (h : n < 16) : hexValue? (hexDigit n) = some n := by
  have hall : ∀ n < 16, hexValue? (hexDigit n) = some n := by decide
  exact hall n h

/-- Four digits are not read at the very end of a text. -/
theorem hexUnit?_hexDigits {n : Nat} (h : n < 0x10000) (c : Char) (cs : List Char) :
    hexUnit? (hexDigits n 4 ++ c :: cs) = some (n, c :: cs) := by
  have hdigit (k : Nat) : hexValue? (hexDigit (k % 16)) = some (k % 16) :=
    hexValue?_hexDigit (Nat.mod_lt _ (by decide))
  simp only [hexDigits, List.nil_append, List.cons_append, hexUnit?, hdigit, Option.bind_eq_bind,
    Option.bind_some, Option.pure_def, Option.some.injEq, Prod.mk.injEq, and_true]
  omega

theorem readUnit_hexDigits {n : Nat} (h : n < 0x20) (c : Char) (cs : List Char) :
    readUnit (hexDigits n 4 ++ c :: cs) = .ok (Char.ofNat n, c :: cs) := by
  have hhigh : isHighUnit n = false := by
    simp only [isHighUnit, Bool.and_eq_false_iff, decide_eq_false_iff_not]
    omega
  rw [readUnit, hexUnit?_hexDigits (by omega)]
  dsimp only
  split
  · rw [hhigh, if_neg (by decide)]
  · rfl

variable {start done cs rest : List Char} {fuel depth : Nat}

/-- One written character is read at a time. -/
theorem readString_escapedChar (c d : Char) :
    readString start (fuel + 1) done (escapedChar false c ++ d :: rest) =
      readString start fuel (c :: done) (d :: rest) := by
  by_cases hquote : c = '"'
  · subst hquote; rfl
  by_cases hslash : c = '\\'
  · subst hslash; rfl
  by_cases hline : c = '\n'
  · subst hline; rfl
  by_cases hreturn : c = '\r'
  · subst hreturn; rfl
  by_cases htab : c = '\t'
  · subst htab; rfl
  by_cases hback : c = '\x08'
  · subst hback; rfl
  by_cases hfeed : c = '\x0c'
  · subst hfeed; rfl
  by_cases hlow : c.toNat < 0x20
  · have hunit := readUnit_hexDigits hlow d rest
    simp [escapedChar, hquote, hslash, hline, hreturn, htab, hback, hfeed, hlow, unitEscape,
      readString, hunit]
  · simp [escapedChar, hquote, hslash, hline, hreturn, htab, hback, hfeed, hlow, readString]

/-- A text is read up to the quote behind it. -/
theorem readString_escaped (s : List Char) (h : s.length < fuel) :
    readString start fuel done (s.flatMap (escapedChar false) ++ '"' :: rest) =
      .ok (String.ofList (done.reverse ++ s), rest) := by
  induction s generalizing fuel done with
  | nil =>
    cases fuel with
    | zero => cases h
    | succ fuel => simp [readString]
  | cons c s ih =>
    cases fuel with
    | zero => cases h
    | succ fuel =>
      have hnext : ∃ d cs, s.flatMap (escapedChar false) ++ '"' :: rest = d :: cs :=
        List.exists_cons_of_ne_nil (by simp)
      obtain ⟨d, cs, hcs⟩ := hnext
      rw [List.flatMap_cons, List.append_assoc, hcs, readString_escapedChar, ← hcs,
        ih (by simpa using h), List.reverse_cons, List.append_assoc, List.singleton_append]

theorem length_le_escaped (s : List Char) :
    s.length ≤ (s.flatMap (escapedChar false)).length := by
  have hne (c : Char) : 1 ≤ (escapedChar false c).length :=
    escapedChar_cases (P := fun cs => 1 ≤ cs.length) (by simp) (by simp [unitEscape])
      (by simp [unitEscape]) (by simp)
  induction s with
  | nil => simp
  | cons c s ih =>
    rw [List.flatMap_cons, List.length_append, List.length_cons]
    have := hne c
    omega

theorem toList_escaped (s : String) :
    (escaped .lines s).toList = '"' :: (s.toList.flatMap (escapedChar false) ++ ['"']) := by
  simp [escaped, Style.lines]

/-! ### Layout -/

/-- What stands between two lines. -/
def lineStart (depth : Nat) : List Char := '\n' :: indentation depth

/-- The text of a value at a depth. -/
def linesAt (depth : Nat) (v : Json) : List Char := (writeAt .lines depth v).toList

/-- The text of a field at a depth. -/
def fieldAt (depth : Nat) (f : String × Json) : List Char :=
  '"' :: (f.1.toList.flatMap (escapedChar false) ++ '"' :: ':' :: ' ' :: linesAt depth f.2)

/-- Items on lines of their own, each but the last with a comma behind it. -/
def itemsAt (depth : Nat) (item : List Char) (items : List (List Char)) : List Char :=
  item ++ items.flatMap fun item => ',' :: (lineStart depth ++ item)

theorem itemsAt_nil (depth : Nat) (item : List Char) : itemsAt depth item [] = item := by
  rw [itemsAt, List.flatMap_nil, List.append_nil]

theorem itemsAt_cons (depth : Nat) (item next : List Char) (items : List (List Char)) :
    itemsAt depth item (next :: items) =
      item ++ ',' :: (lineStart depth ++ itemsAt depth next items) := by
  rw [itemsAt, itemsAt, List.flatMap_cons, List.cons_append, List.append_assoc]

theorem toList_bracket (opening closing item : String) (items : List String) :
    (bracket .lines depth opening closing (item :: items)).toList =
      opening.toList ++ (lineStart (depth + 1) ++
        (itemsAt (depth + 1) item.toList (items.map String.toList) ++
          (lineStart depth ++ closing.toList))) := by
  let line (depth : Nat) : String := "\n" ++ "".pushn ' ' (2 * depth)
  have hline (depth : Nat) : (line depth).toList = lineStart depth := by
    rw [String.toList_append, toList_pushn]
    rfl
  have htext : bracket .lines depth opening closing (item :: items) =
      opening ++ line (depth + 1) ++ ("," ++ line (depth + 1)).intercalate (item :: items) ++
        line depth ++ closing := rfl
  simp only [htext, String.toList_append, String.toList_intercalate, hline, List.map_cons,
    intercalate_cons, itemsAt, List.append_assoc]
  rfl

@[simp] theorem linesAt_null (depth : Nat) : linesAt depth .null = ['n', 'u', 'l', 'l'] := by
  rw [linesAt, writeAt]
  rfl

@[simp] theorem linesAt_bool (depth : Nat) (b : Bool) :
    linesAt depth (.bool b) = if b then ['t', 'r', 'u', 'e'] else ['f', 'a', 'l', 's', 'e'] := by
  rw [linesAt, writeAt]
  cases b <;> rfl

@[simp] theorem linesAt_num (depth : Nat) (n : Number) :
    linesAt depth (.num n) = n.dataText.toList := by rw [linesAt, writeAt]

@[simp] theorem linesAt_str (depth : Nat) (s : String) :
    linesAt depth (.str s) = '"' :: (s.toList.flatMap (escapedChar false) ++ ['"']) := by
  rw [linesAt, writeAt, toList_escaped]

@[simp] theorem linesAt_arr_nil (depth : Nat) : linesAt depth (.arr []) = ['[', ']'] := by
  rw [linesAt, writeAt, writeElements]
  simp [bracket]

@[simp] theorem linesAt_obj_nil (depth : Nat) : linesAt depth (.obj []) = ['\x7b', '\x7d'] := by
  rw [linesAt, writeAt, writeFields]
  simp [bracket]

theorem linesAt_arr (depth : Nat) (x : Json) (xs : List Json) : linesAt depth (.arr (x :: xs)) =
    '[' :: (lineStart (depth + 1) ++ (itemsAt (depth + 1) (linesAt (depth + 1) x)
      (xs.map (linesAt (depth + 1))) ++ (lineStart depth ++ [']']))) := by
  have hitems (xs : List Json) : (writeElements .lines (depth + 1) xs).map String.toList =
      xs.map (linesAt (depth + 1)) := by
    induction xs with
    | nil => rfl
    | cons x xs ih => rw [writeElements, List.map_cons, List.map_cons, ih, linesAt]
  rw [linesAt, writeAt, writeElements, toList_bracket, hitems]
  rfl

theorem linesAt_obj (depth : Nat) (f : String × Json) (fs : List (String × Json)) :
    linesAt depth (.obj (f :: fs)) =
      '\x7b' :: (lineStart (depth + 1) ++ (itemsAt (depth + 1) (fieldAt (depth + 1) f)
        (fs.map (fieldAt (depth + 1))) ++ (lineStart depth ++ ['\x7d']))) := by
  have hfield (f : String × Json) : (escaped .lines f.1 ++ Style.lines.colon ++
      writeAt .lines (depth + 1) f.2).toList = fieldAt (depth + 1) f := by
    have hcolon : Style.lines.colon.toList = [':', ' '] := by decide
    rw [String.toList_append, String.toList_append, toList_escaped, hcolon]
    simp [fieldAt, linesAt]
  have hitems (fs : List (String × Json)) : (writeFields .lines (depth + 1) fs).map String.toList =
      fs.map (fieldAt (depth + 1)) := by
    induction fs with
    | nil => rfl
    | cons f fs ih => rw [writeFields, List.map_cons, List.map_cons, ih, hfield]
  rw [linesAt, writeAt, writeFields, toList_bracket, hitems, hfield]
  rfl

@[simp] theorem skipSpaces_lineStart (depth : Nat) (cs : List Char) :
    skipSpaces (lineStart depth ++ cs) = skipSpaces cs := by
  have hblank : ∀ c ∈ lineStart depth, isSpace c = true := by
    intro c hc
    rcases List.mem_cons.1 hc with rfl | hc
    · decide
    · rw [List.eq_of_mem_replicate hc]
      decide
  exact List.dropWhile_append_of_pos hblank

theorem skipSpaces_cons {c : Char} (hc : isSpace c = false) (cs : List Char) :
    skipSpaces (c :: cs) = c :: cs := List.dropWhile_cons_of_neg (by simp [hc])

/-! ### Values -/

/-- At any depth and before anything that may come behind it, the value is read back. -/
def Reads (v : Json) : Prop :=
  ∀ depth rest fuel, Follows rest → 2 * (linesAt depth v ++ rest).length + 1 ≤ fuel →
    readValue fuel (linesAt depth v ++ rest) = .ok (v, rest)

/-- What the text of a value may begin with: no blank, no mark and no end of a list. -/
def IsFirst (c : Char) : Prop := isSpace c = false ∧ c ∉ ['\ufeff', ']']

instance (c : Char) : Decidable (IsFirst c) := inferInstanceAs (Decidable (_ ∧ _))

theorem admitsNumbers_first : AdmitsNumbers IsFirst where
  digit c hc := by
    have hne (d : Char) (hd : d.isDigit = false) : c ≠ d := ne_of_isDigit hc hd
    simp [IsFirst, isSpace, hne ' ' (by decide), hne '\t' (by decide), hne '\n' (by decide),
      hne '\r' (by decide), hne '\ufeff' (by decide), hne ']' (by decide)]
  point := by decide
  mark := by decide
  plus := by decide
  minus := by decide

theorem isFirst_of_linesAt {v : Json} {c : Char} (h : linesAt depth v = c :: cs) : IsFirst c := by
  cases v with
  | null =>
    rw [linesAt_null] at h
    cases h
    decide
  | bool b =>
    rw [linesAt_bool] at h
    cases b <;>
    · cases h
      decide
  | num n =>
    rw [linesAt_num] at h
    have hmem : c ∈ n.dataText.toList := by simp [h]
    have hname : ∀ c ∈ "NaN".toList, IsFirst c := by simp [IsFirst, isSpace]
    have hsize : ∀ c ∈ "Infinity".toList, IsFirst c := by simp [IsFirst, isSpace]
    cases n with
    | int n => exact admitsNumbers_first.int n c hmem
    | double x => exact admitsNumbers_first.text Layout.data hname hsize _ x c hmem
  | str s =>
    rw [linesAt_str] at h
    cases h
    decide
  | arr xs =>
    cases xs with
    | nil =>
      rw [linesAt_arr_nil] at h
      cases h
      decide
    | cons x xs =>
      rw [linesAt_arr] at h
      cases h
      decide
  | obj fs =>
    cases fs with
    | nil =>
      rw [linesAt_obj_nil] at h
      cases h
      decide
    | cons f fs =>
      rw [linesAt_obj] at h
      cases h
      decide

/-- What is read is not empty. -/
theorem Reads.exists_first {v : Json} (h : v.Reads) (depth : Nat) :
    ∃ c cs, linesAt depth v = c :: cs ∧ IsFirst c := by
  cases hv : linesAt depth v with
  | nil =>
    have hread := h depth [] _ (by simp [Follows]) le_rfl
    rw [hv] at hread
    cases hread
  | cons c cs => exact ⟨c, cs, rfl, isFirst_of_linesAt hv⟩

theorem skipSpaces_linesAt {v : Json} (h : v.Reads) (depth : Nat) (rest : List Char) :
    skipSpaces (linesAt depth v ++ rest) = linesAt depth v ++ rest := by
  obtain ⟨c, cs, hcs, hc⟩ := h.exists_first depth
  rw [hcs, List.cons_append, skipSpaces_cons hc.1]

theorem follows_lineStart (depth : Nat) (cs : List Char) : Follows (lineStart depth ++ cs) := by
  rintro c ⟨⟩
  exact .inr rfl

theorem follows_comma (cs : List Char) : Follows (',' :: cs) := by
  rintro c ⟨⟩
  exact .inl rfl

theorem skipSpaces_itemsAt {v : Json} (h : v.Reads) (depth : Nat) (items : List (List Char))
    (rest : List Char) : skipSpaces (itemsAt depth (linesAt depth v) items ++ rest) =
      itemsAt depth (linesAt depth v) items ++ rest := by
  rw [itemsAt, List.append_assoc]
  exact skipSpaces_linesAt h depth _

/-- Each call takes the text of an element and the comma behind it. -/
theorem readElements_append {x : Json} {xs done : List Json} (hx : x.Reads)
    (hxs : ∀ y ∈ xs, y.Reads)
    (hfuel : 2 * (itemsAt (depth + 1) (linesAt (depth + 1) x) (xs.map (linesAt (depth + 1))) ++
      (lineStart depth ++ ']' :: rest)).length + 2 ≤ fuel) :
    readElements fuel done (itemsAt (depth + 1) (linesAt (depth + 1) x)
      (xs.map (linesAt (depth + 1))) ++ (lineStart depth ++ ']' :: rest)) =
        .ok (done.reverse ++ x :: xs, rest) := by
  induction xs generalizing x done fuel with
  | nil =>
    obtain ⟨fuel, rfl⟩ : ∃ k, fuel = k + 1 := ⟨fuel - 1, by omega⟩
    rw [List.map_nil, itemsAt_nil] at hfuel ⊢
    rw [readElements, hx _ _ _ (follows_lineStart depth _) (by omega)]
    simp only [skipSpaces_lineStart, skipSpaces_cons (show isSpace ']' = false by decide),
      List.reverse_cons]
  | cons y ys ih =>
    obtain ⟨fuel, rfl⟩ : ∃ k, fuel = k + 1 := ⟨fuel - 1, by omega⟩
    rw [List.forall_mem_cons] at hxs
    rw [List.map_cons, itemsAt_cons, List.append_assoc, List.cons_append, List.append_assoc]
      at hfuel ⊢
    rw [readElements, hx _ _ _ (follows_comma _) (by omega)]
    simp only [skipSpaces_cons (show isSpace ',' = false by decide), skipSpaces_lineStart,
      skipSpaces_itemsAt hxs.1]
    rw [ih hxs.1 hxs.2, List.reverse_cons, List.append_assoc, List.singleton_append]
    simp only [List.length_append, List.length_cons] at hfuel ⊢
    omega

theorem skipSpaces_fieldAt (depth : Nat) (f : String × Json) (items : List (List Char))
    (rest : List Char) : skipSpaces (itemsAt depth (fieldAt depth f) items ++ rest) =
      itemsAt depth (fieldAt depth f) items ++ rest := skipSpaces_cons (by decide) _

/-- How reading goes on behind a field. -/
def afterField (fuel : Nat) (fs : List (String × Json)) (rest : List Char) :
    Except Stop (List (String × Json) × List Char) :=
  match skipSpaces rest with
  | '\x7d' :: rest => .ok (fs, rest)
  | ',' :: rest => readFields fuel fs (skipSpaces rest)
  | rest => .error ⟨.noComma, rest⟩

/-- One field is read up to what is behind it. -/
theorem readFields_fieldAt {f : String × Json} {gs : List (String × Json)} (hf : f.2.Reads)
    (hrest : Follows rest) (hfuel : 2 * (fieldAt depth f ++ rest).length ≤ fuel) :
    readFields (fuel + 1) gs (fieldAt depth f ++ rest) =
      afterField fuel (OrderedMap.put f.1 f.2 gs) rest := by
  have hname (start : List Char) (more : List Char) :
      readString start ((f.1.toList.flatMap (escapedChar false) ++ '"' :: more).length + 1) []
        (f.1.toList.flatMap (escapedChar false) ++ '"' :: more) = .ok (f.1, more) := by
    have hlength := length_le_escaped f.1.toList
    rw [readString_escaped, List.reverse_nil, List.nil_append, String.ofList_toList]
    rw [List.length_append]
    omega
  have hvalue : readValue fuel (linesAt depth f.2 ++ rest) = .ok (f.2, rest) := by
    refine hf _ _ _ hrest ?_
    simp only [fieldAt, List.length_append, List.length_cons] at hfuel ⊢
    omega
  have hskip : skipSpaces (' ' :: (linesAt depth f.2 ++ rest)) = linesAt depth f.2 ++ rest :=
    skipSpaces_linesAt hf depth rest
  rw [fieldAt, List.cons_append, List.append_assoc, List.cons_append, List.cons_append,
    List.cons_append, readFields, hname]
  simp only [skipSpaces_cons (show isSpace ':' = false by decide), hskip, hvalue]
  rfl

/-- A name that is not there yet is put behind the others. -/
theorem put_append {f : String × Json} {fs gs : List (String × Json)}
    (h : (OrderedMap.keys (gs ++ f :: fs)).Nodup) : OrderedMap.put f.1 f.2 gs = gs ++ [f] := by
  refine OrderedMap.put_of_notMem f.2 ?_
  rw [OrderedMap.keys, List.map_append, List.nodup_append] at h
  exact fun hmem => h.2.2 _ hmem _ (.head _) rfl

theorem readFields_append {f : String × Json} {fs gs : List (String × Json)}
    (hkeys : (OrderedMap.keys (gs ++ f :: fs)).Nodup) (hf : f.2.Reads)
    (hfs : ∀ g ∈ fs, g.2.Reads)
    (hfuel : 2 * (itemsAt (depth + 1) (fieldAt (depth + 1) f) (fs.map (fieldAt (depth + 1))) ++
      (lineStart depth ++ '\x7d' :: rest)).length + 2 ≤ fuel) :
    readFields fuel gs (itemsAt (depth + 1) (fieldAt (depth + 1) f)
      (fs.map (fieldAt (depth + 1))) ++ (lineStart depth ++ '\x7d' :: rest)) =
        .ok (gs ++ f :: fs, rest) := by
  induction fs generalizing f gs fuel with
  | nil =>
    obtain ⟨fuel, rfl⟩ : ∃ k, fuel = k + 1 := ⟨fuel - 1, by omega⟩
    rw [List.map_nil, itemsAt_nil] at hfuel ⊢
    rw [readFields_fieldAt hf (follows_lineStart depth _) (by omega), put_append hkeys]
    simp only [afterField, skipSpaces_lineStart,
      skipSpaces_cons (show isSpace '\x7d' = false by decide)]
  | cons g fs ih =>
    obtain ⟨fuel, rfl⟩ : ∃ k, fuel = k + 1 := ⟨fuel - 1, by omega⟩
    rw [List.forall_mem_cons] at hfs
    rw [List.map_cons, itemsAt_cons, List.append_assoc, List.cons_append, List.append_assoc]
      at hfuel ⊢
    rw [readFields_fieldAt hf (follows_comma _) (by omega), put_append hkeys]
    simp only [afterField, skipSpaces_cons (show isSpace ',' = false by decide),
      skipSpaces_lineStart, skipSpaces_fieldAt]
    have hmore : gs ++ f :: g :: fs = (gs ++ [f]) ++ g :: fs := by simp
    rw [hmore] at hkeys ⊢
    refine ih hkeys hfs.1 hfs.2 ?_
    simp only [List.length_append, List.length_cons] at hfuel ⊢
    omega

theorem readValue_num {n : Number} (hn : n.IsRegular) (hrest : Follows rest) (fuel : Nat) :
    readValue (fuel + 1) (n.dataText.toList ++ rest) = .ok (.num n, rest) := by
  cases n with
  | int n => exact readValue_int hn hrest fuel
  | double x =>
    cases x with
    | finite s m e => exact readValue_finite hn hrest fuel
    | infinite s => cases s <;> rfl
    | nan => rfl

/-- There is fuel for at least one call. -/
theorem reads_of_succ {v : Json} (h : ∀ depth rest fuel, Follows rest →
    2 * (linesAt depth v ++ rest).length ≤ fuel →
      readValue (fuel + 1) (linesAt depth v ++ rest) = .ok (v, rest)) : v.Reads := by
  intro depth rest fuel hrest hfuel
  obtain ⟨fuel, rfl⟩ : ∃ k, fuel = k + 1 := ⟨fuel - 1, by omega⟩
  exact h depth rest fuel hrest (by omega)

namespace Reads

theorem num {n : Number} (hn : n.IsRegular) : (Json.num n).Reads :=
  reads_of_succ fun depth rest fuel hrest _ => by rw [linesAt_num, readValue_num hn hrest]

theorem str (s : String) : (Json.str s).Reads := reads_of_succ fun depth rest fuel _ _ => by
  have hlength := length_le_escaped s.toList
  rw [linesAt_str, List.cons_append, List.append_assoc, List.singleton_append, readValue,
    readString_escaped, List.reverse_nil, List.nil_append, String.ofList_toList]
  rw [List.length_append]
  omega

theorem arr {xs : List Json} (h : ∀ x ∈ xs, x.Reads) : (Json.arr xs).Reads :=
  reads_of_succ fun depth rest fuel _ hfuel => by
    cases xs with
    | nil =>
      rw [linesAt_arr_nil]
      rfl
    | cons x xs =>
      rw [List.forall_mem_cons] at h
      obtain ⟨c, cs, hcs, hc⟩ := h.1.exists_first (depth + 1)
      simp only [linesAt_arr, List.cons_append, List.append_assoc, List.length_cons,
        List.nil_append] at hfuel ⊢
      unfold readValue
      simp only [skipSpaces_lineStart, skipSpaces_itemsAt h.1]
      split
      case h_1 heq =>
        rw [itemsAt, hcs] at heq
        obtain ⟨rfl, -⟩ := List.cons.inj heq
        exact absurd hc (by decide)
      case h_2 =>
        rw [readElements_append h.1 h.2]
        · rfl
        · simp only [List.length_append, List.length_cons] at hfuel ⊢
          omega

theorem obj {fs : List (String × Json)} (hkeys : (OrderedMap.keys fs).Nodup)
    (h : ∀ f ∈ fs, f.2.Reads) : (Json.obj fs).Reads :=
  reads_of_succ fun depth rest fuel _ hfuel => by
    cases fs with
    | nil =>
      rw [linesAt_obj_nil]
      rfl
    | cons f fs =>
      rw [List.forall_mem_cons] at h
      simp only [linesAt_obj, List.cons_append, List.append_assoc, List.length_cons,
        List.nil_append] at hfuel ⊢
      unfold readValue
      simp only [skipSpaces_lineStart, skipSpaces_fieldAt]
      split
      case h_1 heq => cases heq
      case h_2 =>
        rw [readFields_append hkeys h.1 h.2]
        · rfl
        · simp only [List.length_append, List.length_cons] at hfuel ⊢
          omega

end Reads

theorem IsRegular.reads {v : Json} (hv : v.IsRegular) : v.Reads := by
  induction hv with
  | null => exact reads_of_succ fun _ _ _ _ _ => by rw [linesAt_null]; rfl
  | bool b => exact reads_of_succ fun _ _ _ _ _ => by rw [linesAt_bool]; cases b <;> rfl
  | num hn => exact .num hn
  | str s => exact .str s
  | arr _ ih => exact .arr ih
  | obj hkeys _ ih => exact .obj hkeys ih

/-- Regular data is read back from its lines. -/
theorem IsRegular.read_lines {v : Json} (hv : v.IsRegular) : read v.lines = .ok v := by
  obtain ⟨c, cs, hcs, hc⟩ := hv.reads.exists_first 0
  have hvalue := hv.reads 0 [] (2 * (linesAt 0 v).length + 2) (by simp [Follows]) (by simp)
  have htext : v.lines.toList = c :: cs := hcs
  have hmark : c ≠ '\ufeff' := fun heq => hc.2 (heq ▸ .head _)
  rw [List.append_nil, hcs] at hvalue
  have hall : readAll (c :: cs) = .ok v := by
    unfold readAll
    split
    case h_1 heq => exact absurd (List.cons.inj heq).1 hmark
    case h_2 =>
      rw [skipSpaces_cons hc.1, hvalue]
      rfl
  rw [read, htext, hall]

/-- No line ends but the plain ones are written. -/
theorem carriageReturn_notMem_lines (v : Json) : '\r' ∉ v.lines.toList := by
  have hstyle : Style.lines.Admits (· ≠ '\r') := by
    refine ⟨?_, by simp [Style.lines], by simp [Style.lines], by simp⟩
    rintro c hc rfl
    exact absurd hc (by decide)
  exact fun hmem => hstyle.writeAt 0 v _ hmem rfl

end DesignComponents.Json
