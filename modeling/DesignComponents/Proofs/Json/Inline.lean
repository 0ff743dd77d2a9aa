import DesignComponents.Json.Writer
import DesignComponents.Proofs.Number.Layout
import DesignComponents.Proofs.Text.Lines

/-!
The characters that data is written with: those from the blank on, and what the style puts between
them. Data in compact form is one line, since none of its characters ends a line.
-/

namespace DesignComponents

/-- Characters from the blank on. -/
def IsInline (cs : List Char) : Prop := ∀ c ∈ cs, ' ' ≤ c

instance (cs : List Char) : Decidable (IsInline cs) :=
  List.decidableBAll (' ' ≤ ·) cs

namespace IsInline

variable {c : Char} {cs ds : List Char}

@[simp] theorem nil : IsInline [] := List.forall_mem_nil _

@[simp] theorem cons_iff : IsInline (c :: cs) ↔ ' ' ≤ c ∧ IsInline cs := List.forall_mem_cons

@[simp] theorem append_iff : IsInline (cs ++ ds) ↔ IsInline cs ∧ IsInline ds :=
  List.forall_mem_append

theorem intercalate {sep : List Char} {ls : List (List Char)} (hsep : IsInline sep)
    (h : ∀ l ∈ ls, IsInline l) : IsInline (sep.intercalate ls) := forall_mem_intercalate hsep h

theorem newline_notMem (h : IsInline cs) : '\n' ∉ cs := fun hmem => absurd (h _ hmem) (by decide)

end IsInline

theorem admitsNumbers_inline : AdmitsNumbers (' ' ≤ ·) where
  digit c hc := by
    simp only [Char.isDigit, Bool.and_eq_true, decide_eq_true_eq, ge_iff_le] at hc
    exact Char.le_trans (by decide) (Char.le_def.2 hc.1)
  point := by decide
  mark := by decide
  plus := by decide
  minus := by decide

theorem Number.isInline_dataText (n : Number) : IsInline n.dataText.toList := by
  cases n with
  | int n => exact admitsNumbers_inline.int n
  | double x =>
    exact admitsNumbers_inline.text Layout.data (by decide : IsInline "NaN".toList)
      (by decide : IsInline "Infinity".toList) _ x

/-! ### Texts, lists and objects -/

namespace Json

theorem blank_le_hexDigit (n : Nat) : ' ' ≤ hexDigit n := by
  have hall : IsInline "0123456789abcdef".toList := by decide
  rw [hexDigit, List.getD_eq_getElem?_getD]
  cases h : "0123456789abcdef".toList[n]? with
  | none => decide
  | some c => exact hall c (List.mem_of_getElem? h)

theorem isInline_hexDigits (n width : Nat) : IsInline (hexDigits n width) := by
  induction width generalizing n with
  | zero => simp [hexDigits]
  | succ width ih => simp [hexDigits, ih, blank_le_hexDigit]

/-- A character has an escape of its own, or it is escaped by its units, or it stands as it is. -/
theorem escapedChar_cases {P : List Char → Prop} {plainChars : Bool} {c : Char}
    (own : ∀ d ∈ ['"', '\\', 'n', 'r', 't', 'b', 'f'], P ['\\', d])
    (unit : ∀ n, P (unitEscape n)) (pair : ∀ m n, P (unitEscape m ++ unitEscape n))
    (plain : 0x20 ≤ c.toNat → P [c]) : P (escapedChar plainChars c) := by
  unfold escapedChar
  iterate 7 refine iteInduction (fun _ => own _ (by decide)) fun _ => ?_
  refine iteInduction (fun _ => unit _) fun hlow => ?_
  refine iteInduction (fun _ => ?_) fun _ => plain (Nat.le_of_not_lt hlow)
  exact iteInduction (fun _ => unit _) fun _ => pair _ _

theorem isInline_escapedChar (plainChars : Bool) (c : Char) :
    IsInline (escapedChar plainChars c) := by
  have hunit (n : Nat) : IsInline (unitEscape n) := by simp [unitEscape, isInline_hexDigits]
  refine escapedChar_cases (by simp) hunit (fun m n => ?_) fun hplain => ?_
  · exact IsInline.append_iff.2 ⟨hunit m, hunit n⟩
  · have hblank : ' ' ≤ c := Char.le_def.2 (UInt32.le_iff_toNat_le.2 hplain)
    exact IsInline.cons_iff.2 ⟨hblank, .nil⟩

theorem isInline_escaped (style : Style) (s : String) : IsInline (escaped style s).toList := by
  have hbody : IsInline (s.toList.flatMap (escapedChar style.plainChars)) := by
    intro d hd
    obtain ⟨c, -, hd⟩ := List.mem_flatMap.1 hd
    exact isInline_escapedChar _ c d hd
  simpa [escaped] using hbody

/-- A class of characters that all texts of data in a style belong to. -/
structure Style.Admits (style : Style) (P : Char → Prop) : Prop where
  inline : ∀ c, ' ' ≤ c → P c
  comma : ∀ c ∈ style.comma.toList, P c
  colon : ∀ c ∈ style.colon.toList, P c
  lineEnd : style.indent.isSome = true → P '\n'

namespace Style.Admits

variable {style : Style} {P : Char → Prop} (h : style.Admits P)
include h

theorem of_inline {cs : List Char} (hcs : IsInline cs) : ∀ c ∈ cs, P c :=
  fun c hc => h.inline c (hcs c hc)

theorem bracket {depth : Nat} {opening closing : String} {items : List String}
    (hopening : IsInline opening.toList) (hclosing : IsInline closing.toList)
    (hitems : ∀ item ∈ items, ∀ c ∈ item.toList, P c) :
    ∀ c ∈ (bracket style depth opening closing items).toList, P c := by
  have hopening := h.of_inline hopening
  have hclosing := h.of_inline hclosing
  have hlist {sep : String} (hsep : ∀ c ∈ sep.toList, P c) :
      ∀ c ∈ (sep.intercalate items).toList, P c := by
    rw [String.toList_intercalate]
    refine forall_mem_intercalate hsep fun l hl => ?_
    obtain ⟨item, hitem, rfl⟩ := List.mem_map.1 hl
    exact hitems item hitem
  unfold Json.bracket
  split
  case h_1 =>
    rw [String.toList_append, List.forall_mem_append]
    exact ⟨hopening, hclosing⟩
  case h_2 =>
    simp only [String.toList_append, List.forall_mem_append]
    exact ⟨⟨hopening, hlist h.comma⟩, hclosing⟩
  case h_3 n hindent _ =>
    have hline (depth : Nat) : ∀ c ∈ ("\n" ++ "".pushn ' ' (n * depth)).toList, P c := by
      rw [String.toList_append, List.forall_mem_append, toList_pushn]
      refine ⟨List.forall_mem_singleton.2 (h.lineEnd (by rw [hindent]; rfl)), ?_⟩
      intro c hc
      rw [List.eq_of_mem_replicate (List.mem_append.1 hc |>.resolve_left (by simp))]
      exact h.inline ' ' (by decide)
    have hsep : ∀ c ∈ (style.comma ++ ("\n" ++ "".pushn ' ' (n * (depth + 1)))).toList, P c := by
      rw [String.toList_append, List.forall_mem_append]
      exact ⟨h.comma, hline _⟩
    simp only [String.toList_append, List.forall_mem_append] at hline ⊢
    exact ⟨⟨⟨⟨hopening, hline _⟩, hlist hsep⟩, hline _⟩, hclosing⟩

omit h

mutual

theorem writeAt (h : style.Admits P) (depth : Nat) : ∀ v, ∀ c ∈ (writeAt style depth v).toList, P c
  | .null => h.of_inline (show IsInline "null".toList by decide)
  | .bool b => h.of_inline (by cases b <;> simp [Json.writeAt])
  | .num n => h.of_inline n.isInline_dataText
  | .str s => h.of_inline (isInline_escaped style s)
  | .arr xs => h.bracket (by decide) (by decide) (writeElements h (depth + 1) xs)
  | .obj fs => h.bracket (by decide) (by decide) (writeFields h (depth + 1) fs)

theorem writeElements (h : style.Admits P) (depth : Nat) :
    ∀ xs, ∀ item ∈ writeElements style depth xs, ∀ c ∈ item.toList, P c
  | [] => by simp [Json.writeElements]
  | x :: xs => by
    rw [Json.writeElements, List.forall_mem_cons]
    exact ⟨writeAt h depth x, writeElements h depth xs⟩

theorem writeFields (h : style.Admits P) (depth : Nat) :
    ∀ fs, ∀ item ∈ writeFields style depth fs, ∀ c ∈ item.toList, P c
  | [] => by simp [Json.writeFields]
  | (k, v) :: fs => by
    rw [Json.writeFields, List.forall_mem_cons]
    refine ⟨?_, writeFields h depth fs⟩
    simp only [String.toList_append, List.forall_mem_append]
    exact ⟨⟨h.of_inline (isInline_escaped style k), h.colon⟩, writeAt h depth v⟩

end

end Style.Admits

theorem isInline_compact (v : Json) : IsInline v.compact.toList := by
  have hstyle : Style.compact.Admits (' ' ≤ ·) := by
    constructor <;> simp [Style.compact]
  exact hstyle.writeAt 0 v

end Json

end DesignComponents
