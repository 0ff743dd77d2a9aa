import DesignComponents.Component.Source
import Mathlib.Data.List.Basic

/-!
Quoted texts in generated source, read as literals. Whatever quotes and backslashes a text holds,
its literal ends where it was made to end and stands for that text.
-/

namespace DesignComponents

/-- A literal as it is written, and the text that it stands for. -/
structure Literal where
  written : List Char
  value : List Char

namespace Literal

/-- A literal from behind its first quote on, and what follows it. A backslash takes the next sign as
it is; the first other quote is the end. -/
def scanInside? : List Char → Option (Literal × List Char)
  | [] => none
  | '\\' :: c :: cs => (scanInside? cs).map fun p => (⟨'\\' :: c :: p.1.written, c :: p.1.value⟩, p.2)
  | c :: cs =>
    if c = '\'' then some (⟨['\''], []⟩, cs)
    else (scanInside? cs).map fun p => (⟨c :: p.1.written, c :: p.1.value⟩, p.2)

def scan? : List Char → Option (Literal × List Char)
  | '\'' :: cs => (scanInside? cs).map fun p => (⟨'\'' :: p.1.written, p.1.value⟩, p.2)
  | _ => none

variable {cs rest : List Char} {l : Literal}

theorem scanInside?_eq_some (h : scanInside? cs = some (l, rest)) : cs = l.written ++ rest := by
  fun_induction scanInside? cs generalizing l with
  | case1 => cases h
  | case2 c cs ih =>
    obtain ⟨p, hp, heq⟩ := Option.map_eq_some_iff.1 h
    obtain ⟨rfl, rfl⟩ := Prod.mk.inj heq
    simp [← ih hp]
  | case3 cs =>
    obtain ⟨rfl, rfl⟩ := Prod.mk.inj (Option.some.inj h)
    simp
  | case4 c cs _ hc ih =>
    obtain ⟨p, hp, heq⟩ := Option.map_eq_some_iff.1 h
    obtain ⟨rfl, rfl⟩ := Prod.mk.inj heq
    simp [← ih hp]

theorem scan?_eq_some (h : scan? cs = some (l, rest)) :
    cs = l.written ++ rest := by
  unfold scan? at h
  split at h
  case h_1 cs =>
    obtain ⟨p, hp, heq⟩ := Option.map_eq_some_iff.1 h
    obtain ⟨rfl, rfl⟩ := Prod.mk.inj heq
    simp [← scanInside?_eq_some hp]
  case h_2 => cases h

theorem length_of_scan? (h : scan? cs = some (l, ' ' :: '|' :: ' ' :: rest)) :
    rest.length < cs.length := by
  rw [scan?_eq_some h, List.length_append, List.length_cons, List.length_cons, List.length_cons]
  omega

/-- Literals with a bar between each two, to the end of the text. -/
def union? (cs : List Char) : Option (List Literal) :=
  match h : scan? cs with
  | none => none
  | some (l, []) => some [l]
  | some (l, ' ' :: '|' :: ' ' :: rest) =>
    have : rest.length < cs.length := length_of_scan? h
    (union? rest).map (l :: ·)
  | some _ => none
termination_by cs.length

theorem union?_end (h : scan? cs = some (l, [])) : union? cs = some [l] := by
  rw [union?]
  split <;> simp_all

theorem union?_bar (h : scan? cs = some (l, ' ' :: '|' :: ' ' :: rest)) :
    union? cs = (union? rest).map (l :: ·) := by
  rw [union?]
  split <;> simp_all

end Literal

namespace Component

open Literal

/-- The literal of a value. -/
def literal (v : Json) : Literal := ⟨(quote v).toList, v.display.toList⟩

@[simp] theorem written_literal (v : Json) : (literal v).written = (quote v).toList := by
  dsimp only [literal]

@[simp] theorem value_literal (v : Json) : (literal v).value = v.display.toList := by
  dsimp only [literal]

theorem defaultText_str (s : String) : defaultText (.str s) = quote (.str s) := rfl

theorem scanInside?_quotedChars (cs rest : List Char) :
    scanInside? (quotedChars cs ++ '\'' :: rest) = some (⟨quotedChars cs ++ ['\''], cs⟩, rest) := by
  induction cs with
  | nil => simp [quotedChars, scanInside?]
  | cons c cs ih =>
    rw [quotedChars]
    split
    case isTrue => simp [scanInside?, ih]
    case isFalse h =>
      obtain ⟨hslash, hquote⟩ : c ≠ '\\' ∧ c ≠ '\'' := by simpa using h
      rw [List.cons_append, scanInside?.eq_3, if_neg hquote, ih]
      · rfl
      · intro _ _ hc
        exact absurd hc hslash

theorem scan?_quote (v : Json) (rest : List Char) :
    scan? ((quote v).toList ++ rest) = some (literal v, rest) := by
  simp [quote, scan?, scanInside?_quotedChars, literal]

theorem union?_quotes {vs : List Json} (h : vs ≠ []) :
    union? (" | ".intercalate (vs.map quote)).toList = some (vs.map literal) := by
  induction vs with
  | nil => exact absurd rfl h
  | cons v vs ih =>
    cases vs with
    | nil =>
      have hscan := scan?_quote v []
      rw [List.append_nil] at hscan
      exact union?_end hscan
    | cons w vs =>
      have hlist : (" | ".intercalate ((v :: w :: vs).map quote)).toList = (quote v).toList ++
          ' ' :: '|' :: ' ' :: (" | ".intercalate ((w :: vs).map quote)).toList := by
        simp [String.toList_intercalate]
      rw [hlist, union?_bar (scan?_quote v _), ih (List.cons_ne_nil w vs)]
      rfl

theorem quote_inj {v w : Json} : quote v = quote w ↔ v.display = w.display := by
  constructor
  · intro h
    have hv := scan?_quote v []
    rw [h, scan?_quote w []] at hv
    have hvalue : (literal w).value = (literal v).value :=
      congrArg (fun p => p.1.value) (Option.some.inj hv)
    rw [value_literal, value_literal] at hvalue
    exact (String.toList_inj.1 hvalue).symm
  · intro h
    rw [quote, quote, h]

/-- The type of a variant is read as the literals of its options, in order, and the literal of a
default is read as the default. So the default is written as one of the alternatives if and only if
it is one of the options. -/
theorem literals_read :
    (∀ (d : PropertyDefinition) (options : List String), d.type = .variant →
      d.options = some (options.map .str) → options ≠ [] →
      ∃ ls, union? (propertyType d).toList = some ls ∧
        ls.map Literal.value = options.map String.toList ∧
        (propertyType d).toList = " | ".toList.intercalate (ls.map Literal.written) ∧
        ∀ s : String, (defaultText (.str s)).toList ∈ ls.map Literal.written ↔ s ∈ options) ∧
    ∀ s : String, ∃ l, scan? (defaultText (.str s)).toList = some (l, []) ∧ l.value = s.toList := by
  constructor
  · intro d options htype hoptions hne
    have hmap : options.map Json.str ≠ [] := by simpa using hne
    have hunion : propertyType d = " | ".intercalate ((options.map .str).map quote) := by
      unfold propertyType
      rw [htype, hoptions]
      cases options with
      | nil => exact absurd rfl hne
      | cons s options => rfl
    have hread : union? (propertyType d).toList = some ((options.map .str).map literal) := by
      rw [hunion]
      exact union?_quotes hmap
    refine ⟨_, hread, ?_, ?_, ?_⟩
    · simp [Function.comp_def]
    · rw [hunion, String.toList_intercalate]
      simp [Function.comp_def]
    · intro s
      have hsame (t : String) : (literal (.str t)).written = (defaultText (.str s)).toList ↔ t = s := by
        rw [written_literal, defaultText_str, String.toList_inj, quote_inj]
        rfl
      simp only [List.mem_map, exists_exists_and_eq_and, hsame, exists_eq_right]
  · intro s
    have hscan := scan?_quote (.str s) []
    rw [List.append_nil, ← defaultText_str] at hscan
    exact ⟨_, hscan, value_literal _⟩

/-- Options with quotes and backslashes at their ends, one that looks like what stands between two
options, and an empty one. -/
def awkwardOptions : List String := ["It's", "C:\\", "' | '", ""]

theorem literals_read_awkward :
    let d : PropertyDefinition := ⟨.variant, .null, some (awkwardOptions.map .str)⟩
    ∃ ls, union? (propertyType d).toList = some ls ∧
      ls.map Literal.value = awkwardOptions.map String.toList ∧
      (defaultText (.str "' | '")).toList ∈ ls.map Literal.written ∧
      (defaultText (.str "C:\\' | '' | '")).toList ∉ ls.map Literal.written := by
  intro d
  obtain ⟨ls, hunion, hvalues, -, hmem⟩ :=
    literals_read.1 d awkwardOptions rfl rfl (by decide)
  exact ⟨ls, hunion, hvalues, (hmem _).2 (by decide), mt (hmem _).1 (by decide)⟩

end Component

end DesignComponents
