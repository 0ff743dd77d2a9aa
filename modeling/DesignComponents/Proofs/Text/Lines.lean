import DesignComponents.Text.Blank
import DesignComponents.Text.Split
import Mathlib.Data.List.Basic

/-!
Texts as lines, and how deep a line stands.
-/

namespace DesignComponents

/-- The signs that end a line, and a literal before its end. -/
def lineEnds : List Char := ['\n', '\r']

theorem forall_lineEnds {P : Char → Prop} (h : P '\n' ∧ P '\r') : ∀ c ∈ lineEnds, P c := by
  simpa [lineEnds] using h

theorem lineEnd_notMem_of_blankless {cs : List Char} (h : ∀ x ∈ cs, isBlank x = false) :
    ∀ c ∈ lineEnds, c ∉ cs := by
  have hblank : ∀ c ∈ lineEnds, isBlank c = true := forall_lineEnds (by decide)
  intro c hc hmem
  exact absurd (hblank c hc) (by simp [h c hmem])

/-- The lines of a text, without what ends them. -/
def linesIn (text : String) : List (List Char) := text.toList.splitOn '\n'

theorem intercalate_linesIn (text : String) : ['\n'].intercalate (linesIn text) = text.toList :=
  List.intercalate_splitOn '\n'

/-- Texts joined by newlines have the lines of all of them. -/
theorem linesIn_intercalate {ls : List String} (hne : ls ≠ []) :
    linesIn ("\n".intercalate ls) = ls.flatMap linesIn := by
  induction ls with
  | nil => exact absurd rfl hne
  | cons l ls ih =>
    by_cases hls : ls = []
    · simp [hls]
    · have hlist : ("\n".intercalate (l :: ls)).toList =
          l.toList ++ '\n' :: ("\n".intercalate ls).toList := by
        rw [String.intercalate_cons_of_ne_nil hls]
        simp
      rw [linesIn, hlist, List.splitOn_append_cons_self, List.flatMap_cons, ← ih hls]
      rfl

theorem linesIn_of_notMem {text : String} (h : '\n' ∉ text.toList) :
    linesIn text = [text.toList] := List.splitOn_eq_singleton h

theorem linesIn_intercalate_of_notMem {ls : List String} (hne : ls ≠ [])
    (h : ∀ l ∈ ls, '\n' ∉ l.toList) : linesIn ("\n".intercalate ls) = ls.map String.toList := by
  have hlines : ls.flatMap linesIn = ls.flatMap fun l => [l.toList] :=
    List.flatMap_congr fun l hl => linesIn_of_notMem (h l hl)
  rw [linesIn_intercalate hne, hlines, ← List.map_eq_flatMap]

theorem newline_notMem_of_mem_linesIn {text : String} {line : List Char} (h : line ∈ linesIn text) :
    '\n' ∉ line := notMem_of_mem_splitOn h

/-- Lines joined before stand in a text as lines joined with it. -/
theorem intercalate_joined {sep : String} {before between after : List String}
    (hbefore : before ≠ []) (hbetween : between ≠ []) (hafter : after ≠ []) :
    sep.intercalate (before ++ sep.intercalate between :: after) =
      sep.intercalate (before ++ between ++ after) := by
  have hrest : between ++ after ≠ [] := List.append_ne_nil_of_left_ne_nil hbetween after
  rw [String.intercalate_append_of_ne_nil hbefore (List.cons_ne_nil _ _),
    String.intercalate_cons_of_ne_nil hafter, List.append_assoc,
    String.intercalate_append_of_ne_nil hbefore hrest,
    String.intercalate_append_of_ne_nil hbetween hafter]

theorem count_intercalate (c : Char) (sep : List Char) (ls : List (List Char)) :
    (sep.intercalate ls).count c = ls.flatten.count c + (ls.length - 1) * sep.count c := by
  induction ls with
  | nil => simp
  | cons l ls ih =>
    cases ls with
    | nil => simp
    | cons l' ls =>
      rw [List.intercalate_cons_cons, List.flatten_cons]
      simp only [List.count_append, ih, List.length_cons, Nat.add_sub_cancel, Nat.succ_mul]
      omega

theorem notMem_intercalate {c : Char} {sep : List Char} {ls : List (List Char)} (hsep : c ∉ sep)
    (h : ∀ l ∈ ls, c ∉ l) : c ∉ sep.intercalate ls := by
  have hflat : c ∉ ls.flatten := by simpa using h
  rw [← List.count_eq_zero, count_intercalate, List.count_eq_zero.2 hflat,
    List.count_eq_zero.2 hsep, Nat.mul_zero]

theorem forall_mem_intercalate {P : Char → Prop} {sep : List Char} {ls : List (List Char)}
    (hsep : ∀ c ∈ sep, P c) (h : ∀ l ∈ ls, ∀ c ∈ l, P c) : ∀ c ∈ sep.intercalate ls, P c := by
  intro c hc
  by_contra hnot
  exact notMem_intercalate (fun hmem => hnot (hsep c hmem)) (fun l hl hmem => hnot (h l hl c hmem)) hc

theorem intercalate_cons {α : Type} (sep l : List α) (ls : List (List α)) :
    sep.intercalate (l :: ls) = l ++ ls.flatMap (sep ++ ·) := by
  induction ls generalizing l with
  | nil => simp
  | cons l' ls ih => rw [List.intercalate_cons_cons, ih, List.flatMap_cons, List.append_assoc,
      List.append_assoc]

/-- What a line begins with, two blanks for each level. -/
def indentation (depth : Nat) : List Char := List.replicate (2 * depth) ' '

theorem toList_pushn (s : String) (c : Char) (n : Nat) :
    (s.pushn c n).toList = s.toList ++ List.replicate n c := by
  induction n with
  | zero => simp [String.pushn, Nat.repeat]
  | succ n ih =>
    have hsucc : s.pushn c (n + 1) = (s.pushn c n).push c := rfl
    rw [hsucc, String.toList_push, ih, List.replicate_succ', List.append_assoc]

theorem indentation_succ (depth : Nat) :
    indentation (depth + 1) = indentation depth ++ [' ', ' '] := by
  rw [indentation, indentation, Nat.mul_succ, ← List.replicate_append_replicate]
  rfl

/-- What stands behind the indentation of a line. -/
def unindent? (depth : Nat) (line : List Char) : Option (List Char) :=
  if indentation depth <+: line then some (line.drop (2 * depth)) else none

theorem unindent?_eq_some {depth : Nat} {line cs : List Char} :
    unindent? depth line = some cs ↔ line = indentation depth ++ cs := by
  have hlength : (indentation depth).length = 2 * depth := List.length_replicate
  unfold unindent?
  constructor
  · intro h
    split at h
    case isTrue hprefix =>
      obtain ⟨ds, rfl⟩ := hprefix
      rw [List.drop_left' hlength] at h
      rw [Option.some.inj h]
    case isFalse => cases h
  · rintro rfl
    rw [if_pos (List.prefix_append ..), List.drop_left' hlength]

/-- A line that stands deeper has a blank where one of less depth has its first sign. -/
theorem indentation_succ_append_ne {depth : Nat} {cs ds : List Char} (h : ds.head? ≠ some ' ') :
    indentation (depth + 1) ++ cs ≠ indentation depth ++ ds := by
  rw [indentation_succ, List.append_assoc]
  intro heq
  rw [← List.append_cancel_left heq] at h
  exact h rfl

end DesignComponents
