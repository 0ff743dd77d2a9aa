import DesignComponents.Markup.Render
import DesignComponents.Proofs.Outcome
import DesignComponents.Proofs.Text.Case
import DesignComponents.Proofs.Text.Lines

/-!
What is left of a tree of markup in its lines: tags, style texts, and the texts that are not empty.
-/

namespace DesignComponents

namespace Css

/-- Neither the names nor the values of a style hold the character. -/
def IsFreeOf (c : Char) (css : Css) : Prop :=
  ∀ p ∈ css, c ∉ p.1.toList ∧ c ∉ p.2.display.toList

theorem lineEnd_notMem : ∀ c ∈ lineEnds, ∀ s ∈ ["style=\"", ": ", "; ", "\""], c ∉ s.toList :=
  forall_lineEnds (by decide)

theorem IsFreeOf.styleText {c : Char} {css : Css} (hc : c ∈ lineEnds) (h : css.IsFreeOf c) :
    c ∉ css.styleText.toList := by
  have hsigns := lineEnd_notMem c hc
  cases css with
  | nil => simp
  | cons p css =>
    have hbody : c ∉ (body (p :: css)).toList := by
      rw [body, String.toList_intercalate]
      apply notMem_intercalate (hsigns "; " (by simp))
      intro l hl
      obtain ⟨s, hs, rfl⟩ := List.mem_map.1 hl
      obtain ⟨q, hq, rfl⟩ := List.mem_map.1 hs
      simp only [String.toList_append, List.mem_append, not_or]
      exact ⟨⟨(h q hq).1, hsigns ": " (by simp)⟩, (h q hq).2⟩
    rw [styleText_cons]
    simp only [String.toList_append, List.mem_append, not_or]
    exact ⟨⟨hsigns "style=\"" (by simp), hbody⟩, hsigns "\"" (by simp)⟩

end Css

namespace Markup

/-- Types are texts, and the texts and styles are of the given kinds. -/
inductive Consists (texts : String → Prop) (styles : Css → Prop) : Markup → Prop
  | text {s : String} (content : texts s) : Consists texts styles (.text (.str s))
  | leaf {type : String} {css : Option Css} (style : ∀ c ∈ css, styles c) :
    Consists texts styles (.leaf (.str type) css)
  | box {type : String} {css : Option Css} {ms : List Markup} (style : ∀ c ∈ css, styles c)
    (below : ∀ m ∈ ms, Consists texts styles m) : Consists texts styles (.box (.str type) css ms)

/-- A tree as its lines show it. -/
inductive Form
  | text (content : List Char)
  | element (tag style : List Char) (children : List Form)

def styleOf (css : Option Css) : List Char := ((css.map Css.styleText).getD "").toList

mutual

def form : Markup → Form
  | .text content => .text content.display.toList
  | .leaf type css => .element (componentName type.display).toList (styleOf css) []
  | .box type css children =>
    .element (componentName type.display).toList (styleOf css) (forms children)

/-- The forms of all but the empty texts. -/
def forms : List Markup → List Form
  | [] => []
  | m :: ms => if isEmptyText m then forms ms else form m :: forms ms

end

namespace Form

/-- A tag with the style behind it, if there is one. -/
def head (tag style : List Char) : List Char := if style = [] then tag else tag ++ ' ' :: style

def single (tag style : List Char) : List Char := '<' :: (head tag style ++ [' ', '/', '>'])

def opening (tag style : List Char) : List Char := '<' :: (head tag style ++ ['>'])

def closing (tag : List Char) : List Char := '<' :: '/' :: (tag ++ ['>'])

mutual

/-- The lines of a form: an element with children stands between its opening tag and the closing
tag of the same name at the same depth, its children one level below. -/
def lines (depth : Nat) : Form → List (List Char)
  | .text content => [indentation depth ++ content]
  | .element tag style children =>
    match children with
    | [] => [indentation depth ++ single tag style]
    | f :: fs =>
      [indentation depth ++ opening tag style] ++ (lines (depth + 1) f ++ linesAll (depth + 1) fs) ++
        [indentation depth ++ closing tag]

def linesAll (depth : Nat) : List Form → List (List Char)
  | [] => []
  | f :: fs => lines depth f ++ linesAll depth fs

end

def printed (depth : Nat) (f : Form) : List Char := ['\n'].intercalate (f.lines depth)

theorem linesAll_eq (depth : Nat) (fs : List Form) : linesAll depth fs = fs.flatMap (lines depth) := by
  induction fs with
  | nil => rfl
  | cons f fs ih => rw [linesAll, ih, List.flatMap_cons]

theorem lines_ne_nil (f : Form) (depth : Nat) : f.lines depth ≠ [] := by
  rcases f with content | ⟨tag, style, - | ⟨f, fs⟩⟩ <;> simp [lines]

theorem lines_element {depth : Nat} {tag style : List Char} {fs : List Form} (h : fs ≠ []) :
    lines depth (.element tag style fs) = [indentation depth ++ opening tag style] ++
      fs.flatMap (lines (depth + 1)) ++ [indentation depth ++ closing tag] := by
  cases fs with
  | nil => exact absurd rfl h
  | cons f fs => rw [lines, linesAll_eq, List.flatMap_cons]

end Form

theorem pad_toList (n : Nat) : (pad n).toList = indentation n := by
  simp [pad, toList_pushn, indentation]

theorem tagText_toList (tag : String) (css : Option Css) :
    (tagText tag css).toList = Form.head tag.toList (styleOf css) := by
  unfold tagText Form.head styleOf
  split
  case h_1 h => simp [h]
  case h_2 h =>
    have hne : ((css.map Css.styleText).getD "").toList ≠ [] := by simpa using h
    simp [hne]

theorem closed_toList (n : Nat) (tag : String) (css : Option Css) :
    (closed n tag css).map String.toList = [indentation n ++ Form.single tag.toList (styleOf css)] := by
  simp [closed, Form.single, pad_toList, tagText_toList]

theorem forms_eq_nil (ms : List Markup) : forms ms = [] ↔ ms.all isEmptyText = true := by
  induction ms with
  | nil => simp [forms]
  | cons m ms ih =>
    rw [forms, List.all_cons]
    split
    case isTrue h => simp [h, ih]
    case isFalse h => simp [h]

theorem linesAll_eq {n : Nat} {ms : List Markup}
    (h : ∀ m ∈ ms, ∃ ls, m.lines n = .ok ls ∧ ls.map String.toList = m.form.lines n) :
    ∃ ls, linesAll n ms = .ok ls ∧ ls.map String.toList = (forms ms).flatMap (Form.lines n) := by
  induction ms with
  | nil => exact ⟨[], rfl, rfl⟩
  | cons m ms ih =>
    obtain ⟨rest, hrest, hrestEq⟩ := ih fun m hm => h m (.tail _ hm)
    rw [linesAll, forms]
    split
    case isTrue hempty => exact ⟨rest, by rw [hrest]; rfl, hrestEq⟩
    case isFalse hempty =>
      obtain ⟨own, hown, hownEq⟩ := h m (.head _)
      refine ⟨own ++ rest, by rw [hown, hrest]; rfl, ?_⟩
      rw [List.map_append, hownEq, hrestEq, List.flatMap_cons]

variable {texts texts' : String → Prop} {styles styles' : Css → Prop} {m : Markup}

theorem Consists.mono (h : Consists texts styles m) (htexts : ∀ s, texts s → texts' s)
    (hstyles : ∀ css, styles css → styles' css) : Consists texts' styles' m := by
  induction h with
  | text content => exact .text (htexts _ content)
  | leaf style => exact .leaf fun css hcss => hstyles css (style css hcss)
  | box style _ ih => exact .box (fun css hcss => hstyles css (style css hcss)) ih

/-- What is printed of a tree is what its form shows. -/
theorem Consists.lines_eq (h : Consists texts styles m) (n : Nat) :
    ∃ ls, m.lines n = .ok ls ∧ ls.map String.toList = m.form.lines n := by
  induction h generalizing n with
  | text content =>
    rw [lines]
    exact ⟨_, rfl, by simp [form, Form.lines, pad_toList]⟩
  | leaf style =>
    rw [lines, tagName, Json.text_str, map_ok, ok_bind]
    refine ⟨_, rfl, ?_⟩
    rw [closed_toList, form, Form.lines, Json.display_str]
  | @box _ _ ms _ _ ih =>
    rw [lines, tagName, Json.text_str, map_ok, ok_bind]
    split
    case isTrue hempty =>
      refine ⟨_, rfl, ?_⟩
      rw [closed_toList, form, (forms_eq_nil ms).2 hempty, Form.lines, Json.display_str]
    case isFalse hempty =>
      obtain ⟨inner, hinner, hinnerEq⟩ := linesAll_eq fun m hm => ih m hm (n + 1)
      have hcast : (n : Int) + 1 = ((n + 1 : Nat) : Int) := by omega
      rw [hcast, hinner]
      refine ⟨_, rfl, ?_⟩
      rw [form, Form.lines_element (mt (forms_eq_nil ms).1 hempty), ← hinnerEq]
      simp [pad_toList, tagText_toList, Form.opening, Form.closing]

/-! ### Lines without line ends -/

theorem styleOf_notMem {c : Char} {css : Option Css} (hc : c ∈ lineEnds)
    (h : ∀ css' ∈ css, css'.IsFreeOf c) : c ∉ styleOf css := by
  cases css with
  | none => simp [styleOf]
  | some css => exact (h css rfl).styleText hc

theorem tag_notMem {c : Char} (hc : c ∈ lineEnds) (type : String) :
    c ∉ (componentName type).toList :=
  lineEnd_notMem_of_blankless (fun _ => isBlank_of_mem_componentName) c hc

theorem mem_forms {f : Form} {ms : List Markup} (h : f ∈ forms ms) : ∃ m ∈ ms, f = m.form := by
  induction ms with
  | nil => cases h
  | cons m ms ih =>
    rw [forms] at h
    split at h
    case isTrue =>
      obtain ⟨m', hm', rfl⟩ := ih h
      exact ⟨m', .tail _ hm', rfl⟩
    case isFalse =>
      rcases List.mem_cons.1 h with rfl | h
      · exact ⟨m, .head _, rfl⟩
      · obtain ⟨m', hm', rfl⟩ := ih h
        exact ⟨m', .tail _ hm', rfl⟩

namespace Form

/-- Neither the tags nor the styles and texts hold the character. -/
inductive IsFreeOf (c : Char) : Form → Prop
  | text {content : List Char} (absent : c ∉ content) : IsFreeOf c (.text content)
  | element {tag style : List Char} {fs : List Form} (name : c ∉ tag) (css : c ∉ style)
    (below : ∀ f ∈ fs, IsFreeOf c f) : IsFreeOf c (.element tag style fs)

theorem head_notMem {c : Char} {tag style : List Char} (hc : c ≠ ' ') (htag : c ∉ tag)
    (hstyle : c ∉ style) : c ∉ head tag style := by
  unfold head
  split
  case isTrue => exact htag
  case isFalse => simp [htag, hstyle, hc]

theorem IsFreeOf.notMem_lines {c : Char} {f : Form} (hc : c ∈ lineEnds) (h : f.IsFreeOf c)
    (depth : Nat) : ∀ cs ∈ f.lines depth, c ∉ cs := by
  have hsigns : ∀ c ∈ lineEnds, c ≠ ' ' ∧ c ≠ '<' ∧ c ≠ '/' ∧ c ≠ '>' :=
    forall_lineEnds (by decide)
  obtain ⟨hblank, hless, hslash, hgreater⟩ := hsigns c hc
  have hindent (depth : Nat) : c ∉ indentation depth := fun hmem =>
    hblank (List.eq_of_mem_replicate hmem)
  induction h generalizing depth with
  | text absent => simp [lines, hindent depth, absent]
  | @element tag style fs htag hstyle _ ih =>
    have hhead := head_notMem hblank htag hstyle
    by_cases hfs : fs = []
    · simp [hfs, lines, hindent depth, single, hhead, hblank, hless, hslash, hgreater]
    · intro cs hcs
      rw [lines_element hfs, List.mem_append, List.mem_append, List.mem_singleton,
        List.mem_singleton] at hcs
      rcases hcs with (rfl | hcs) | rfl
      · simp [hindent depth, opening, hhead, hless, hgreater]
      · obtain ⟨f, hf, hcs⟩ := List.mem_flatMap.1 hcs
        exact ih f hf (depth + 1) cs hcs
      · simp [hindent depth, closing, htag, hless, hslash, hgreater]

end Form

theorem Consists.form_isFreeOf {c : Char} (hc : c ∈ lineEnds)
    (h : Consists (c ∉ ·.toList) (Css.IsFreeOf c) m) : m.form.IsFreeOf c := by
  induction h with
  | text content => exact .text content
  | leaf style =>
    exact .element (tag_notMem hc _) (styleOf_notMem hc style) (List.forall_mem_nil _)
  | box style _ ih =>
    refine .element (tag_notMem hc _) (styleOf_notMem hc style) ?_
    intro f hf
    obtain ⟨m, hm, rfl⟩ := mem_forms hf
    exact ih m hm

/-- The lines of a tree hold no line ends if its texts and styles do not. -/
theorem Consists.lines_yields {c : Char} (hc : c ∈ lineEnds)
    (h : Consists (c ∉ ·.toList) (Css.IsFreeOf c) m) (n : Nat) :
    Yields (m.lines n) fun ls =>
      ls ≠ [] ∧ ls.map String.toList = m.form.lines n ∧ ∀ l ∈ ls, c ∉ l.toList := by
  obtain ⟨ls, hls, heq⟩ := h.lines_eq n
  refine ⟨ls, hls, ?_, heq, ?_⟩
  · rintro rfl
    exact Form.lines_ne_nil m.form n heq.symm
  · intro l hl
    apply (h.form_isFreeOf hc).notMem_lines hc n
    rw [← heq]
    exact List.mem_map_of_mem hl

/-- What is printed of a tree without newlines has the lines of its form. -/
theorem Consists.render_yields (h : Consists ('\n' ∉ ·.toList) (Css.IsFreeOf '\n') m) (n : Nat) :
    Yields (m.render n) fun text => linesIn text = m.form.lines n := by
  rw [render]
  apply (h.lines_yields (by decide) n).map
  rintro ls ⟨hne, heq, hls⟩
  rw [linesIn_intercalate_of_notMem hne hls, heq]

end Markup

end DesignComponents
