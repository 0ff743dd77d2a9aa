import DesignComponents.Proofs.Markup.Data

/-!
Markup printed deeper in a text. All its lines move by the same number of blanks, and how many there
are is told by the tree: an element with something between its tags gives two, all else gives one.
-/

namespace DesignComponents

theorem indentation_add (n k : Nat) : indentation (n + k) = indentation k ++ indentation n := by
  rw [indentation, indentation, indentation, List.replicate_append_replicate]
  congr 1
  omega

/-- A text with two blanks for each level put before every line. -/
def indented (levels : Nat) (text : String) : String :=
  String.ofList (['\n'].intercalate ((linesIn text).map (indentation levels ++ ·)))

namespace Markup

mutual

/-- A tree with all that lies in it, from the top down and from the left to the right. Empty texts
between tags are left out. -/
def kept : Markup → List Markup
  | .text content => [.text content]
  | .leaf type css => [.leaf type css]
  | .box type css ms => .box type css ms :: keptAll ms

def keptAll : List Markup → List Markup
  | [] => []
  | m :: ms => if isEmptyText m then keptAll ms else kept m ++ keptAll ms

end

def isText : Markup → Bool
  | .text _ => true
  | _ => false

/-- An element with something between its tags. -/
def isOpen : Markup → Bool
  | .box _ _ ms => !ms.all isEmptyText
  | _ => false

/-- An element that is closed at once. -/
def isClosed (m : Markup) : Bool := !m.isText && !m.isOpen

def lineCount (ms : List Markup) : Nat :=
  ms.countP isText + ms.countP isClosed + 2 * ms.countP isOpen

theorem lineCount_append (ms ms' : List Markup) :
    lineCount (ms ++ ms') = lineCount ms + lineCount ms' := by
  simp only [lineCount, List.countP_append]
  omega

theorem lineCount_cons (m : Markup) (ms : List Markup) :
    lineCount (m :: ms) = lineCount [m] + lineCount ms := lineCount_append [m] ms

theorem keptAll_eq_nil {ms : List Markup} (h : ms.all isEmptyText = true) : keptAll ms = [] := by
  induction ms with
  | nil => rfl
  | cons m ms ih =>
    rw [List.all_cons, Bool.and_eq_true] at h
    rw [keptAll, if_pos h.1, ih h.2]

theorem length_flatMap_forms {ms : List Markup} {depth : Nat}
    (h : ∀ m ∈ ms, (m.form.lines depth).length = lineCount m.kept) :
    ((forms ms).flatMap (Form.lines depth)).length = lineCount (keptAll ms) := by
  induction ms with
  | nil => rfl
  | cons m ms ih =>
    rw [List.forall_mem_cons] at h
    rw [forms, keptAll]
    split
    case isTrue => exact ih h.2
    case isFalse => rw [List.flatMap_cons, List.length_append, lineCount_append, h.1, ih h.2]

theorem length_lines (m : Markup) (depth : Nat) :
    (m.form.lines depth).length = lineCount m.kept := by
  induction m using induction generalizing depth with
  | text content => rfl
  | leaf type css => rfl
  | box type css ms ih =>
    rw [form, kept, lineCount_cons]
    by_cases hempty : ms.all isEmptyText = true
    · have hone : lineCount [.box type css ms] = 1 := by
        simp [lineCount, isText, isOpen, isClosed, hempty]
      rw [(forms_eq_nil ms).2 hempty, keptAll_eq_nil hempty, hone]
      rfl
    · have htwo : lineCount [.box type css ms] = 2 := by
        simp [lineCount, isText, isOpen, isClosed, hempty]
      rw [Form.lines_element (mt (forms_eq_nil ms).1 hempty), List.length_append,
        List.length_append, length_flatMap_forms fun m hm => ih m hm (depth + 1), htwo]
      simp only [List.length_singleton]
      omega

/-- The lines of a tree begin with their indentation, and nothing else in them tells the depth. -/
theorem lines_add (m : Markup) (n k : Nat) :
    m.form.lines (n + k) = (m.form.lines n).map (indentation k ++ ·) := by
  induction m using induction generalizing n with
  | text content => simp [form, Form.lines, indentation_add]
  | leaf type css => simp [form, Form.lines, indentation_add]
  | box type css ms ih =>
    rw [form]
    by_cases hempty : forms ms = []
    · simp [hempty, Form.lines, indentation_add]
    · have hbelow : ∀ f ∈ forms ms,
          f.lines (n + k + 1) = (f.lines (n + 1)).map (indentation k ++ ·) := by
        intro f hf
        obtain ⟨m, hm, rfl⟩ := mem_forms hf
        rw [Nat.add_right_comm]
        exact ih m hm (n + 1)
      rw [Form.lines_element hempty, Form.lines_element hempty, List.flatMap_congr hbelow,
        List.map_append, List.map_append, List.map_flatMap]
      simp [indentation_add]

/-- A tree without newlines, printed deeper, is what it was with blanks put before every line. There
is one line for each text that is kept and for each element with nothing between its tags, and two
for each other element. -/
theorem render_indents {m : Markup} (h : m.Consists ('\n' ∉ ·.toList) (Css.IsFreeOf '\n'))
    (n k : Nat) :
    Yields (m.render n) fun text =>
      m.render (n + k : Nat) = .ok (indented k text) ∧
        (linesIn text).length =
          m.kept.countP isText + m.kept.countP isClosed + 2 * m.kept.countP isOpen := by
  obtain ⟨deeper, hdeeper, hlinesDeeper⟩ := h.render_yields (n + k)
  apply (h.render_yields n).mono
  intro text hlines
  constructor
  · rw [hdeeper, indented, hlines, ← lines_add, ← hlinesDeeper, intercalate_linesIn,
      String.ofList_toList]
  · rw [hlines, length_lines]
    rfl

/-- An element that is closed at once since its text is empty, and one that stays open. -/
def panel : Markup :=
  .box (.str "panel") (some [("gap", .str "4px")]) [
    .text (.str "Title"), .text (.str ""), .box (.str "Box") none [.text (.str "")],
    .box (.str " row") none [.leaf (.str "Icon") none, .text (.str "  Label")]]

theorem panel_consists : panel.Consists ('\n' ∉ ·.toList) (Css.IsFreeOf '\n') := by
  have htext (s : String) (hs : '\n' ∉ s.toList) :
      (Markup.text (.str s)).Consists ('\n' ∉ ·.toList) (Css.IsFreeOf '\n') := .text hs
  refine .box (by simp [Css.IsFreeOf]) ?_
  simp only [List.forall_mem_cons, List.not_mem_nil, false_imp_iff, implies_true, and_true]
  refine ⟨htext _ (by decide), htext _ (by decide), .box (by simp) ?_, .box (by simp) ?_⟩
  · exact List.forall_mem_singleton.2 (htext _ (by decide))
  · simp only [List.forall_mem_cons, List.not_mem_nil, false_imp_iff, implies_true, and_true]
    exact ⟨.leaf (by simp), htext _ (by decide)⟩

theorem render_indents_panel : ∃ text, panel.render 1 = .ok text ∧
    panel.render 3 = .ok (indented 2 text) ∧ (linesIn text).length = 8 := by
  obtain ⟨text, htext, hdeeper, hlength⟩ := render_indents panel_consists 1 2
  exact ⟨text, htext, hdeeper, hlength⟩

end Markup

end DesignComponents
