import DesignComponents.Proofs.Markup.Reader

/-!
Markup and its form determine each other. A reader gets the form back from what is printed, and
reads nothing but what is printed.
-/

namespace DesignComponents.Markup

/-! ### What is read has been printed -/

namespace Reading

variable {base : Nat} {r r' : Reading} {line : List Char}

/-- The lines that lead to open elements. -/
def linesAbove (base : Nat) : List Opened → List (List Char)
  | [] => []
  | o :: os => linesAbove base os ++ o.before.flatMap (Form.lines (base + os.length)) ++
      [indentation (base + os.length) ++ Form.opening o.tag o.style]

def lines (base : Nat) (r : Reading) : List (List Char) :=
  linesAbove base r.above ++ r.done.flatMap (Form.lines (r.depth base))

theorem lines_add (base : Nat) (r : Reading) (s : Sign) :
    (r.add s).lines base = r.lines base ++ [indentation (r.depth base) ++ s.printed] := by
  cases s with
  | text content => simp [add, lines, depth, Form.lines, Sign.printed]
  | single tag style => simp [add, lines, depth, Form.lines, Sign.printed]
  | opening tag style => simp [add, lines, linesAbove, depth, Sign.printed]

theorem lines_enter (h : r.enter base line = some r') :
    r'.lines base = r.lines base ++ [line] := by
  obtain ⟨s, hs, rfl⟩ := Option.map_eq_some_iff.1 h
  obtain ⟨cs, hcs, hsign⟩ := Option.bind_eq_some_iff.1 hs
  rw [lines_add, unindent?_eq_some.1 hcs, Form.sign?_eq_some hsign]

theorem lines_step (h : r.step base line = some r') : r'.lines base = r.lines base ++ [line] := by
  unfold step at h
  split at h
  case h_1 o os f fs habove hdone =>
    split at h
    case isTrue hline =>
      obtain rfl := Option.some.inj h
      simp [lines, habove, hdone, linesAbove, depth, hline, Form.lines_element, Nat.add_assoc]
    case isFalse => exact lines_enter h
  case h_2 => exact lines_enter h

theorem lines_foldlM {ls : List (List Char)} (h : ls.foldlM (step base) r = some r') :
    r'.lines base = r.lines base ++ ls := by
  induction ls generalizing r with
  | nil =>
    obtain rfl := Option.some.inj h
    rw [List.append_nil]
  | cons line ls ih =>
    obtain ⟨r₁, hstep, hrest⟩ := Option.bind_eq_some_iff.1 h
    rw [ih hrest, lines_step hstep, List.append_assoc, List.singleton_append]

end Reading

theorem printed_of_read? {base : Nat} {text : String} {f : Form} (h : read? base text = some f) :
    text.toList = f.printed base := by
  unfold read? at h
  split at h
  case h_1 f' hread =>
    obtain rfl := Option.some.inj h
    have hlines := Reading.lines_foldlM hread
    simp only [Reading.lines, Reading.linesAbove, List.flatMap_cons, List.flatMap_nil,
      List.append_nil, List.nil_append] at hlines
    rw [← intercalate_linesIn, ← hlines]
    rfl
  case h_2 => cases h

/-! ### Closing tags -/

/-- Lines in which every opening tag is closed by the same tag at the same depth, and what stands
between the two is deeper. -/
inductive Balanced : Nat → List (List Char) → Prop
  | nil {depth : Nat} : Balanced depth []
  | text {depth : Nat} {content : List Char} {ls : List (List Char)}
    (plain : content.head? ≠ some '<') (rest : Balanced depth ls) :
    Balanced depth ((indentation depth ++ content) :: ls)
  | single {depth : Nat} {tag style : List Char} {ls : List (List Char)}
    (rest : Balanced depth ls) : Balanced depth ((indentation depth ++ Form.single tag style) :: ls)
  | block {depth : Nat} {tag style : List Char} {inner ls : List (List Char)}
    (below : Balanced (depth + 1) inner) (rest : Balanced depth ls) :
    Balanced depth ((indentation depth ++ Form.opening tag style) ::
      (inner ++ (indentation depth ++ Form.closing tag) :: ls))

theorem Balanced.append {depth : Nat} {ls ls' : List (List Char)} (h : Balanced depth ls)
    (h' : Balanced depth ls') : Balanced depth (ls ++ ls') := by
  induction h with
  | nil => exact h'
  | text plain _ ih => exact .text plain (ih h')
  | single _ ih => exact .single (ih h')
  | block below _ _ ih =>
    rw [List.cons_append, List.append_assoc, List.cons_append]
    exact .block below (ih h')

theorem Form.IsReadable.balanced {f : Form} (h : f.IsReadable) (depth : Nat) :
    Balanced depth (f.lines depth) := by
  induction h generalizing depth with
  | text plain => exact .text plain .nil
  | @element tag style fs _ _ _ ih =>
    by_cases hfs : fs = []
    · subst hfs
      exact .single .nil
    · have hbelow (gs : List Form) (hgs : ∀ g ∈ gs, g ∈ fs) :
          Balanced (depth + 1) (gs.flatMap (Form.lines (depth + 1))) := by
        induction gs with
        | nil => exact .nil
        | cons g gs ihgs =>
          rw [List.flatMap_cons]
          exact (ih g (hgs g (.head _)) _).append (ihgs fun g hg => hgs g (.tail _ hg))
      rw [Form.lines_element hfs, List.append_assoc, List.singleton_append]
      exact .block (hbelow fs fun g hg => hg) .nil

/-! ### Trees -/

/-- A text in one line that does not look like a tag. -/
def IsPlain (s : String) : Prop := '\n' ∉ s.toList ∧ s.toList.head? ≠ some '<'

/-- A tree whose texts do not look like tags, and that brings no line ends of its own. -/
def IsReadable (m : Markup) : Prop := m.Consists IsPlain (Css.IsFreeOf '\n')

theorem getLast?_styleOf (css : Option Css) : (styleOf css).getLast? ≠ some '/' := by
  rcases css with - | - | ⟨p, css⟩
  · simp [styleOf]
  · simp [styleOf]
  · have hquote : styleOf (some (p :: css)) = ("style=\"" ++ Css.body (p :: css)).toList ++ ['"'] := by
      simp [styleOf, Css.styleText_cons]
    rw [hquote, List.getLast?_concat]
    decide

variable {m : Markup}

theorem IsReadable.form (h : m.IsReadable) : m.form.IsReadable := by
  have hblank (type : String) : ' ' ∉ (componentName type).toList := fun hmem =>
    absurd (isBlank_of_mem_componentName hmem) (by decide)
  unfold IsReadable at h
  induction h with
  | text content => exact .text content.2
  | leaf _ => exact .element (hblank _) (getLast?_styleOf _) (List.forall_mem_nil _)
  | box _ _ ih =>
    refine .element (hblank _) (getLast?_styleOf _) ?_
    intro f hf
    obtain ⟨m, hm, rfl⟩ := mem_forms hf
    exact ih m hm

theorem IsReadable.render_yields (h : m.IsReadable) (n : Nat) :
    Yields (m.render n) fun text => linesIn text = m.form.lines n := by
  have hfree : m.Consists ('\n' ∉ ·.toList) (Css.IsFreeOf '\n') :=
    h.mono (fun _ hs => hs.1) fun _ hcss => hcss
  exact hfree.render_yields n

theorem IsReadable.read?_eq {text : String} {n : Nat} (h : m.IsReadable)
    (htext : linesIn text = m.form.lines n) : read? n text = some m.form := by
  have hread : (m.form.lines n).foldlM (Reading.step n) ⟨[], []⟩ = some ⟨[], [m.form]⟩ :=
    Reading.read_lines h.form ⟨[], []⟩
  rw [read?, htext, hread]

/-- Trees whose texts do not look like tags are printed so that their form can be read back. So two
of them are printed alike if and only if their forms are the same. Each opening tag is closed by
the same tag at the same depth, and all that the reader takes is printed in this way. -/
theorem render_reads :
    (∀ (m : Markup) (n : Nat), m.IsReadable → Yields (m.render n) fun text =>
      read? n text = some m.form ∧ Balanced n (linesIn text)) ∧
    (∀ (m m' : Markup) (n : Nat), m.IsReadable → m'.IsReadable →
      (m.render n = m'.render n ↔ m.form = m'.form)) ∧
    ∀ (n : Nat) (text : String) (f : Form), read? n text = some f → text.toList = f.printed n := by
  refine ⟨?_, ?_, fun n text f => printed_of_read?⟩
  · intro m n hm
    apply (hm.render_yields n).mono
    intro text htext
    exact ⟨hm.read?_eq htext, htext ▸ hm.form.balanced n⟩
  · intro m m' n hm hm'
    obtain ⟨text, hrender, htext⟩ := hm.render_yields n
    obtain ⟨text', hrender', htext'⟩ := hm'.render_yields n
    constructor
    · intro heq
      obtain rfl : text = text' := Except.ok.inj (hrender.symm.trans (heq.trans hrender'))
      exact Option.some.inj ((hm.read?_eq htext).symm.trans (hm'.read?_eq htext'))
    · intro heq
      have hlist : text.toList = text'.toList := by
        rw [← intercalate_linesIn, ← intercalate_linesIn text', htext, htext', heq]
      rw [hrender, hrender', String.toList_inj.1 hlist]

/-- Texts that begin with blanks or look like a style, an empty text, and a style that looks like
the end of a tag. -/
def notice : Markup :=
  .box (.str "icon button") (some [("a", .str "\" />")]) [
    .text (.str "  <Box />"), .text (.str ""), .text (.str "style=\"a: b\">"),
    .leaf (.str "Box") (some [])]

/-- The same but for the spelling of the tag and what is empty. -/
def noticeRespelled : Markup :=
  .box (.str " Iconbutton") (some [("a", .str "\" />")]) [
    .text (.str "  <Box />"), .text (.str "style=\"a: b\">"), .box (.str "Box") none [.text (.str "")]]

def noticeForm : Form :=
  .element "Iconbutton".toList "style=\"a: \" />\"".toList [
    .text "  <Box />".toList, .text "style=\"a: b\">".toList, .element "Box".toList [] []]

theorem form_notice : notice.form = noticeForm ∧ noticeRespelled.form = noticeForm := by
  have hicon : componentName "icon button" = "Iconbutton" := by decide +kernel
  have hrespelled : componentName " Iconbutton" = "Iconbutton" := by decide +kernel
  have hbox : componentName "Box" = "Box" := by decide +kernel
  have hstyle : styleOf (some [("a", .str "\" />")]) = "style=\"a: \" />\"".toList := by
    decide +kernel
  constructor <;>
    simp only [notice, noticeRespelled, noticeForm, form, forms, isEmptyText, Json.isText_str,
      Json.display_str, hicon, hrespelled, hbox, hstyle] <;> rfl

theorem notice_isReadable : notice.IsReadable ∧ noticeRespelled.IsReadable := by
  have hcss : ∀ css ∈ some [("a", Json.str "\" />")], Css.IsFreeOf '\n' css := by
    simp [Css.IsFreeOf]
  have htext (s : String) (h : '\n' ∉ s.toList ∧ s.toList.head? ≠ some '<') :
      (Markup.text (.str s)).IsReadable := .text h
  have hleaf : (Markup.leaf (.str "Box") (some [])).IsReadable := .leaf (by simp [Css.IsFreeOf])
  have hempty : (Markup.box (.str "Box") none [.text (.str "")]).IsReadable := by
    refine .box (by simp) ?_
    intro m hm
    rw [List.mem_singleton.1 hm]
    exact htext "" (by decide)
  constructor
  · refine .box hcss ?_
    simp only [List.forall_mem_cons, List.not_mem_nil, false_imp_iff, implies_true, and_true]
    exact ⟨htext _ (by decide), htext _ (by decide), htext _ (by decide), hleaf⟩
  · refine .box hcss ?_
    simp only [List.forall_mem_cons, List.not_mem_nil, false_imp_iff, implies_true, and_true]
    exact ⟨htext _ (by decide), htext _ (by decide), hempty⟩

theorem render_reads_notice : ∃ text, notice.render 1 = .ok text ∧
    noticeRespelled.render 1 = .ok text ∧ read? 1 text = some noticeForm ∧
    Balanced 1 (linesIn text) ∧ text.toList = noticeForm.printed 1 := by
  obtain ⟨hreads, hsame, hprinted⟩ := render_reads
  obtain ⟨hreadable, hreadable'⟩ := notice_isReadable
  obtain ⟨hform, hform'⟩ := form_notice
  obtain ⟨text, htext, hread, hbalanced⟩ := hreads notice 1 hreadable
  rw [hform] at hread
  have hrender := (hsame notice noticeRespelled 1 hreadable hreadable').2 (hform.trans hform'.symm)
  exact ⟨text, htext, hrender.symm.trans htext, hread, hbalanced, hprinted 1 text _ hread⟩

end DesignComponents.Markup
