import DesignComponents.Proofs.Markup.Form

/-!
Lines of markup read back. The reader goes through the lines once, with the open tags in hand; how
deep it stands tells what a line can be.
-/

namespace DesignComponents.Markup

/-- What a line other than a closing tag says behind its indentation. -/
inductive Sign
  | text (content : List Char)
  | single (tag style : List Char)
  | opening (tag style : List Char)

def Sign.printed : Sign → List Char
  | .text content => content
  | .single tag style => Form.single tag style
  | .opening tag style => Form.opening tag style

namespace Form

def head? (cs : List Char) : Option (List Char × List Char) :=
  match splitAtFirst? ' ' cs with
  | none => some (cs, [])
  | some (_, []) => none
  | some (tag, style) => some (tag, style)

/-- Tags are told apart by their ends. -/
def tag? (cs : List Char) : Option Sign :=
  match cs.reverse with
  | '>' :: '/' :: ' ' :: ds => (head? ds.reverse).map fun h => .single h.1 h.2
  | '>' :: ds => (head? ds.reverse).map fun h => .opening h.1 h.2
  | _ => none

def sign? : List Char → Option Sign
  | '<' :: cs => tag? cs
  | cs => some (.text cs)

variable {tag style cs : List Char}

theorem head?_head (h : ' ' ∉ tag) : head? (head tag style) = some (tag, style) := by
  unfold head? head
  cases style with
  | nil => simp [splitAtFirst?_eq_none h]
  | cons c cs => simp [splitAtFirst?_append h]

theorem head?_eq_some (h : head? cs = some (tag, style)) : cs = head tag style := by
  unfold head? at h
  split at h
  case h_1 => cases h; rfl
  case h_2 => cases h
  case h_3 a b hne hs =>
    cases h
    rw [(splitAtFirst?_eq_some hs).1, head, if_neg hne]

theorem head_ne (htag : ' ' ∉ tag) (hstyle : style.getLast? ≠ some '/') (cs : List Char) :
    head tag style ≠ cs ++ [' ', '/'] := by
  intro h
  unfold head at h
  split at h
  case isTrue => exact htag (by simp [h])
  case isFalse hne =>
    obtain ⟨ds, d, rfl⟩ := (List.eq_nil_or_concat' style).resolve_left hne
    have hends : tag ++ ' ' :: ds ++ [d] = cs ++ [' '] ++ ['/'] := by simpa using h
    have hlast := congrArg List.getLast? hends
    rw [List.getLast?_concat, List.getLast?_concat] at hlast
    rw [List.getLast?_concat] at hstyle
    exact hstyle hlast

theorem sign?_text (h : cs.head? ≠ some '<') : sign? cs = some (.text cs) := by
  unfold sign?
  split
  case h_1 => exact absurd rfl h
  case h_2 => rfl

theorem sign?_single (h : ' ' ∉ tag) : sign? (single tag style) = some (.single tag style) := by
  simp [sign?, single, tag?, head?_head h]

theorem sign?_opening (htag : ' ' ∉ tag) (hstyle : style.getLast? ≠ some '/') :
    sign? (opening tag style) = some (.opening tag style) := by
  simp only [sign?, opening, tag?, List.reverse_append, List.reverse_singleton,
    List.singleton_append]
  split
  case h_1 ds heq =>
    have hhead : head tag style = ds.reverse ++ [' ', '/'] := by
      rw [← List.reverse_reverse (head tag style), (List.cons.inj heq).2]
      simp
    exact absurd hhead (head_ne htag hstyle _)
  case h_2 ds _ heq =>
    rw [← (List.cons.inj heq).2, List.reverse_reverse, head?_head htag]
    rfl
  case h_3 h => exact absurd rfl (h _)

theorem tag?_eq_some {s : Sign} (h : tag? cs = some s) : '<' :: cs = s.printed := by
  unfold tag? at h
  split at h
  case h_1 ds heq =>
    obtain ⟨p, hp, rfl⟩ := Option.map_eq_some_iff.1 h
    have hcs : cs = ds.reverse ++ [' ', '/', '>'] := by
      rw [← List.reverse_reverse cs, heq]
      simp
    rw [hcs, head?_eq_some hp]
    rfl
  case h_2 ds _ heq =>
    obtain ⟨p, hp, rfl⟩ := Option.map_eq_some_iff.1 h
    have hcs : cs = ds.reverse ++ ['>'] := by
      rw [← List.reverse_reverse cs, heq]
      simp
    rw [hcs, head?_eq_some hp]
    rfl
  case h_3 => cases h

theorem sign?_eq_some {s : Sign} (h : sign? cs = some s) : cs = s.printed := by
  unfold sign? at h
  split at h
  case h_1 => exact tag?_eq_some h
  case h_2 =>
    obtain rfl := Option.some.inj h
    rfl

end Form

/-- An open element, and what stands before it at its depth. -/
structure Opened where
  tag : List Char
  style : List Char
  before : List Form

/-- The open elements, the innermost first, and what has been read below them. -/
structure Reading where
  above : List Opened
  done : List Form

namespace Reading

def depth (base : Nat) (r : Reading) : Nat := base + r.above.length

def add (r : Reading) : Sign → Reading
  | .text content => { r with done := r.done ++ [.text content] }
  | .single tag style => { r with done := r.done ++ [.element tag style []] }
  | .opening tag style => ⟨⟨tag, style, r.done⟩ :: r.above, []⟩

/-- A line that closes nothing. -/
def enter (base : Nat) (r : Reading) (line : List Char) : Option Reading :=
  ((unindent? (r.depth base) line).bind Form.sign?).map r.add

def step (base : Nat) (r : Reading) (line : List Char) : Option Reading :=
  match r.above, r.done with
  | o :: os, f :: fs =>
    if line = indentation (base + os.length) ++ Form.closing o.tag then
      some ⟨os, o.before ++ [.element o.tag o.style (f :: fs)]⟩
    else r.enter base line
  | _, _ => r.enter base line

end Reading

/-- The form of a tree whose lines begin at the given depth. -/
def read? (base : Nat) (text : String) : Option Form :=
  match (linesIn text).foldlM (Reading.step base) ⟨[], []⟩ with
  | some ⟨[], [f]⟩ => some f
  | _ => none

/-! ### What is printed is read -/

/-- Tags without blanks, styles that do not look like the end of a tag, texts that do not look like
tags. -/
inductive Form.IsReadable : Form → Prop
  | text {cs : List Char} (plain : cs.head? ≠ some '<') : IsReadable (.text cs)
  | element {tag style : List Char} {fs : List Form} (blank : ' ' ∉ tag)
    (slash : style.getLast? ≠ some '/') (below : ∀ f ∈ fs, IsReadable f) :
    IsReadable (.element tag style fs)

namespace Reading

variable {base : Nat} {r r' : Reading} {cs : List Char} {s : Sign}

theorem enter_indentation (h : Form.sign? cs = some s) :
    r.enter base (indentation (r.depth base) ++ cs) = some (r.add s) := by
  rw [enter, unindent?_eq_some.2 rfl, Option.bind_some, h, Option.map_some]

theorem step_indentation (h : Form.sign? cs = some s) :
    r.step base (indentation (r.depth base) ++ cs) = some (r.add s) := by
  unfold step
  split
  case h_1 o os f fs habove hdone =>
    have hne : indentation (r.depth base) ++ cs ≠
        indentation (base + os.length) ++ Form.closing o.tag := by
      rw [depth, habove, List.length_cons, ← Nat.add_assoc]
      exact indentation_succ_append_ne (by simp [Form.closing])
    rw [if_neg hne, enter_indentation h]
  case h_2 => exact enter_indentation h

theorem step_closing {o : Opened} {os : List Opened} {fs : List Form} (h : fs ≠ []) :
    step base ⟨o :: os, fs⟩ (indentation (base + os.length) ++ Form.closing o.tag) =
      some ⟨os, o.before ++ [.element o.tag o.style fs]⟩ := by
  cases fs with
  | nil => exact absurd rfl h
  | cons f fs => simp only [step, if_true]

/-- The lines of a form add the form to what has been read. -/
theorem read_lines {f : Form} (hf : f.IsReadable) (r : Reading) :
    (f.lines (r.depth base)).foldlM (step base) r = some { r with done := r.done ++ [f] } := by
  induction hf generalizing r with
  | text plain =>
    rw [Form.lines, List.foldlM_cons, step_indentation (Form.sign?_text plain)]
    rfl
  | @element tag style fs htag hstyle _ ih =>
    by_cases hfs : fs = []
    · subst hfs
      rw [Form.lines, List.foldlM_cons, step_indentation (Form.sign?_single htag)]
      rfl
    · have hbelow (gs : List Form) (hgs : ∀ g ∈ gs, g ∈ fs) (r : Reading) :
          (gs.flatMap (Form.lines (r.depth base))).foldlM (step base) r =
            some { r with done := r.done ++ gs } := by
        induction gs generalizing r with
        | nil => simp
        | cons g gs ihgs =>
          have hdepth : r.depth base = depth base { r with done := r.done ++ [g] } := rfl
          rw [List.flatMap_cons, List.foldlM_append, ih g (hgs g (.head _)), Option.bind_eq_bind,
            Option.bind_some, hdepth, ihgs fun g hg => hgs g (.tail _ hg)]
          simp
      have hopen : r.step base (indentation (r.depth base) ++ Form.opening tag style) =
          some (r.add (.opening tag style)) := step_indentation (Form.sign?_opening htag hstyle)
      have hdepth : r.depth base + 1 = depth base (r.add (.opening tag style)) := by
        simp [depth, add, Nat.add_assoc]
      rw [Form.lines_element hfs, List.foldlM_append, List.foldlM_append, List.foldlM_cons, hopen,
        hdepth]
      simp only [List.foldlM_nil, Option.pure_def, Option.bind_eq_bind, Option.bind_some,
        hbelow fs fun g hg => hg]
      simp [List.foldlM_cons, add, depth, step_closing hfs]

end Reading

end DesignComponents.Markup
