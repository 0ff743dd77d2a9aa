import DesignComponents.Component.Source
import DesignComponents.Proofs.Markup.Form

/-!
The lines of a component's source. Quotes and backslashes in values are escaped, line ends are not:
each one in an option or in a default is one more in the line that the value is written in.
-/

namespace DesignComponents

namespace PropertyDefinition

/-- The values that the type of a property is written with. -/
def alternatives (d : PropertyDefinition) : List Json :=
  match d.type, d.options with
  | .variant, some vs => vs
  | _, _ => []

/-- The default, if it is written as a literal. -/
def quotedDefault (d : PropertyDefinition) : List Json :=
  match d.default with
  | .null | .bool _ => []
  | v => [v]

end PropertyDefinition

namespace Component

/-- A line of the source, and the values that are written as literals in it. -/
structure Line where
  text : String
  values : List Json

def Line.plain (text : String) : Line := ⟨text, []⟩

def typeLayout (name : String) : Schema → List Line
  | [] => [.plain ("export type " ++ name ++ "Props = \x7b\x7d;")]
  | s => [.plain ("export type " ++ name ++ "Props = \x7b")] ++
      s.map (fun p => ⟨typeLine p, p.2.alternatives⟩) ++ [.plain "\x7d;"]

/-- The lines of the source as they are meant: one for each property in the type, one for the
signature, and one for each line of the markup. -/
def layout (name : String) (s : Schema) (markup : List String) : List Line :=
  typeLayout name s ++
    [.plain "", ⟨signature name s, s.flatMap (·.2.quotedDefault)⟩, .plain "  return ("] ++
    markup.map .plain ++ [.plain "  );", .plain "\x7d;", .plain ""]

variable {b : Char} {name : String} {s : Schema} {markup : List String}

/-- The character stands in a text as often as in the values together. -/
def OccursAs (b : Char) (text : String) (vs : List Json) : Prop :=
  text.toList.count b = (vs.flatMap (·.display.toList)).count b

namespace OccursAs

variable {text text' sep : String} {vs : List Json}

theorem nil_iff : OccursAs b text [] ↔ b ∉ text.toList := by
  simp [OccursAs, List.count_eq_zero]

theorem append_free (h : OccursAs b text vs) (h' : OccursAs b text' []) :
    OccursAs b (text ++ text') vs := by
  rw [OccursAs, String.toList_append, List.count_append, h, h']
  rfl

theorem free_append (h : OccursAs b text []) (h' : OccursAs b text' vs) :
    OccursAs b (text ++ text') vs := by
  rw [OccursAs, String.toList_append, List.count_append, h, h']
  exact Nat.zero_add _

theorem intercalate {α : Type} {f : α → String} {g : α → List Json} (hsep : OccursAs b sep [])
    (h : ∀ x, OccursAs b (f x) (g x)) (xs : List α) :
    OccursAs b (sep.intercalate (xs.map f)) (xs.flatMap g) := by
  rw [OccursAs, String.toList_intercalate, count_intercalate, List.count_eq_zero.2 (nil_iff.1 hsep),
    Nat.mul_zero, Nat.add_zero]
  induction xs with
  | nil => rfl
  | cons x xs ih =>
    rw [List.map_cons, List.map_cons, List.flatten_cons, List.count_append, ih, h x,
      List.flatMap_cons, List.flatMap_append, List.count_append]

theorem notMem_iff (h : OccursAs b text vs) : b ∉ text.toList ↔ ∀ v ∈ vs, b ∉ v.display.toList := by
  rw [← List.count_eq_zero, h]
  simp [List.count_eq_zero]

end OccursAs

section

variable (hb : b ∈ lineEnds)

include hb

/-- What the source is made of besides names and values is free of line ends. -/
theorem occurs_word (w : String) (hw : w.toList.any lineEnds.contains = false) :
    OccursAs b w [] := by
  rw [OccursAs.nil_iff]
  intro hmem
  exact absurd hb (by simpa using List.any_eq_false.1 hw b hmem)

theorem occurs_propertyName (key : String) : OccursAs b (propertyName key) [] :=
  OccursAs.nil_iff.2 (lineEnd_notMem_of_blankless (fun _ => isBlank_of_mem_propertyName) b hb)

theorem count_quotedChars (cs : List Char) : (quotedChars cs).count b = cs.count b := by
  have hsigns : ∀ b ∈ lineEnds, b ≠ '\\' := forall_lineEnds (by decide)
  induction cs with
  | nil => rfl
  | cons c cs ih =>
    rw [quotedChars]
    split
    case isTrue =>
      rw [List.count_cons_of_ne (hsigns b hb).symm, List.count_cons, List.count_cons, ih]
    case isFalse => rw [List.count_cons, List.count_cons, ih]

/-- Neither quotes nor backslashes are line ends, and nothing else is escaped. -/
theorem occurs_quote (v : Json) : OccursAs b (quote v) [v] := by
  have hsigns : ∀ b ∈ lineEnds, b ≠ '\'' := forall_lineEnds (by decide)
  have hquote : ['\''].count b = 0 := by simp [List.count_eq_zero, hsigns b hb]
  rw [OccursAs, quote, String.toList_ofList, List.cons_append,
    List.count_cons_of_ne (hsigns b hb).symm, List.count_append, count_quotedChars hb, hquote,
    List.flatMap_singleton]
  rfl

theorem occurs_propertyType (d : PropertyDefinition) :
    OccursAs b (propertyType d) d.alternatives := by
  obtain ⟨type, default, options⟩ := d
  cases type with
  | boolean => exact occurs_word hb "boolean" (by decide)
  | instanceSwap => exact occurs_word hb "React.ReactNode" (by decide)
  | text => exact occurs_word hb "string" (by decide)
  | variant =>
    rcases options with _ | _ | ⟨v, vs⟩
    · exact occurs_word hb "string" (by decide)
    · exact occurs_word hb "string" (by decide)
    · have hbar : OccursAs b " | " [] := occurs_word hb " | " (by decide)
      have hunion := hbar.intercalate (occurs_quote hb) (v :: vs)
      rwa [List.flatMap_singleton'] at hunion

theorem occurs_typeLine (p : String × PropertyDefinition) :
    OccursAs b (typeLine p) p.2.alternatives := by
  have hword := occurs_word hb
  have hname : OccursAs b ("  " ++ propertyName p.1 ++ ": ") [] :=
    ((hword "  " (by decide)).append_free (occurs_propertyName hb p.1)).append_free
      (hword ": " (by decide))
  exact (hname.free_append (occurs_propertyType hb p.2)).append_free (hword ";" (by decide))

theorem occurs_parameter (p : String × PropertyDefinition) :
    OccursAs b (parameter p) p.2.quotedDefault := by
  have hword := occurs_word hb
  obtain ⟨key, type, default, options⟩ := p
  have hname : OccursAs b (propertyName key) [] := occurs_propertyName hb key
  have hassigned : OccursAs b (propertyName key ++ " = ") [] :=
    hname.append_free (hword " = " (by decide))
  cases default with
  | null => exact hname
  | bool value =>
    cases value with
    | false => exact hassigned.append_free (hword "false" (by decide))
    | true => exact hassigned.append_free (hword "true" (by decide))
  | num n => exact hassigned.free_append (occurs_quote hb (.num n))
  | str t => exact hassigned.free_append (occurs_quote hb (.str t))
  | arr vs => exact hassigned.free_append (occurs_quote hb (.arr vs))
  | obj fs => exact hassigned.free_append (occurs_quote hb (.obj fs))

theorem occurs_pattern (s : Schema) :
    OccursAs b (pattern s) (s.flatMap (·.2.quotedDefault)) := by
  have hword := occurs_word hb
  cases s with
  | nil => exact hword "\x7b\x7d" (by decide)
  | cons p s =>
    have hparameters := (hword ", " (by decide)).intercalate (occurs_parameter hb) (p :: s)
    exact ((hword "\x7b " (by decide)).free_append hparameters).append_free
      (hword " \x7d" (by decide))

theorem occurs_signature (hname : OccursAs b name []) (s : Schema) :
    OccursAs b (signature name s) (s.flatMap (·.2.quotedDefault)) := by
  have hword := occurs_word hb
  have hopening : OccursAs b ("export const " ++ name ++ " = (") [] :=
    ((hword "export const " (by decide)).append_free hname).append_free (hword " = (" (by decide))
  have hclosing : OccursAs b (": " ++ name ++ "Props) => \x7b") [] :=
    ((hword ": " (by decide)).append_free hname).append_free (hword "Props) => \x7b" (by decide))
  have hsignature := (hopening.free_append (occurs_pattern hb s)).append_free hclosing
  unfold signature
  simpa only [String.append_assoc] using hsignature

theorem occurs_typeLayout (hname : OccursAs b name []) (s : Schema) :
    ∀ l ∈ typeLayout name s, OccursAs b l.text l.values := by
  have hword := occurs_word hb
  have hopening {w : String} (hw : OccursAs b w []) : OccursAs b ("export type " ++ name ++ w) [] :=
    ((hword "export type " (by decide)).append_free hname).append_free hw
  intro l hl
  cases s with
  | nil =>
    rw [List.mem_singleton.1 hl]
    exact hopening (hword "Props = \x7b\x7d;" (by decide))
  | cons p s =>
    rcases List.mem_append.1 hl with hl | hl
    · rcases List.mem_cons.1 hl with rfl | hl
      · exact hopening (hword "Props = \x7b" (by decide))
      · obtain ⟨q, -, rfl⟩ := List.mem_map.1 hl
        exact occurs_typeLine hb q
    · rw [List.mem_singleton.1 hl]
      exact hword "\x7d;" (by decide)

theorem occurs_layout (hname : OccursAs b name []) (hmarkup : ∀ l ∈ markup, b ∉ l.toList)
    (s : Schema) : ∀ l ∈ layout name s markup, OccursAs b l.text l.values := by
  have hword := occurs_word hb
  have hbetween : ∀ l ∈ markup.map Line.plain, OccursAs b l.text l.values := by
    intro l hl
    obtain ⟨line, hline, rfl⟩ := List.mem_map.1 hl
    exact OccursAs.nil_iff.2 (hmarkup line hline)
  simp only [layout, List.forall_mem_append]
  refine ⟨⟨⟨occurs_typeLayout hb hname s, ?_⟩, hbetween⟩, ?_⟩
  · rintro l (_ | ⟨_, _ | ⟨_, _ | ⟨_, ⟨⟩⟩⟩⟩)
    · exact hword "" (by decide)
    · exact occurs_signature hb hname s
    · exact hword "  return (" (by decide)
  · rintro l (_ | ⟨_, _ | ⟨_, _ | ⟨_, ⟨⟩⟩⟩⟩)
    · exact hword "  );" (by decide)
    · exact hword "\x7d;" (by decide)
    · exact hword "" (by decide)

end

theorem text_layout : (layout name s markup).map Line.text = typeLines name s ++
    ["", signature name s, "  return ("] ++ markup ++ ["  );", "\x7d;", ""] := by
  have htype : (typeLayout name s).map Line.text = typeLines name s := by
    cases s <;> simp [typeLayout, typeLines, Line.plain, Function.comp_def]
  simp [layout, htype, Line.plain, Function.comp_def]

/-- The values in the lines are those in the definitions. -/
theorem values_layout : (layout name s markup).flatMap Line.values =
    s.flatMap (·.2.alternatives) ++ s.flatMap (·.2.quotedDefault) := by
  have htype : (typeLayout name s).flatMap Line.values = s.flatMap (·.2.alternatives) := by
    cases s <;> simp [typeLayout, Line.plain, List.flatMap_map]
  simp [layout, htype, Line.plain, List.flatMap_map]

theorem forall_values_layout {P : Json → Prop} :
    (∀ l ∈ layout name s markup, ∀ v ∈ l.values, P v) ↔
      ∀ p ∈ s, ∀ v ∈ p.2.alternatives ++ p.2.quotedDefault, P v := by
  rw [← List.forall_mem_flatMap, values_layout, List.forall_mem_append, List.forall_mem_flatMap,
    List.forall_mem_flatMap]
  simp only [List.forall_mem_append, forall_and]

/-- Names, texts and styles without line ends. What is removed of names may hold them. -/
structure IsUnbroken (c : Component) : Prop where
  name : ∃ name, c.name = .str name
  tree : ∀ b ∈ lineEnds, c.tree.Consists (b ∉ ·.toList) (Css.IsFreeOf b)

theorem IsUnbroken.lines_yields {c : Component} (h : c.IsUnbroken) :
    Yields (c.tree.lines 2) fun ls => ls ≠ [] ∧ ∀ b ∈ lineEnds, ∀ l ∈ ls, b ∉ l.toList := by
  obtain ⟨markup, hmarkup, hne, -, -⟩ := (h.tree '\n' (by decide)).lines_yields (by decide) 2
  refine ⟨markup, hmarkup, hne, ?_⟩
  intro b hb
  obtain ⟨markup', hmarkup', -, -, hfree⟩ := (h.tree b hb).lines_yields hb 2
  obtain rfl := Except.ok.inj (hmarkup.symm.trans hmarkup')
  exact hfree

theorem source_layout {c : Component} (hname : c.name = .str name)
    (hmarkup : c.tree.lines 2 = .ok markup) (hne : markup ≠ []) : c.source =
      .ok ("\n".intercalate ((layout (componentName name) c.schema markup).map Line.text)) := by
  have hrender : c.tree.render 2 = .ok ("\n".intercalate markup) := by
    rw [Markup.render, hmarkup, map_ok]
  have hbefore : typeLines (componentName name) c.schema ++
      ["", signature (componentName name) c.schema, "  return ("] ≠ [] := by simp
  have hafter : ["  );", "\x7d;", ""] ≠ [] := by simp
  rw [source_eq hname hrender, text_layout, ← intercalate_joined hbefore hne hafter,
    List.append_assoc]
  rfl

/-- Texts are the lines of what they are joined to unless a value is broken. -/
theorem linesIn_eq_iff {ls : List Line} (hne : ls ≠ [])
    (hoccurs : ∀ l ∈ ls, OccursAs '\n' l.text l.values) :
    linesIn ("\n".intercalate (ls.map Line.text)) = ls.map (·.text.toList) ↔
      ∀ l ∈ ls, ∀ v ∈ l.values, '\n' ∉ v.display.toList := by
  constructor
  · intro h l hl
    apply (hoccurs l hl).notMem_iff.1
    apply newline_notMem_of_mem_linesIn
    rw [h]
    exact List.mem_map_of_mem hl
  · intro h
    rw [linesIn_intercalate_of_notMem (by simpa using hne), List.map_map, Function.comp_def]
    intro text htext
    obtain ⟨l, hl, rfl⟩ := List.mem_map.1 htext
    exact (hoccurs l hl).notMem_iff.2 (h l hl)

/-- The source of a component has the lines of its layout: one for each property, one for the
signature and one for each line of the markup. Only the values written in them break them: each has
as many line ends in it as its values, and none is broken if and only if no option and no default
that is written holds a newline. -/
theorem source_lines (c : Component) (h : c.IsUnbroken) :
    Yields c.source fun text => ∃ name markup,
      c.name = .str name ∧ c.tree.lines 2 = .ok markup ∧
      let ls := layout (componentName name) c.schema markup
      linesIn text = ls.flatMap (linesIn ·.text) ∧
        (∀ b ∈ lineEnds, ∀ l ∈ ls, OccursAs b l.text l.values) ∧
        (linesIn text = ls.map (·.text.toList) ↔ ∀ p ∈ c.schema,
          ∀ v ∈ p.2.alternatives ++ p.2.quotedDefault, '\n' ∉ v.display.toList) := by
  obtain ⟨name, hname⟩ := h.name
  obtain ⟨markup, hmarkup, hne, hfree⟩ := h.lines_yields
  have hlayout : layout (componentName name) c.schema markup ≠ [] := by simp [layout]
  have hoccurs : ∀ b ∈ lineEnds, ∀ l ∈ layout (componentName name) c.schema markup,
      OccursAs b l.text l.values := by
    intro b hb
    have htag : OccursAs b (componentName name) [] :=
      OccursAs.nil_iff.2 (Markup.tag_notMem hb name)
    exact occurs_layout hb htag (hfree b hb) c.schema
  refine ⟨_, source_layout hname hmarkup hne, name, markup, hname, hmarkup, ?_, hoccurs, ?_⟩
  · rw [linesIn_intercalate (by simpa using hlayout), List.flatMap_map]
  · rw [linesIn_eq_iff hlayout (hoccurs '\n' (by decide)), forall_values_layout]

/-- A component with a label and two sizes. -/
def labelledCard (label : String) : Component where
  name := .str "Card"
  schema := [("Label", ⟨.text, .str label, none⟩),
    ("Size", ⟨.variant, .str "S", some [.str "S", .str "M"]⟩)]
  tree := .box (.str "Box") (some [("padding", .str "4px")]) [.text (.str "Card")]

theorem labelledCard_isUnbroken (label : String) : (labelledCard label).IsUnbroken where
  name := ⟨"Card", rfl⟩
  tree := by
    have hcss : ∀ b ∈ lineEnds, Css.IsFreeOf b [("padding", .str "4px")] := by
      simp [Css.IsFreeOf, lineEnds]
    have htext : ∀ b ∈ lineEnds, b ∉ "Card".toList := forall_lineEnds (by decide)
    intro b hb
    refine .box ?_ ?_
    · rintro css ⟨rfl⟩
      exact hcss b hb
    · rintro m (_ | ⟨_, ⟨⟩⟩)
      exact .text (htext b hb)

theorem source_lines_labelledCard :
    let c := labelledCard "It's"
    ∃ text markup, c.source = .ok text ∧ c.tree.lines 2 = .ok markup ∧
      linesIn text = (layout (componentName "Card") c.schema markup).map (·.text.toList) := by
  intro c
  obtain ⟨text, htext, name, markup, hname, hmarkup, -, -, hlines⟩ :=
    source_lines _ (labelledCard_isUnbroken "It's")
  obtain rfl := Json.str.inj hname
  exact ⟨text, markup, htext, hmarkup, hlines.2 (by decide)⟩

/-- The default ends in the next line. -/
def splitLines : List String :=
  ["export type CardProps = \x7b", "  label: string;", "  size: 'S' | 'M';", "\x7d;", "",
    "export const Card = (\x7b label = 'a", "b', size = 'S' \x7d: CardProps) => \x7b",
    "  return (", "    <Box style=\"padding: 4px\">", "      Card", "    </Box>", "  );", "\x7d;", ""]

theorem source_splits_literal :
    let c := labelledCard "a\nb"
    ∃ text, c.source = .ok text ∧ linesIn text = splitLines.map String.toList ∧
      signature "Card" c.schema ∉ splitLines := by
  intro c
  have hmarkup : (c.tree.lines 2).toOption =
      some ["    <Box style=\"padding: 4px\">", "      Card", "    </Box>"] := by
    decide +kernel
  have hsource := source_layout rfl (toOption_eq_some.1 hmarkup) (by simp)
  refine ⟨_, hsource, ?_, by decide +kernel⟩
  rw [linesIn_intercalate (by simp [layout])]
  decide +kernel

end Component

end DesignComponents
