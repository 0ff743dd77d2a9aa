import DesignComponents.Outline.Basic
import DesignComponents.Proofs.Json.Inline
import DesignComponents.Proofs.Tree.Depths

/-!
Outlines as lines. There is one for each node, and how far it is indented tells how deep the node
stands; so the lines can be read back as a tree.
-/

namespace DesignComponents

open DesignComponents.Tree

/-- What stands in the line of a node behind the hyphen: its name, and its style if it is known. -/
def Facts.shown (f : Facts) : List Char :=
  f.name.display.toList ++
    match f.css with
    | none => []
    | some [] => "\x7b\x7d".toList
    | some css => (Json.obj css).compact.toList

namespace Outline

/-- A line at a depth. -/
def line (e : Nat × List Char) : List Char := indentation e.1 ++ '-' :: e.2

/-- How deep a line stands, and what stands behind its hyphen. -/
def readLine? : List Char → Option (Nat × List Char)
  | ' ' :: ' ' :: cs => (readLine? cs).map fun e => (e.1 + 1, e.2)
  | '-' :: shown => some (0, shown)
  | _ => none

/-- The tree that lines are read as, and the depth at which it begins. -/
def read? (text : String) : Option (Nat × Tree (List Char)) :=
  (linesIn text).mapM readLine? >>= ofDepths?

theorem line_succ (d : Nat) (shown : List Char) :
    line (d + 1, shown) = ' ' :: ' ' :: line (d, shown) := by
  simp [line, indentation, Nat.mul_succ, List.replicate_succ]

theorem readLine?_line (e : Nat × List Char) : readLine? (line e) = some e := by
  obtain ⟨d, shown⟩ := e
  induction d with
  | zero => rfl
  | succ d ih => rw [line_succ, readLine?, ih, Option.map_some]

theorem readLine?_eq_some {cs : List Char} {e : Nat × List Char} :
    readLine? cs = some e ↔ cs = line e := by
  constructor
  · intro h
    fun_induction readLine? cs generalizing e with
    | case1 cs ih =>
      obtain ⟨e', he', rfl⟩ := Option.map_eq_some_iff.1 h
      rw [line_succ, ih he']
    | case2 shown => obtain rfl := Option.some.inj h; rfl
    | case3 => cases h
  · rintro rfl
    exact readLine?_line e

theorem mapM_readLine? {ls : List (List Char)} {es : List (Nat × List Char)} :
    ls.mapM readLine? = some es ↔ ls = es.map line := by
  induction ls generalizing es with
  | nil => cases es <;> simp
  | cons l ls ih =>
    simp only [List.mapM_cons, Option.bind_eq_bind, Option.bind_eq_some_iff, readLine?_eq_some, ih]
    constructor
    · rintro ⟨e, rfl, es', rfl, h⟩
      obtain rfl := Option.some.inj h
      rfl
    · intro h
      cases es with
      | nil => cases h
      | cons e es =>
        obtain ⟨rfl, rfl⟩ := List.cons.inj h
        exact ⟨e, rfl, es, rfl, rfl⟩

/-- The reader takes what is printed of a tree, and nothing else. -/
theorem read?_eq_some {text : String} {n : Nat} {t : Tree (List Char)} :
    read? text = some (n, t) ↔ linesIn text = (t.depths n).map line := by
  simp only [read?, Option.bind_eq_bind, Option.bind_eq_some_iff, mapM_readLine?, ofDepths?_eq_some]
  constructor
  · rintro ⟨es, hlines, rfl⟩
    exact hlines
  · intro hlines
    exact ⟨_, hlines, rfl⟩

theorem line_caption (f : Facts) (n : Nat) : (f.caption.line n).toList = line (n, f.shown) := by
  have hempty : (Json.obj []).compact = "\x7b\x7d" := rfl
  rcases hcss : f.css with _ | _ | ⟨p, css⟩ <;>
    simp [Caption.line, Facts.caption, Facts.shown, toList_pushn, line, indentation, hcss, hempty]

theorem captionLinesAll_eq (level : Int) (ts : List (Tree Caption)) :
    Caption.linesAll level ts = ts.flatMap (Caption.lines level) := by
  induction ts with
  | nil => rfl
  | cons t ts ih => rw [Caption.linesAll, ih, List.flatMap_cons]

theorem lines_eq (o : Outline) (n : Nat) :
    (Caption.lines n (o.map Facts.caption)).map String.toList =
      ((o.map Facts.shown).depths n).map line := by
  induction o using Tree.induction generalizing n with
  | node f os ih =>
    have hnext : ((n : Int) + 1) = ((n + 1 : Nat) : Int) := by omega
    rw [map_node, map_node, Caption.lines, captionLinesAll_eq, depths_node, List.map_cons,
      List.map_cons, line_caption, hnext]
    simp only [List.map_flatMap, List.flatMap_map]
    rw [List.flatMap_congr fun o ho => ih o ho (n + 1)]

theorem newline_notMem_shown {f : Facts} (h : '\n' ∉ f.name.display.toList) : '\n' ∉ f.shown := by
  rw [Facts.shown, List.mem_append, not_or]
  refine ⟨h, ?_⟩
  split
  · exact List.not_mem_nil
  · decide
  · exact (Json.isInline_compact _).newline_notMem

theorem newline_notMem_line {e : Nat × List Char} (h : '\n' ∉ e.2) : '\n' ∉ line e := by
  simp [line, indentation, h]

theorem newline_notMem_lines {o : Outline} (h : ∀ f ∈ o.preorder, '\n' ∉ f.name.display.toList)
    (n : Nat) : ∀ l ∈ Caption.lines n (o.map Facts.caption), '\n' ∉ l.toList := by
  intro l hl
  have hmem : l.toList ∈ ((o.map Facts.shown).depths n).map line := by
    rw [← lines_eq]
    exact List.mem_map_of_mem hl
  obtain ⟨e, he, heq⟩ := List.mem_map.1 hmem
  have hshown : e.2 ∈ o.preorder.map Facts.shown := by
    rw [← preorder_map, ← map_snd_depths n]
    exact List.mem_map_of_mem he
  obtain ⟨f, hf, hfe⟩ := List.mem_map.1 hshown
  rw [← heq]
  exact newline_notMem_line (hfe ▸ newline_notMem_shown (h f hf))

theorem linesIn_text {o : Outline} (h : ∀ f ∈ o.preorder, '\n' ∉ f.name.display.toList) (n : Nat) :
    linesIn (o.text n) = ((o.map Facts.shown).depths n).map line := by
  have hne : Caption.lines n (o.map Facts.caption) ≠ [] := by
    cases o
    rw [map_node, Caption.lines]
    exact List.cons_ne_nil _ _
  rw [text, Caption.text, linesIn_intercalate_of_notMem hne (newline_notMem_lines h n), lines_eq]

/-- There is one line for each node in the order of `preorder`, indented by two blanks for each node
above it; and the depth and the tree of what is shown can be read back from the text. So two
outlines are printed alike if and only if they begin at the same depth, have the same shape and show
the same at each place. -/
theorem text_reads :
    (∀ (o : Outline) (n : Nat), (∀ f ∈ o.preorder, '\n' ∉ f.name.display.toList) →
      linesIn (o.text n) = o.lineages.map
        (fun l => indentation (n + l.above.length) ++ '-' :: l.node.label.shown) ∧
      read? (o.text n) = some (n, o.map Facts.shown)) ∧
    (∀ (o o' : Outline) (n n' : Nat), (∀ f ∈ o.preorder, '\n' ∉ f.name.display.toList) →
      (∀ f ∈ o'.preorder, '\n' ∉ f.name.display.toList) →
      (o.text n = o'.text n' ↔ n = n' ∧ o.map Facts.shown = o'.map Facts.shown)) ∧
    ∀ (text : String) (n : Nat) (t : Tree (List Char)), read? text = some (n, t) →
      text.toList = ['\n'].intercalate (t.lineages.map fun l =>
        indentation (n + l.above.length) ++ '-' :: l.node.label) := by
  refine ⟨?_, ?_, ?_⟩
  · intro o n h
    have hlines := linesIn_text h n
    refine ⟨?_, read?_eq_some.2 hlines⟩
    rw [hlines, depths_map, depths_eq_lineages, List.map_map, List.map_map]
    rfl
  · intro o o' n n' h h'
    have hlines := linesIn_text h n
    have hlines' := linesIn_text h' n'
    constructor
    · intro heq
      rw [heq] at hlines
      exact Prod.mk.inj (Option.some.inj
        ((read?_eq_some.2 hlines).symm.trans (read?_eq_some.2 hlines')))
    · rintro ⟨rfl, heq⟩
      rw [← String.toList_inj, ← intercalate_linesIn, ← intercalate_linesIn (o'.text n), hlines,
        hlines', heq]
  · intro text n t h
    rw [← intercalate_linesIn, read?_eq_some.1 h, depths_eq_lineages, List.map_map]
    rfl

/-- A name that looks like a style and a style, an unknown and an empty style, names that begin with
blanks and hyphens, and a style with a newline in it. -/
def listing : Outline :=
  .node { name := .str "Card\x7b\x7d", id := .str "1" } [
    .node { name := .str "  -Icon", id := .str "2", css := some [] } [
      .node { name := .str "-", id := .str "3", css := some [("font-family", .str "A\nB")] } []],
    .node { name := .str "", id := .str "4" } []]

theorem text_reads_listing : (∀ f ∈ listing.preorder, '\n' ∉ f.name.display.toList) ∧
    listing.text 1 =
      "  -Card\x7b\x7d\n    -  -Icon\x7b\x7d\n      --\x7b\"font-family\":\"A\\nB\"\x7d\n    -" ∧
    read? (listing.text 1) = some (1, listing.map Facts.shown) ∧ listing.text 1 ≠ listing.text 0 ∧
    (listing.text 1).toList = ['\n'].intercalate ((listing.map Facts.shown).lineages.map fun l =>
      indentation (1 + l.above.length) ++ '-' :: l.node.label) := by
  obtain ⟨hreads, hsame, hprinted⟩ := text_reads
  have hnames : ∀ f ∈ listing.preorder, '\n' ∉ f.name.display.toList := by
    simp [listing, preorder, preorderAll]
  have hread := (hreads listing 1 hnames).2
  refine ⟨hnames, by cbv, hread, ?_, hprinted _ 1 _ hread⟩
  intro heq
  exact absurd ((hsame listing listing 1 0 hnames hnames).1 heq).1 (by decide)

end Outline

end DesignComponents
