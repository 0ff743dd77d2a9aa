import DesignComponents.Proofs.Document.Index
import DesignComponents.Proofs.Document.Query

/-!
Which nodes a document answers questions about: those that its index holds under their own
identifiers. Where all identifiers differ, it holds with a node all that lies below it.
-/

namespace DesignComponents

namespace Tree

variable {α : Type} {t : Tree α} {above : List (Tree α)} {l : Lineage α}

theorem root_mem (t : Tree α) : ⟨t, []⟩ ∈ t.lineages := by
  rw [lineages, lineagesFrom_eq]
  exact List.mem_cons_self ..

/-- With a node its children are there. -/
theorem child_mem {c : Tree α} (h : l ∈ lineagesFrom above t) (hc : c ∈ l.node.children) :
    ⟨c, l.path⟩ ∈ lineagesFrom above t := by
  induction t using induction generalizing above with
  | node a ts ih =>
    rw [lineagesFrom_eq, List.mem_cons, List.mem_flatMap] at h ⊢
    rcases h with rfl | ⟨t, ht, hl⟩
    · refine .inr ⟨c, hc, ?_⟩
      rw [lineagesFrom_eq]
      exact List.mem_cons_self ..
    · exact .inr ⟨t, ht, ih t ht hl⟩

/-- With a node all that lies below it is there. -/
theorem below_mem {l' : Lineage α} {above' : List (Tree α)} (h : l ∈ lineagesFrom above t)
    (hl' : l' ∈ lineagesFrom above' l.node) :
    ∃ up, ⟨l'.node, up⟩ ∈ lineagesFrom above t := by
  generalize hn : l.node = n at hl'
  induction n using induction generalizing l above' with
  | node a ts ih =>
    rw [lineagesFrom_eq, List.mem_cons, List.mem_flatMap] at hl'
    rcases hl' with rfl | ⟨c, hc, hl'⟩
    · exact ⟨l.above, hn ▸ h⟩
    · exact ih c hc (child_mem h (hn ▸ hc)) rfl hl'

/-- What is so of a tree, and with a node of its children, is so of all its nodes. -/
theorem forall_lineages {P : Tree α → Prop} (hP : ∀ t c, P t → c ∈ t.children → P c) (ht : P t)
    (h : l ∈ lineagesFrom above t) : P l.node := by
  induction t using induction generalizing above with
  | node a ts ih =>
    rw [lineagesFrom_eq, List.mem_cons, List.mem_flatMap] at h
    rcases h with rfl | ⟨c, hc, hl⟩
    · exact ht
    · exact ih c hc (hP _ c ht hc) hl

/-- What is so of all nodes of a tree is so of those above one of them. -/
theorem forall_path {P : Tree α → Prop} (hP : ∀ l ∈ t.lineages, P l.node) (h : l ∈ t.lineages) :
    ∀ n ∈ l.path, P n := by
  obtain ⟨node, up⟩ := l
  induction up generalizing node with
  | nil => simpa using hP _ h
  | cons p up ih =>
    rw [Lineage.path_mk, List.forall_mem_cons]
    exact ⟨hP _ h, ih p (parent_mem h rfl)⟩

end Tree

namespace Node

theorem foreign_of_mem_ofElements {n : Node} {i : Nat} {xs : List Json}
    (h : n ∈ ofElements none i xs) : ∃ v, n = foreign v := by
  induction xs generalizing i with
  | nil => simp [ofElements] at h
  | cons x xs ih =>
    rcases List.mem_cons.1 h with rfl | h
    · exact ⟨x, rfl⟩
    · exact ih h

/-- What lies below a node of no document is part of none. -/
theorem foreign_of_mem_children {n : Node} {v : Json} (h : n ∈ (foreign v).children) :
    ∃ w, n = foreign w := by
  rw [foreign, children_ofJson] at h
  cases hv : (v.lookup? "children").getD .null with
  | arr xs =>
    rw [hv, childrenOf] at h
    exact foreign_of_mem_ofElements h
  | str s =>
    rw [hv, childrenOf] at h
    obtain ⟨c, -, rfl⟩ := List.mem_map.1 h
    exact ⟨.str (String.singleton c), rfl⟩
  | obj fs =>
    rw [hv, childrenOf] at h
    obtain ⟨f, -, rfl⟩ := List.mem_map.1 h
    exact ⟨.str f.1, rfl⟩
  | _ => simp [hv, childrenOf] at h

end Node

namespace Document

variable {d : Document} {n : Node}

/-- The index holds this very node under the identifier that the node has. -/
def Indexes (d : Document) (n : Node) : Prop := ∃ i, n.id? = some i ∧ d.node? (.str i) = some n

/-- A node that may be asked about: one of the document or one of none. -/
def Meets (d : Document) (n : Node) : Prop :=
  (∃ l ∈ d.root.lineages, l.node = n) ∨ ∃ v, n = Node.foreign v

namespace IsPlain

theorem indexes_of_last? (hd : d.IsPlain) {i : String} {l : Lineage Site}
    (h : d.root.last? i = some l) : d.Indexes l.node := by
  refine ⟨i, (Node.mem_of_last? h).2, ?_⟩
  rw [hd.node?_str, h]
  rfl

theorem exists_last?_of_indexes (hd : d.IsPlain) (h : d.Indexes n) :
    ∃ i l, d.root.last? i = some l ∧ l.node = n := by
  obtain ⟨i, -, hn⟩ := h
  rw [hd.node?_str, Option.map_eq_some_iff] at hn
  obtain ⟨l, hl, hn⟩ := hn
  exact ⟨i, l, hl, hn⟩

theorem require_of_indexes (hd : d.IsPlain) (h : d.Indexes n) : ∃ k, d.require n = .ok k := by
  obtain ⟨i, l, hl, rfl⟩ := hd.exists_last?_of_indexes h
  exact ⟨_, hd.require_eq hl⟩

/-- What the document takes for its own is the node that the index holds. -/
theorem indexes_of_require (hd : d.IsPlain) (hn : d.Meets n) {k : Key}
    (h : d.require n = .ok k) : d.Indexes n := by
  rw [require, bind_eq_ok] at h
  obtain ⟨id, -, h⟩ := h
  split at h
  · cases h
  · obtain ⟨key, -, h⟩ := bind_eq_ok.1 h
    split at h
    case h_2 => cases h
    case h_1 m hm =>
      split at h
      case isFalse => cases h
      case isTrue hsame =>
        obtain ⟨hplaced, hplace⟩ : m.place.isSome ∧ m.place = n.place := by simpa using hsame
        obtain ⟨p, hp⟩ := Option.isSome_iff_exists.1 hplaced
        obtain ⟨e, he, rfl⟩ := Option.map_eq_some_iff.1 hm
        obtain ⟨i, l, -, hlast, rfl⟩ := hd.exists_of_entry? he
        have hl := (Node.mem_identified.1 (Node.mem_of_last? hlast).1).1
        rcases hn with ⟨l', hl', rfl⟩ | ⟨v, rfl⟩
        · obtain ⟨v, hv⟩ := hd.file
          rw [hv] at hl hl'
          obtain rfl : l = l' := Node.eq_of_place_eq hl hl' hp (hplace ▸ hp)
          exact hd.indexes_of_last? hlast
        · rw [hp, Node.foreign, Node.place_ofJson] at hplace
          cases hplace

theorem require_isOk (hd : d.IsPlain) (hn : d.Meets n) :
    (∃ k, d.require n = .ok k) ↔ d.Indexes n := by
  constructor
  · rintro ⟨k, hk⟩
    exact hd.indexes_of_require hn hk
  · exact hd.require_of_indexes

/-- Where all nodes have identifiers that differ, all nodes are indexed. -/
theorem indexes_of_nodup (hd : d.IsPlain)
    (hids : ∀ l ∈ d.root.lineages, (Node.id? l.node).isSome)
    (hnodup : (d.root.lineages.map Lineage.id?).Nodup) {l : Lineage Site}
    (hl : l ∈ d.root.lineages) : d.Indexes l.node := by
  have hidentified : d.root.identified = d.root.lineages := by
    apply List.filter_eq_self.2
    intro l hl
    exact List.all_eq_true.2 (Tree.forall_path hids hl)
  obtain ⟨i, hi⟩ := Option.isSome_iff_exists.1 (hids l hl)
  rw [← hidentified] at hl hnodup
  exact hd.indexes_of_last? (Node.last?_eq_of_nodup hnodup hl hi)

end IsPlain

theorem Meets.child (hn : d.Meets n) {m : Node} (hm : m ∈ n.children) : d.Meets m := by
  rcases hn with ⟨l, hl, rfl⟩ | ⟨v, rfl⟩
  · exact .inl ⟨_, Tree.child_mem hl hm, rfl⟩
  · exact .inr (Node.foreign_of_mem_children hm)

/-- Where all nodes have identifiers that differ, what lies below an indexed node is indexed. -/
theorem IsPlain.indexes_below (hd : d.IsPlain)
    (hids : ∀ l ∈ d.root.lineages, (Node.id? l.node).isSome)
    (hnodup : (d.root.lineages.map Lineage.id?).Nodup) (hn : d.Indexes n) {l : Lineage Site}
    (hl : l ∈ n.lineages) : d.Indexes l.node := by
  obtain ⟨i, l', hlast, rfl⟩ := hd.exists_last?_of_indexes hn
  have hl' := (Node.mem_identified.1 (Node.mem_of_last? hlast).1).1
  obtain ⟨up, hup⟩ := Tree.below_mem hl' hl
  exact hd.indexes_of_nodup (l := ⟨l.node, up⟩) hids hnodup hup

/-- A style that is asked for: that of the node if the index holds the node, else none. -/
structure Styles (d : Document) (n : Node) (css : Option Css) : Prop where
  known : d.Indexes n → ∃ own, Css.extract n.value = .ok own ∧ css = some own
  missed : ¬ d.Indexes n → css = none

namespace IsPlain

/-- What is asked about a node that the index does not hold is not known. -/
theorem soft_eq_none (hd : d.IsPlain) (hn : d.Meets n) (hno : ¬ d.Indexes n) {α : Type}
    {f : Key → Traced (Option α)} {a : Option α}
    (h : ((liftM (d.require n) : Traced Key) >>= f).soft.result = .ok a) : a = none := by
  cases hr : d.require n with
  | ok k => exact absurd (hd.indexes_of_require hn hr) hno
  | error e =>
    rw [hr] at h
    unfold Traced.soft at h
    split at h
    case h_1 => exact (Except.ok.inj h).symm
    case h_2 => simp at h

theorem styles (hd : d.IsPlain) (hn : d.Meets n) (hs : n.IsScene) {css : Option Css}
    (h : (d.css n).soft.result = .ok css) : d.Styles n css where
  known := by
    intro hyes
    obtain ⟨k, hk⟩ := hd.require_of_indexes hyes
    obtain ⟨own, hown, -⟩ := Css.extract_yields hs.node
    have hcss : (d.css n).result = .ok (some own) := by simp [Document.css, hk, hown]
    refine ⟨own, hown, ?_⟩
    rw [Traced.soft, hcss] at h
    exact (Except.ok.inj (hcss.symm.trans h)).symm
  missed := fun hno => hd.soft_eq_none hn hno h

end IsPlain

/-- The nodes of a file with fields of their types have such fields. -/
theorem isScene_of_mem {file variableFile : Json} (hf : Shape.file file = true)
    (h : ofJson file variableFile = .ok d) {l : Lineage Site} (hl : l ∈ d.root.lineages) :
    Node.IsScene l.node := by
  obtain ⟨root, hroot, hd, -⟩ := root_of_ofJson h
  have hf : Shape.file file.orEmpty = true := Shape.orEmpty_record (.inr hf)
  obtain ⟨v, hv, hscene⟩ : Yields (file.orEmpty.getOr "document" (.obj [])) fun v =>
      Shape.scene v = true := Shape.record_getOr "document" hf rfl rfl
  obtain rfl : root = v := Except.ok.inj (hroot.symm.trans hv)
  refine Tree.forall_lineages (fun t c ht hc => (ht.mem_children hc).1) ?_ hl
  exact ⟨some [], root, hd, hscene⟩

theorem plain_of_file {file variableFile : Json} (hf : Shape.file file = true)
    (h : ofJson file variableFile = .ok d) : d.IsPlain := by
  obtain ⟨root, -, hd, hindex⟩ := root_of_ofJson h
  refine ⟨⟨root, hd⟩, hindex, ?_⟩
  intro l hl v hv
  obtain ⟨fs, hfs, hfields⟩ := Shape.exists_of_record (isScene_of_mem hf h hl).node
  rw [hfs] at hv
  exact Shape.orNull_iff.2 (.inr (hfields "id" _ v rfl hv))

end Document

end DesignComponents
