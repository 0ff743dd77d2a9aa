import DesignComponents.Outline.Visit
import DesignComponents.Proofs.Document.Warnings
import DesignComponents.Proofs.Tree.Levels

/-!
Scenes without what a walk leaves out: everything below vectors and below nodes of unknown types,
and all but the first child of a component set.
-/

namespace DesignComponents

def NodeKind.kept {α : Type} (k : NodeKind) (ts : List α) : List α :=
  match k with
  | .vector | .other => []
  | .componentSet => ts.take 1
  | _ => ts

/-- Nothing is walked below a node whose type cannot be asked for. -/
def Site.kept {α : Type} (s : Site) (ts : List α) : List α :=
  match NodeKind.ofNode s.value with
  | .ok k => k.kept ts
  | .error _ => []

def Descent.kept {α : Type} (below : Descent) (ts : List α) : List α :=
  match below with
  | .none => []
  | .first => ts.take 1
  | .all => ts

theorem Descent.mem_of_mem_kept {α : Type} {t : α} {ts : List α} (below : Descent)
    (h : t ∈ below.kept ts) : t ∈ ts := by
  cases below with
  | none => simp [kept] at h
  | first => exact List.mem_of_mem_take h
  | all => exact h

namespace Node

mutual

def pruned : Node → Node
  | .node s ts => .node s (s.kept (prunedAll ts))

def prunedAll : List Node → List Node
  | [] => []
  | t :: ts => pruned t :: prunedAll ts

end

theorem prunedAll_eq (ts : List Node) : prunedAll ts = ts.map pruned := by
  induction ts with
  | nil => rfl
  | cons t ts ih => simp [prunedAll, ih]

theorem kept_map {α β : Type} (s : Site) (f : α → β) (ts : List α) :
    s.kept (ts.map f) = (s.kept ts).map f := by
  unfold Site.kept NodeKind.kept
  split <;> [split; skip] <;> simp [List.map_take]

theorem pruned_node (s : Site) (ts : List Node) :
    pruned (.node s ts) = .node s ((s.kept ts).map pruned) := by
  rw [pruned, prunedAll_eq, kept_map]

/-- A node of data, with all that its children run through. -/
def IsHost (n : Node) : Prop := ∃ place v, n = ofJson place v

theorem isHost_ofJson (place : Option Place) (v : Json) : (ofJson place v).IsHost := ⟨place, v, rfl⟩

theorem isHost_bare (s : String) : (bare (.str s)).IsHost := ⟨none, .str s, rfl⟩

theorem isHost_of_mem_ofElements {place : Option Place} {i : Nat} {xs : List Json} {n : Node}
    (h : n ∈ ofElements place i xs) : n.IsHost := by
  induction xs generalizing i with
  | nil => simp [ofElements] at h
  | cons x xs ih =>
    rcases List.mem_cons.1 h with rfl | h
    · exact isHost_ofJson _ x
    · exact ih h

theorem isHost_of_mem_childrenOf {place : Option Place} {v : Json} {n : Node}
    (h : n ∈ childrenOf place v) : n.IsHost := by
  cases v with
  | arr xs => exact isHost_of_mem_ofElements h
  | str s =>
    obtain ⟨c, -, rfl⟩ := List.mem_map.1 h
    exact isHost_bare _
  | obj fs =>
    obtain ⟨f, -, rfl⟩ := List.mem_map.1 h
    exact isHost_bare _
  | _ => simp [childrenOf] at h

theorem childrenIn_eq (place : Option Place) (fs : List (String × Json)) :
    childrenIn place fs = childrenOf place ((fs.lookup "children").getD .null) := by
  induction fs with
  | nil => rfl
  | cons f fs ih =>
    obtain ⟨name, v⟩ := f
    by_cases hname : name = "children"
    · simp [childrenIn, hname]
    · have hne : ("children" == name) = false := by simpa using fun h => hname h.symm
      simp [childrenIn, hname, ih, List.lookup_cons, hne]

theorem children_ofJson (place : Option Place) (v : Json) :
    (ofJson place v).children = childrenOf place ((v.lookup? "children").getD .null) := by
  cases v with
  | obj fs => exact childrenIn_eq place fs
  | _ => rfl

variable {n m : Node}

theorem IsHost.mem_children (h : n.IsHost) (hm : m ∈ n.children) : m.IsHost := by
  obtain ⟨place, v, rfl⟩ := h
  rw [children_ofJson] at hm
  exact isHost_of_mem_childrenOf hm

theorem childrenOf_of_falsy {place : Option Place} {v : Json} (h : v.isTruthy = false) :
    childrenOf place v = [] := by
  cases v with
  | arr xs => cases xs <;> simp_all [childrenOf, ofElements]
  | obj fs => cases fs <;> simp_all [childrenOf]
  | str s => simp_all [childrenOf, Json.isTruthy]
  | _ => rfl

end Node

namespace Document

variable {n : Node} {k : NodeKind} {below : Descent}

theorem walkBelow_eq (d : Document) (below : Descent) (ns : List Node) :
    walkBelow d below ns = (below.kept ns).map d.walk := by
  cases below with
  | none => rw [walkBelow]; rfl
  | first => cases ns <;> simp [walkBelow, Descent.kept]
  | all =>
    simp only [Descent.kept]
    induction ns with
    | nil => simp [walkBelow]
    | cons n ns ih => rw [walkBelow, ih, List.map_cons]

/-- A walk goes on with the children that the kind of a node keeps. -/
theorem descent_kept (h : n.IsHost) (hd : descent n k.policy = .ok below) :
    below.kept n.children = k.kept n.children := by
  obtain ⟨place, v, rfl⟩ := h
  rw [descent, bind_eq_ok] at hd
  obtain ⟨children, hc, hd⟩ := hd
  rw [Node.value_ofJson] at hc
  by_cases hstop : k.policy.stops || !children.isTruthy
  · rw [if_pos hstop] at hd
    obtain rfl := Except.ok.inj hd
    rcases Bool.or_eq_true_iff.1 hstop with hstop | hfalsy
    · cases k <;> first | rfl | simp [NodePolicy.stops, NodeKind.policy] at hstop
    · have hnil : (Node.ofJson place v).children = [] := by
        rw [Node.children_ofJson, Json.get_eq_ok hc]
        exact Node.childrenOf_of_falsy (by simpa using hfalsy)
      cases k <;> simp [hnil, Descent.kept, NodeKind.kept]
  · rw [if_neg hstop] at hd
    cases k with
    | componentSet =>
      simp only [NodeKind.policy, if_true] at hd
      split at hd
      · obtain rfl := Except.ok.inj hd
        rfl
      · obtain rfl := Except.ok.inj hd
        rfl
      · cases hd
    | vector | other => simp [NodePolicy.stops, NodeKind.policy] at hstop
    | _ =>
      simp only [NodeKind.policy, Bool.false_eq_true, if_false, bind_eq_ok] at hd
      obtain ⟨xs, -, hd⟩ := hd
      obtain rfl := Except.ok.inj hd
      rfl

theorem factsByKind_given {d : Document} {f g : Facts} (h : (d.factsByKind n k f).result = .ok g) :
    g.name = f.name ∧ g.id = f.id ∧ g.css = f.css := by
  cases k with
  | instance_ | component | other =>
    simp only [factsByKind, Traced.bind_result, bind_eq_ok, Traced.pure_result] at h
    obtain ⟨_, -, _, -, h⟩ := h
    obtain rfl := Except.ok.inj h
    exact ⟨rfl, rfl, rfl⟩
  | componentSet =>
    simp only [factsByKind, Traced.bind_result, bind_eq_ok, Traced.pure_result] at h
    obtain ⟨_, -, h⟩ := h
    obtain rfl := Except.ok.inj h
    exact ⟨rfl, rfl, rfl⟩
  | _ =>
    obtain rfl := Except.ok.inj h
    exact ⟨rfl, rfl, rfl⟩

theorem observe_steps {d : Document} {f : Facts} (h : (d.observe n).result = .ok (f, below)) :
    ∃ k, n.kind = .ok k ∧ n.value.getOr "name" (.str "") = .ok f.name ∧
      n.value.getOr "id" (.str "") = .ok f.id ∧ (d.styleOf n k).result = .ok f.css ∧
      (d.factsByKind n k { name := f.name, id := f.id, css := f.css }).result = .ok f ∧
      descent n k.policy = .ok below := by
  simp only [observe_eq, observeRest, Traced.bind_result, Traced.lift_result, bind_eq_ok] at h
  obtain ⟨k, hk, name, hname, id, hid, css, hcss, facts, hfacts, below', hbelow, h⟩ := h
  obtain ⟨rfl, rfl⟩ := Prod.mk.inj (Except.ok.inj h)
  obtain ⟨rfl, rfl, rfl⟩ := factsByKind_given hfacts
  exact ⟨k, hk, hname, hid, hcss, hfacts, hbelow⟩

theorem observe_eq_ok {d : Document} {f : Facts} (h : (d.observe n).result = .ok (f, below)) :
    ∃ k, n.kind = .ok k ∧ n.value.getOr "name" (.str "") = .ok f.name ∧
      n.value.getOr "id" (.str "") = .ok f.id ∧ descent n k.policy = .ok below := by
  obtain ⟨k, hk, hname, hid, -, -, hbelow⟩ := observe_steps h
  exact ⟨k, hk, hname, hid, hbelow⟩

end Document

end DesignComponents
