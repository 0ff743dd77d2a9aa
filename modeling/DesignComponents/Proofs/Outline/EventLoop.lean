import DesignComponents.Proofs.Outline.DepthFirst
import Mathlib.Logic.Relation

/-!
Walks by a loop that begins visits in the order in which they were asked for. A visit asks for
those below it all at once and is held until they are over; when it goes on after that is left
open. Whatever the loop does, it comes to the outline and the warnings of a walk.
-/

namespace DesignComponents

/-- A visit that has not begun, one that waits for those below it, or the outline it came to. -/
inductive Visit
  | fresh (n : Node)
  | waiting (facts : Facts) (below : List Visit)
  | ended (o : Outline)

namespace Visit

theorem induction {P : Visit → Prop} (fresh : ∀ n, P (.fresh n))
    (waiting : ∀ f vs, (∀ v ∈ vs, P v) → P (.waiting f vs)) (ended : ∀ o, P (.ended o)) :
    ∀ v, P v
  | .fresh n => fresh n
  | .waiting f vs => waiting f vs fun v _ => induction fresh waiting ended v
  | .ended o => ended o

/-- A node to visit, and the way to its visit. -/
abbrev Errand := List Nat × Node

def Errand.beneath (path : List Nat) (r : Errand) : Errand := (path ++ r.1, r.2)

mutual

/-- The visits that have not begun. -/
def open_ : Visit → List Errand
  | .fresh n => [([], n)]
  | .waiting _ vs => openFrom 0 vs
  | .ended _ => []

def openFrom (i : Nat) : List Visit → List Errand
  | [] => []
  | v :: vs => (open_ v).map (Errand.beneath [i]) ++ openFrom (i + 1) vs

end

mutual

/-- What a visit comes to if all that is left is done in depth. -/
def outcome (d : Document) : Visit → Except Fault Outline
  | .fresh n => (d.visitInDepth n).result
  | .waiting f vs => (outcomes d vs).map (.node f)
  | .ended o => .ok o

def outcomes (d : Document) : List Visit → Except Fault (List Outline)
  | [] => .ok []
  | v :: vs => do
    let o ← outcome d v
    let os ← outcomes d vs
    pure (o :: os)

end

mutual

def steps (d : Document) : Visit → Nat
  | .fresh n => 2 * (d.walk n).size
  | .waiting _ vs => stepsAll d vs + 1
  | .ended _ => 0

def stepsAll (d : Document) : List Visit → Nat
  | [] => 0
  | v :: vs => steps d v + stepsAll d vs

end

/-- Two visits that are the same but for what is at the end of a way. -/
inductive Put : List Nat → Visit → Visit → Visit → Visit → Prop
  | here : Put [] v w v w
  | inside : Put path v w t u →
      Put (pre.length :: path) v w (.waiting f (pre ++ t :: post)) (.waiting f (pre ++ u :: post))

variable {d : Document} {path : List Nat} {v w t u : Visit}

theorem openFrom_append (i : Nat) (vs ws : List Visit) :
    openFrom i (vs ++ ws) = openFrom i vs ++ openFrom (i + vs.length) ws := by
  induction vs generalizing i with
  | nil => simp [openFrom]
  | cons v vs ih => simp [openFrom, ih, Nat.add_assoc, Nat.add_comm 1]

theorem openFrom_ended (i : Nat) (os : List Outline) : openFrom i (os.map .ended) = [] := by
  induction os generalizing i with
  | nil => rfl
  | cons o os ih => simp [openFrom, open_, ih]

theorem outcomes_ended (d : Document) (os : List Outline) :
    outcomes d (os.map .ended) = .ok os := by
  induction os with
  | nil => rfl
  | cons o os ih => simp [outcomes, outcome, ih]

theorem outcomes_fresh (d : Document) (ns : List Node) :
    outcomes d (ns.map .fresh) = (d.visitBelow .all ns).result := by
  induction ns with
  | nil => simp [outcomes, Document.visitBelow]
  | cons n ns ih =>
    simp only [List.map_cons, outcomes, outcome, ih, Document.visitBelow, Traced.bind_result,
      Traced.pure_result, pure_eq_ok]

theorem outcomes_congr (h : outcome d t = outcome d u) (pre post : List Visit) :
    outcomes d (pre ++ t :: post) = outcomes d (pre ++ u :: post) := by
  induction pre with
  | nil => simp only [List.nil_append, outcomes, h]
  | cons v pre ih => simp only [List.cons_append, outcomes, ih]

theorem stepsAll_append (d : Document) (vs ws : List Visit) :
    stepsAll d (vs ++ ws) = stepsAll d vs + stepsAll d ws := by
  induction vs with
  | nil => simp [stepsAll]
  | cons v vs ih => simp [stepsAll, ih, Nat.add_assoc]

theorem stepsAll_fresh (d : Document) (ns : List Node) :
    stepsAll d (ns.map .fresh) = 2 * Tree.sizeAll (ns.map d.walk) := by
  induction ns with
  | nil => rfl
  | cons n ns ih => simp [stepsAll, steps, ih, Tree.sizeAll, Nat.mul_add]

namespace Put

theorem open_eq (h : Put path v w t u) : ∃ pre post,
    open_ t = pre ++ (open_ v).map (Errand.beneath path) ++ post ∧
    open_ u = pre ++ (open_ w).map (Errand.beneath path) ++ post := by
  induction h with
  | here =>
    have hid : Errand.beneath [] = id := rfl
    exact ⟨[], [], by simp [hid], by simp [hid]⟩
  | @inside path v w t u f vs ws _ ih =>
    obtain ⟨pre, post, ht, hu⟩ := ih
    have hlift : Errand.beneath [vs.length] ∘ Errand.beneath path =
        Errand.beneath (vs.length :: path) := rfl
    refine ⟨openFrom 0 vs ++ pre.map (Errand.beneath [vs.length]),
      post.map (Errand.beneath [vs.length]) ++ openFrom (vs.length + 1) ws, ?_, ?_⟩
    · simp [open_, openFrom_append, openFrom, ht, hlift]
    · simp [open_, openFrom_append, openFrom, hu, hlift]

theorem outcome_eq (h : Put path v w t u) (ho : outcome d v = outcome d w) :
    outcome d t = outcome d u := by
  induction h with
  | here => exact ho
  | inside _ ih => simp only [outcome, outcomes_congr (ih ho)]

theorem steps_lt (h : Put path v w t u) (hs : steps d w < steps d v) : steps d u < steps d t := by
  induction h with
  | here => exact hs
  | inside _ ih =>
    have := ih hs
    simp only [steps, stepsAll_append, stepsAll]
    omega

end Put

theorem mem_openFrom {i : Nat} {vs : List Visit} {r : Errand} (h : r ∈ openFrom i vs) :
    ∃ pre v post, vs = pre ++ v :: post ∧ ∃ q ∈ open_ v, r = q.beneath [i + pre.length] := by
  induction vs generalizing i with
  | nil => simp [openFrom] at h
  | cons v vs ih =>
    rcases List.mem_append.1 h with h | h
    · obtain ⟨q, hq, rfl⟩ := List.mem_map.1 h
      exact ⟨[], v, vs, rfl, q, hq, rfl⟩
    · obtain ⟨pre, w, post, rfl, q, hq, rfl⟩ := ih h
      exact ⟨v :: pre, w, post, rfl, q, hq, by simp [Nat.add_assoc, Nat.add_comm 1]⟩

theorem mem_open_waiting {f : Facts} {vs : List Visit} {r : Errand}
    (h : r ∈ open_ (.waiting f vs)) :
    ∃ pre v post, vs = pre ++ v :: post ∧ ∃ q ∈ open_ v, r = q.beneath [pre.length] := by
  simpa using mem_openFrom h

/-- Where a visit is open, it can go on as any other. -/
theorem exists_put {r : Errand} (h : r ∈ open_ t) (w : Visit) :
    ∃ u, Put r.1 (.fresh r.2) w t u := by
  induction t using Visit.induction generalizing r with
  | fresh n =>
    obtain rfl := List.mem_singleton.1 h
    exact ⟨w, .here⟩
  | ended o => cases h
  | waiting f vs ih =>
    obtain ⟨pre, v, post, rfl, q, hq, rfl⟩ := mem_open_waiting h
    obtain ⟨u, hu⟩ := ih v (by simp) hq
    exact ⟨_, .inside hu⟩

theorem exists_of_mem_outcomes {vs : List Visit} {os : List Outline} (h : outcomes d vs = .ok os)
    (hv : v ∈ vs) : ∃ o, outcome d v = .ok o := by
  induction vs generalizing os with
  | nil => cases hv
  | cons w vs ih =>
    simp only [outcomes, bind_eq_ok] at h
    obtain ⟨o, ho, us, hus, -⟩ := h
    rcases List.mem_cons.1 hv with rfl | hv
    · exact ⟨o, ho⟩
    · exact ih hus hv

theorem exists_of_mem_open {r : Errand} {o : Outline} (h : r ∈ open_ t)
    (ho : outcome d t = .ok o) : ∃ o, (d.visitInDepth r.2).result = .ok o := by
  induction t using Visit.induction generalizing r o with
  | fresh n =>
    obtain rfl := List.mem_singleton.1 h
    exact ⟨o, ho⟩
  | ended o => cases h
  | waiting f vs ih =>
    obtain ⟨pre, v, post, rfl, q, hq, rfl⟩ := mem_open_waiting h
    obtain ⟨os, hos, -⟩ := map_eq_ok.1 ho
    have hv : v ∈ pre ++ v :: post := by simp
    obtain ⟨p, hp⟩ := exists_of_mem_outcomes hos hv
    exact ih v hv (r := q) hq hp

theorem exists_map_ended {vs : List Visit} (h : ∀ v ∈ vs, ∃ o, v = .ended o) :
    ∃ os : List Outline, vs = os.map .ended := by
  induction vs with
  | nil => exact ⟨[], rfl⟩
  | cons v vs ih =>
    obtain ⟨o, rfl⟩ := h v (.head _)
    obtain ⟨os, rfl⟩ := ih fun w hw => h w (.tail _ hw)
    exact ⟨o :: os, rfl⟩

/-- If nothing is open, all is over, or a visit that waits can go on. -/
theorem ended_or_put (h : open_ t = []) : (∃ o, t = .ended o) ∨
    ∃ path f os u, Put path (.waiting f (os.map .ended)) (.ended (.node f os)) t u := by
  induction t using Visit.induction with
  | fresh n => cases h
  | ended o => exact .inl ⟨o, rfl⟩
  | waiting f vs ih =>
    refine .inr ?_
    by_cases hended : ∀ v ∈ vs, ∃ o, v = .ended o
    · obtain ⟨os, rfl⟩ := exists_map_ended hended
      exact ⟨[], f, os, _, .here⟩
    · simp only [not_forall] at hended
      obtain ⟨v, hv, hne⟩ := hended
      obtain ⟨pre, post, rfl⟩ := List.append_of_mem hv
      have hopen : open_ v = [] := by
        simp only [open_, openFrom_append, openFrom, List.append_eq_nil_iff, List.map_eq_nil_iff]
          at h
        exact h.2.1
      obtain ⟨path, g, os, u, hu⟩ := (ih v hv hopen).resolve_left hne
      exact ⟨_, g, os, _, .inside hu⟩

end Visit

open Visit

/-- A visit under way, the errands in the order in which they are met, and the warnings given. -/
structure Loop where
  visit : Visit
  queue : List Errand
  log : List Warning

namespace Loop

def start (n : Node) : Loop := ⟨.fresh n, [([], n)], []⟩

def finished (o : Outline) (log : List Warning) : Loop := ⟨.ended o, [], log⟩

def errands (path : List Nat) (ns : List Node) : List Errand :=
  (openFrom 0 (ns.map .fresh)).map (Errand.beneath path)

inductive Step (d : Document) : Loop → Loop → Prop
  | begin : (d.observe n).result = .ok (f, descent) →
      Put path (.fresh n) (.waiting f ((descent.kept n.children).map .fresh)) t u →
      Step d ⟨t, (path, n) :: rs, ws⟩
        ⟨u, rs ++ errands path (descent.kept n.children), ws ++ (d.observe n).log⟩
  | finish : Put path (.waiting f (os.map .ended)) (.ended (.node f os)) t u →
      Step d ⟨t, rs, ws⟩ ⟨u, rs, ws⟩

abbrev Steps (d : Document) : Loop → Loop → Prop := Relation.ReflTransGen (Step d)

variable {d : Document} {n : Node} {s t : Loop} {o : Outline} {f : Facts} {descent : Descent}

theorem errands_map (d : Document) (path : List Nat) (ns : List Node) :
    (errands path ns).map (fun r => d.walk r.2) = ns.map d.walk := by
  have key (i : Nat) : (openFrom i (ns.map .fresh)).map (fun r => d.walk r.2) = ns.map d.walk := by
    induction ns generalizing i with
    | nil => rfl
    | cons n ns ih => simp [openFrom, open_, Errand.beneath, ih]
  rw [errands, List.map_map]
  exact key 0

/-- The errands are those for the visits that are open, the outcome is that in depth, and the
warnings given with those to come are those of the walk. -/
structure Holds (d : Document) (n : Node) (s : Loop) : Prop where
  queue : s.queue.Perm (open_ s.visit)
  outcome : outcome d s.visit = (d.visitInDepth n).result
  log : s.log ++ (Tree.breadthFirst (s.queue.map fun r => d.walk r.2)).flatMap Traced.log =
    (d.visit n).log

theorem holds_start (d : Document) (n : Node) : Holds d n (start n) :=
  ⟨List.Perm.refl _, rfl, rfl⟩

theorem outcome_begin (h : (d.observe n).result = .ok (f, descent)) :
    Visit.outcome d (.fresh n) =
      Visit.outcome d (.waiting f ((descent.kept n.children).map .fresh)) := by
  cases n with
  | node site ns =>
    simp only [Visit.outcome, outcomes_fresh, Document.visitInDepth, Traced.bind_result, h, ok_bind,
      Document.visitBelow_eq d descent ns]
    rfl

theorem steps_begin (h : (d.observe n).result = .ok (f, descent)) :
    steps d (.waiting f ((descent.kept n.children).map .fresh)) < steps d (.fresh n) := by
  cases n with
  | node site ns =>
    simp only [steps, stepsAll_fresh, Document.walk_node, Document.descentOf, h, Tree.size,
      Tree.children_node]
    omega

theorem breadthFirst_begin (h : (d.observe n).result = .ok (f, descent))
    (ts : List (Tree (Traced Facts))) :
    (Tree.breadthFirst (d.walk n :: ts)).flatMap Traced.log = (d.observe n).log ++
      (Tree.breadthFirst (ts ++ (descent.kept n.children).map d.walk)).flatMap Traced.log := by
  cases n with
  | node site ns =>
    rw [Document.walk_node, Tree.breadthFirst, List.flatMap_cons, Traced.map_log]
    simp only [Document.descentOf, h, Tree.children_node]

theorem Step.holds (h : Step d s t) (hs : Holds d n s) : Holds d n t := by
  cases h with
  | @begin m f below path v u rs ws hm hput =>
    obtain ⟨pre, post, hv, hu⟩ := hput.open_eq
    have hu : open_ u = pre ++ errands path (below.kept m.children) ++ post := hu
    have hqueue : ((path, m) :: rs).Perm (pre ++ (path, m) :: post) := by
      simpa [hv, open_, Errand.beneath] using hs.queue
    constructor
    · have hrest : rs.Perm (pre ++ post) :=
        (hqueue.trans List.perm_middle).cons_inv
      simp only [hu, List.append_assoc]
      refine (hrest.append_right _).trans ?_
      rw [List.append_assoc]
      exact List.perm_append_comm.append_left pre
    · exact (hput.outcome_eq (outcome_begin hm)).symm.trans hs.outcome
    · rw [← hs.log]
      simp only [List.map_cons, List.map_append, errands_map, breadthFirst_begin hm,
        List.append_assoc]
  | @finish path f os v u rs ws hput =>
    obtain ⟨pre, post, hv, hu⟩ := hput.open_eq
    constructor
    · have hopen : open_ u = open_ v := by
        simp [hu, hv, open_, openFrom_ended]
      exact hopen ▸ hs.queue
    · refine (hput.outcome_eq ?_).symm.trans hs.outcome
      simp [Visit.outcome, outcomes_ended]
    · exact hs.log

theorem Step.steps_lt (h : Step d s t) : steps d t.visit < steps d s.visit := by
  cases h with
  | begin hm hput => exact hput.steps_lt (steps_begin hm)
  | finish hput => exact hput.steps_lt (by simp [steps])

/-- As long as a loop is not finished it can take a step. -/
theorem Holds.progress (hs : Holds d n s) (ho : (d.visitInDepth n).result = .ok o) :
    s = finished o (d.visit n).log ∨ ∃ t, Step d s t := by
  obtain ⟨v, rs, ws⟩ := s
  have hv : Visit.outcome d v = .ok o := hs.outcome.trans ho
  cases rs with
  | nil =>
    have hopen : open_ v = [] := List.nil_perm.1 hs.queue
    rcases ended_or_put hopen with ⟨p, rfl⟩ | ⟨path, f, os, u, hput⟩
    · have hlog : ws = (d.visit n).log := by simpa using hs.log
      obtain rfl := Except.ok.inj hv
      exact .inl (by rw [hlog, finished])
    · exact .inr ⟨_, .finish hput⟩
  | cons r rs =>
    obtain ⟨path, m⟩ := r
    have hmem : (path, m) ∈ open_ v := hs.queue.subset (.head _)
    obtain ⟨p, hp⟩ := exists_of_mem_open hmem hv
    obtain ⟨f, below, hm⟩ := Document.observe_of_visitInDepth hp
    obtain ⟨u, hput⟩ := exists_put hmem (.waiting f ((below.kept m.children).map .fresh))
    exact .inr ⟨_, .begin hm hput⟩

theorem Holds.finishes (hs : Holds d n s) (ho : (d.visitInDepth n).result = .ok o) :
    Steps d s (finished o (d.visit n).log) := by
  induction hk : steps d s.visit using Nat.strongRecOn generalizing s with
  | ind k ih =>
    rcases hs.progress ho with rfl | ⟨t, ht⟩
    · exact .refl
    · exact .head ht (ih _ (hk ▸ ht.steps_lt) (ht.holds hs) rfl)

theorem Holds.steps (hs : Holds d n s) (h : Steps d s t) : Holds d n t := by
  induction h with
  | refl => exact hs
  | tail _ hstep ih => exact hstep.holds ih

/-- Wherever a loop has come to, it can still finish, and with nothing but this. -/
theorem finishes (ho : (d.visit n).result = .ok o) (h : Steps d (start n) s) :
    Steps d s (finished o (d.visit n).log) :=
  ((holds_start d n).steps h).finishes (Document.visit_eq_ok.1 ho)

end Loop

end DesignComponents
