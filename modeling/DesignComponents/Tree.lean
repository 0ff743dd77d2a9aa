/-!
Ordered trees with a label at every node.
-/

namespace DesignComponents

inductive Tree (α : Type)
  | node (label : α) (children : List (Tree α))

namespace Tree

variable {α β ε : Type}

def label : Tree α → α
  | .node a _ => a

def children : Tree α → List (Tree α)
  | .node _ ts => ts

mutual

def size : Tree α → Nat
  | .node _ ts => sizeAll ts + 1

def sizeAll : List (Tree α) → Nat
  | [] => 0
  | t :: ts => size t + sizeAll ts

end

mutual

def map (f : α → β) : Tree α → Tree β
  | .node a ts => .node (f a) (mapAll f ts)

def mapAll (f : α → β) : List (Tree α) → List (Tree β)
  | [] => []
  | t :: ts => map f t :: mapAll f ts

end

mutual

def preorder : Tree α → List α
  | .node a ts => a :: preorderAll ts

def preorderAll : List (Tree α) → List α
  | [] => []
  | t :: ts => preorder t ++ preorderAll ts

end

/-- The tree of results, if there is one at every node. -/
def sequence : Tree (Except ε α) → Except ε (Tree α)
  | .node (.error e) _ => .error e
  | .node (.ok a) ts => (sequenceAll ts).map (.node a)
where
  sequenceAll : List (Tree (Except ε α)) → Except ε (List (Tree α))
    | [] => .ok []
    | t :: ts => do
      let t ← sequence t
      let ts ← sequenceAll ts
      pure (t :: ts)

def descend? : List Nat → Tree α → Option (Tree α)
  | [], t => some t
  | i :: path, .node _ ts => (ts[i]?).bind (descend? path)

@[simp] theorem label_node (a : α) (ts : List (Tree α)) : (Tree.node a ts).label = a := rfl
@[simp] theorem children_node (a : α) (ts : List (Tree α)) : (Tree.node a ts).children = ts := rfl

@[simp] theorem mapAll_eq (f : α → β) (ts : List (Tree α)) : mapAll f ts = ts.map (map f) := by
  induction ts with
  | nil => rfl
  | cons t ts ih => simp [mapAll, ih]

theorem preorderAll_eq (ts : List (Tree α)) : preorderAll ts = ts.flatMap preorder := by
  induction ts with
  | nil => rfl
  | cons t ts ih => simp [preorderAll, ih]

theorem sizeAll_append (ts us : List (Tree α)) : sizeAll (ts ++ us) = sizeAll ts + sizeAll us := by
  induction ts with
  | nil => simp [sizeAll]
  | cons t ts ih => simp [sizeAll, ih, Nat.add_assoc]

/-- Labels in the order in which a queue serves the nodes: a node's children wait behind all that
waits already. -/
def breadthFirst : List (Tree α) → List α
  | [] => []
  | .node a ts :: queue => a :: breadthFirst (queue ++ ts)
termination_by ts => sizeAll ts
decreasing_by simp [sizeAll, sizeAll_append, size]; omega

@[simp] theorem breadthFirst_nil : breadthFirst ([] : List (Tree α)) = [] := by
  simp [breadthFirst]

end Tree

end DesignComponents
