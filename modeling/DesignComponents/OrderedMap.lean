/-!
Maps that remember the order in which their keys came first. A key that comes again keeps its
place and takes the new value.
-/

namespace DesignComponents

/-- Entries in order; `put` keeps their keys apart. -/
abbrev OrderedMap (κ α : Type) := List (κ × α)

namespace OrderedMap

variable {κ α β : Type} [BEq κ]

def put (k : κ) (a : α) : OrderedMap κ α → OrderedMap κ α
  | [] => [(k, a)]
  | (k', a') :: rest => if k' == k then (k', a) :: rest else (k', a') :: put k a rest

def get? (k : κ) : OrderedMap κ α → Option α
  | [] => none
  | (k', a) :: rest => if k' == k then some a else get? k rest

def ofList (entries : List (κ × α)) : OrderedMap κ α :=
  entries.foldl (fun m e => put e.1 e.2 m) []

/-- The entries of both; where both have a key, the second gives the value. -/
def merge (a b : OrderedMap κ α) : OrderedMap κ α :=
  b.foldl (fun m e => put e.1 e.2 m) a

@[simp] theorem get?_nil (k : κ) : get? k ([] : OrderedMap κ α) = none := rfl

@[simp] theorem put_nil (k : κ) (a : α) : put k a [] = [(k, a)] := rfl

@[simp] theorem merge_nil (a : OrderedMap κ α) : merge a [] = a := rfl

@[simp] theorem nil_merge (b : OrderedMap κ α) : merge [] b = ofList b := rfl

@[simp] theorem ofList_nil : ofList ([] : List (κ × α)) = [] := rfl

theorem get?_put_self [LawfulBEq κ] (k : κ) (a : α) (m : OrderedMap κ α) :
    get? k (put k a m) = some a := by
  induction m with
  | nil => simp [put, get?]
  | cons e rest ih => by_cases h : e.1 == k <;> simp_all [put, get?]

theorem get?_put_of_ne [LawfulBEq κ] {k k' : κ} (h : k ≠ k') (a : α) (m : OrderedMap κ α) :
    get? k' (put k a m) = get? k' m := by
  induction m with
  | nil => simp [put, get?, h]
  | cons e rest ih => by_cases h' : e.1 = k <;> simp_all [put, get?]

end OrderedMap

end DesignComponents
