import DesignComponents.Traced
import DesignComponents.Variable.Basic

/-!
Following aliases. An alias is followed through variables that have not been met on the way, so
the way is never longer than the table of variables.
-/

namespace DesignComponents

structure Variables where
  table : OrderedMap Key Json
  collections : OrderedMap Key Json

def alias? : Json → Option Json
  | .obj fs =>
    match fs.lookup "type", fs.lookup "id" with
    | some (.str "VARIABLE_ALIAS"), some id => some id
    | _, _ => none
  | _ => none

def isAlias (v : Json) : Bool := (alias? v).isSome

namespace Variables

def unseen (n : Nat) (seen : List (Fin n)) : Nat :=
  (List.finRange n).countP fun i => !seen.contains i

theorem unseen_cons_lt {n : Nat} {seen : List (Fin n)} {i : Fin n} (h : i ∉ seen) :
    unseen n (i :: seen) < unseen n seen := by
  have key : ∀ l : List (Fin n), l.countP (fun j => !(i :: seen).contains j) ≤
      l.countP (fun j => !seen.contains j) ∧
      (i ∈ l → l.countP (fun j => !(i :: seen).contains j) <
        l.countP (fun j => !seen.contains j)) := by
    intro l
    induction l with
    | nil => simp
    | cons j l ih =>
      obtain ⟨ih1, ih2⟩ := ih
      by_cases hj : j = i
      · subst hj
        have h1 : (!(j :: seen).contains j) = false := by simp
        have h2 : (!seen.contains j) = true := by simpa using h
        simp only [List.countP_cons, h1, h2, if_true, Bool.false_eq_true, if_false]
        exact ⟨by omega, fun _ => by omega⟩
      · have h1 : (!(i :: seen).contains j) = (!seen.contains j) := by simp [hj]
        simp only [List.countP_cons, h1]
        refine ⟨by omega, fun hm => ?_⟩
        have : i ∈ l := by
          rcases List.mem_cons.1 hm with h' | h'
          · exact absurd h'.symm hj
          · exact h'
        have := ih2 this
        omega
  exact (key _).2 (List.mem_finRange i)

def place? (vs : OrderedMap Key Json) (id : Key) : Option (Fin vs.length) :=
  vs.findFinIdx? fun e => e.1 == id

mutual

/-- The variable with an identifier; `seen` holds the places met on the way to it. -/
def follow (vs : OrderedMap Key Json) (seen : List (Fin vs.length)) (id : Json) :
    Traced (Option Resolved) := do
  let key ← id.key
  match place? vs key with
  | none => pure none
  | some i =>
    if h : i ∈ seen then do
      Traced.warn (.aliasCycle key)
      pure none
    else
      match vs[i].2 with
      | .null => pure none
      | raw => do
        let modes ← (← raw.get "valuesByMode").orEmpty.fields
        let values ← followAll vs (i :: seen) modes
        let name ← raw.getOr "name" id
        let type ← raw.getOr "resolvedType" (.str "")
        let description ← raw.get "description"
        pure (some (.variable ⟨name, type, description⟩ values))
termination_by (unseen vs.length seen, 0)
decreasing_by exact Prod.Lex.left _ _ (unseen_cons_lt h)

def followAll (vs : OrderedMap Key Json) (seen : List (Fin vs.length)) :
    List (String × Json) → Traced (List (String × Resolved))
  | [] => pure []
  | (mode, v) :: rest => do
    let value ← match alias? v with
      | none => pure (.literal v)
      | some id => do
        let target ← follow vs seen id
        pure (target.getD .unresolved)
    let values ← followAll vs seen rest
    pure ((mode, value) :: values)
termination_by modes => (unseen vs.length seen, modes.length + 1)

end

def ofJson (table collections : Json) : Except Fault Variables := do
  let table ← table.table
  let collections ← collections.table
  pure ⟨table, collections⟩

/-- The variable with an identifier, its aliases followed; none if there is no such variable. -/
def resolve (vs : Variables) (id : Json) : Traced (Option Resolved) := follow vs.table [] id

def resolveEach (vs : Variables) : List Json → Traced (List Resolved)
  | [] => pure []
  | id :: ids => do
    let v ← vs.resolve id
    let rest ← resolveEach vs ids
    pure (v.toList ++ rest)

/-- The names of modes; of modes with the same identifier the last one counts. -/
def modeNames : OrderedMap Key Json → List Json → Except Fault (OrderedMap Key Json)
  | m, [] => .ok m
  | m, mode :: rest => do
    let id ← mode.field "modeId"
    let name ← mode.getOr "name" (.str "")
    let key ← id.key
    modeNames (OrderedMap.put key name m) rest

def resolveCollection (vs : Variables) (id : Json) : Traced (Option ResolvedCollection) := do
  match OrderedMap.get? (← id.key) vs.collections with
  | none | some .null => pure none
  | some raw => do
    let members ← vs.resolveEach (← (← raw.get "variableIds").elementsOrNone)
    let name ← raw.getOr "name" id
    let modes ← modeNames [] (← (← raw.get "modes").elementsOrNone)
    pure (some ⟨name, modes, members⟩)

def resolveCollections (vs : Variables) : List Key → Traced (List ResolvedCollection)
  | [] => pure []
  | id :: ids => do
    let c ← vs.resolveCollection id.toJson
    let rest ← resolveCollections vs ids
    pure (c.toList ++ rest)

def resolveAll (vs : Variables) : Traced (List ResolvedCollection) :=
  vs.resolveCollections (vs.collections.map Prod.fst)

end Variables

end DesignComponents
