import DesignComponents.Fault

/-!
Parts of values, with the fault that arises where a value has no such parts.
-/

namespace DesignComponents.Json

def get (v : Json) (name : String) : Except Fault Json :=
  match v with
  | .obj fs => .ok ((fs.lookup name).getD .null)
  | v => .error (.noMember v.kind "get")

def getOr (v : Json) (name : String) (other : Json) : Except Fault Json :=
  match v with
  | .obj fs => .ok ((fs.lookup name).getD other)
  | v => .error (.noMember v.kind "get")

def field (v : Json) (name : String) : Except Fault Json :=
  match v with
  | .obj fs =>
    match fs.lookup name with
    | some x => .ok x
    | none => .error (.missing (.str name))
  | v => .error (.notIndexed v.kind)

def fields (v : Json) : Except Fault (List (String × Json)) :=
  match v with
  | .obj fs => .ok fs
  | v => .error (.noMember v.kind "items")

/-- What a value runs through: elements, the characters of a text, the names of fields. -/
def elements (v : Json) : Except Fault (List Json) :=
  match v with
  | .arr xs => .ok xs
  | .str s => .ok (s.toList.map fun c => .str (String.singleton c))
  | .obj fs => .ok (fs.map fun f => .str f.1)
  | v => .error (.notIterable v.kind)

/-- The elements of a value, none if it is absent or empty. -/
def elementsOrNone (v : Json) : Except Fault (List Json) :=
  if v.isTruthy then v.elements else .ok []

def text (v : Json) (member : String) : Except Fault String :=
  match v with
  | .str s => .ok s
  | v => .error (.noMember v.kind member)

def key (v : Json) : Except Fault Key :=
  match v with
  | .null => .ok .null
  | .bool b => .ok (.bool b)
  | .num n => .ok (.num n)
  | .str s => .ok (.str s)
  | v => .error (.notKey v.kind)

def orEmpty (v : Json) : Json := if v.isTruthy then v else .obj []

def pair (place : Nat) (v : Json) : Except Fault (Key × Json) :=
  match v.elements with
  | .error _ => .error (.notPair place)
  | .ok [k, a] => k.key.map (·, a)
  | .ok xs => .error (.pairLength place xs.length)

def pairs (place : Nat) : List Json → Except Fault (List (Key × Json))
  | [] => .ok []
  | v :: vs => do
    let p ← pair place v
    let ps ← pairs (place + 1) vs
    pure (p :: ps)

/-- The entries of an object, or of a list of pairs. -/
def table (v : Json) : Except Fault (OrderedMap Key Json) :=
  match v with
  | .obj fs => .ok (fs.map fun f => (.str f.1, f.2))
  | v => do
    let xs ← v.elements
    let ps ← pairs 0 xs
    pure (OrderedMap.ofList ps)

@[simp] theorem get_obj (fs : List (String × Json)) (name : String) :
    get (.obj fs) name = .ok ((fs.lookup name).getD .null) := rfl
@[simp] theorem getOr_obj (fs : List (String × Json)) (name : String) (other : Json) :
    getOr (.obj fs) name other = .ok ((fs.lookup name).getD other) := rfl
@[simp] theorem fields_obj (fs : List (String × Json)) : fields (.obj fs) = .ok fs := rfl
@[simp] theorem elements_arr (xs : List Json) : elements (.arr xs) = .ok xs := rfl
@[simp] theorem text_str (s member : String) : text (.str s) member = .ok s := rfl
@[simp] theorem key_str (s : String) : key (.str s) = .ok (.str s) := rfl
@[simp] theorem elementsOrNone_null : elementsOrNone .null = .ok [] := rfl

@[simp] theorem elementsOrNone_arr (xs : List Json) : elementsOrNone (.arr xs) = .ok xs := by
  cases xs <;> rfl

@[simp] theorem table_obj (fs : List (String × Json)) :
    table (.obj fs) = .ok (fs.map fun f => (.str f.1, f.2)) := rfl

end DesignComponents.Json
