import DesignComponents.Number.Basic

/-!
Data as files and answers hold it. Objects keep the order of their fields.
-/

namespace DesignComponents

inductive Json
  | null
  | bool (b : Bool)
  | num (n : Number)
  | str (s : String)
  | arr (elements : List Json)
  | obj (fields : List (String × Json))
  deriving Repr, Inhabited

namespace Json

inductive Kind
  | null | bool | int | double | str | arr | obj
  deriving DecidableEq, Repr

def Kind.name : Kind → String
  | .null => "NoneType"
  | .bool => "bool"
  | .int => "int"
  | .double => "float"
  | .str => "str"
  | .arr => "list"
  | .obj => "dict"

def kind : Json → Kind
  | .null => .null
  | .bool _ => .bool
  | .num (.int _) => .int
  | .num (.double _) => .double
  | .str _ => .str
  | .arr _ => .arr
  | .obj _ => .obj

/-- Nothing, no, zero and what is empty count as absent. -/
def isTruthy : Json → Bool
  | .null => false
  | .bool b => b
  | .num n => !n.isZero
  | .str s => s != ""
  | .arr xs => !xs.isEmpty
  | .obj fs => !fs.isEmpty

/-- The number that a value counts as; yes and no count as one and zero. -/
def number? : Json → Option Number
  | .bool b => some (.int (if b then 1 else 0))
  | .num n => some n
  | _ => none

def lookup? (v : Json) (name : String) : Option Json :=
  match v with
  | .obj fs => fs.lookup name
  | _ => none

def isString : Json → Bool
  | .str _ => true
  | _ => false

def isText (v : Json) (s : String) : Bool :=
  match v with
  | .str t => t == s
  | _ => false

@[simp] theorem lookup?_obj (fs : List (String × Json)) (name : String) :
    (Json.obj fs).lookup? name = fs.lookup name := rfl

@[simp] theorem isTruthy_null : Json.null.isTruthy = false := rfl
@[simp] theorem isTruthy_obj_nil : (Json.obj []).isTruthy = false := rfl
@[simp] theorem isTruthy_arr_nil : (Json.arr []).isTruthy = false := rfl
@[simp] theorem isTruthy_obj_cons (f : String × Json) (fs : List (String × Json)) :
    (Json.obj (f :: fs)).isTruthy = true := rfl
@[simp] theorem isTruthy_arr_cons (x : Json) (xs : List Json) :
    (Json.arr (x :: xs)).isTruthy = true := rfl

@[simp] theorem isText_str (s t : String) : (Json.str s).isText t = (s == t) := rfl

end Json

inductive Key
  | null
  | bool (b : Bool)
  | num (n : Number)
  | str (s : String)
  deriving DecidableEq, Repr, Inhabited

namespace Key

def number? : Key → Option Number
  | .bool b => some (.int (if b then 1 else 0))
  | .num n => some n
  | _ => none

/-- Keys are the same if they have the same text or the same number. -/
def same (a b : Key) : Bool :=
  match a, b with
  | .null, .null => true
  | .str s, .str t => s == t
  | a, b =>
    match a.number?, b.number? with
    | some x, some y => x.same y
    | _, _ => false

instance : BEq Key := ⟨same⟩

def fieldName : Key → String
  | .null => "null"
  | .bool b => if b then "true" else "false"
  | .num n => n.dataText
  | .str s => s

def toJson : Key → Json
  | .null => .null
  | .bool b => .bool b
  | .num n => .num n
  | .str s => .str s

@[simp] theorem beq_str (s t : String) : (Key.str s == Key.str t) = (s == t) := rfl

theorem beq_str_iff {k : Key} {s : String} : (k == .str s) = true ↔ k = .str s := by
  cases k <;> simp [BEq.beq, same, number?]

@[simp] theorem beq_self (k : Key) : (k == k) = true := by
  cases k <;> simp [BEq.beq, same, number?]

@[simp] theorem fieldName_str (s : String) : (Key.str s).fieldName = s := rfl

end Key

end DesignComponents
