import DesignComponents.Markup.Render
import DesignComponents.Property.Schema

/-!
The source text of a component: a type for its properties, and a function that gives its markup.
-/

namespace DesignComponents

structure Component where
  name : Json
  schema : Schema
  tree : Markup

namespace Component

def quotedChars : List Char → List Char
  | [] => []
  | c :: cs =>
    if c = '\\' || c = '\'' then '\\' :: c :: quotedChars cs else c :: quotedChars cs

def quote (v : Json) : String :=
  String.ofList ('\'' :: quotedChars v.display.toList ++ ['\''])

def propertyType (d : PropertyDefinition) : String :=
  match d.type, d.options with
  | .boolean, _ => "boolean"
  | .instanceSwap, _ => "React.ReactNode"
  | .variant, some (x :: xs) => " | ".intercalate ((x :: xs).map quote)
  | _, _ => "string"

def defaultText : Json → String
  | .bool b => if b then "true" else "false"
  | v => quote v

def typeLine (p : String × PropertyDefinition) : String :=
  "  " ++ propertyName p.1 ++ ": " ++ propertyType p.2 ++ ";"

def parameter (p : String × PropertyDefinition) : String :=
  match p.2.default with
  | .null => propertyName p.1
  | v => propertyName p.1 ++ " = " ++ defaultText v

def typeLines (name : String) (s : Schema) : List String :=
  match s with
  | [] => ["export type " ++ name ++ "Props = \x7b\x7d;"]
  | s => ["export type " ++ name ++ "Props = \x7b"] ++ s.map typeLine ++ ["\x7d;"]

def pattern (s : Schema) : String :=
  match s with
  | [] => "\x7b\x7d"
  | s => "\x7b " ++ ", ".intercalate (s.map parameter) ++ " \x7d"

def signature (name : String) (s : Schema) : String :=
  "export const " ++ name ++ " = (" ++ pattern s ++ ": " ++ name ++ "Props) => \x7b"

def source (c : Component) : Except Fault String := do
  let name ← Markup.tagName c.name
  let markup ← c.tree.render 2
  pure ("\n".intercalate
    (typeLines name c.schema ++
      ["", signature name c.schema, "  return (", markup, "  );", "\x7d;", ""]))

theorem source_eq {c : Component} {name markup : String} (hname : c.name = .str name)
    (hmarkup : c.tree.render 2 = .ok markup) :
    c.source = .ok ("\n".intercalate (typeLines (componentName name) c.schema ++
      ["", signature (componentName name) c.schema, "  return (", markup, "  );", "\x7d;", ""])) := by
  rw [source, hname, hmarkup]
  rfl

end Component

end DesignComponents
