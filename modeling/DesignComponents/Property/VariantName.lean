import DesignComponents.OrderedMap
import DesignComponents.Text.Blank
import DesignComponents.Text.Split

/-!
Names of variants: `Size=Small, State=Hover` gives each property its value. Parts without an
equals sign or without a property name say nothing.
-/

namespace DesignComponents.VariantName

def parsePart (part : List Char) : Option (String × String) :=
  match splitAtFirst? '=' part with
  | none => none
  | some (k, v) =>
    if (stripChars k).isEmpty then none
    else some (String.ofList (stripChars k), String.ofList (stripChars v))

def parse (name : String) : OrderedMap String String :=
  OrderedMap.ofList ((name.toList.splitOn ',').filterMap parsePart)

@[simp] theorem parsePart_nil : parsePart [] = none := rfl

end DesignComponents.VariantName
