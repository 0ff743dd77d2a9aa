import DesignComponents.Json.Display

/-!
Why a node cannot be made into a component, told to the user.
-/

namespace DesignComponents

inductive Refusal
  | notComponentSet
  | firstVariantNotComponent
  | noInstance
  | noMainComponent (instanceName : Json)

def Refusal.message : Refusal → String
  | .notComponentSet => "Selection is not a Component Set"
  | .firstVariantNotComponent => "First variant is not a Component"
  | .noInstance => "No instance node in the Component"
  | .noMainComponent name => "Main component not found for instance " ++ name.display

end DesignComponents
