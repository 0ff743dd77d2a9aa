import DesignComponents.Text.Blank
import DesignComponents.Text.Case
import DesignComponents.Text.Split

/-!
Names of components and of their properties in generated source.
-/

namespace DesignComponents

def componentNameChars (cs : List Char) : List Char := upperFirst (compactChars cs)

/-- What precedes the mark of a generated identifier, without blanks, and a small letter first. -/
def propertyNameChars (cs : List Char) : List Char := lowerFirst (compactChars (beforeFirst '#' cs))

def componentName (name : String) : String := String.ofList (componentNameChars name.toList)

def propertyName (name : String) : String := String.ofList (propertyNameChars name.toList)

@[simp] theorem componentName_toList (name : String) :
    (componentName name).toList = componentNameChars name.toList := by simp [componentName]

@[simp] theorem propertyName_toList (name : String) :
    (propertyName name).toList = propertyNameChars name.toList := by simp [propertyName]

end DesignComponents
