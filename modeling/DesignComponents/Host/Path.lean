/-!
Texts of paths. Parts are separated by slashes, and a leading slash stands for the root. Two
leading slashes lead to the root as well, but a path keeps them.
-/

namespace DesignComponents

abbrev Location := List String

namespace Path

def partsOf (path : String) : List String := (path.toList.splitOn '/').map String.ofList

def isAbsolute (path : String) : Bool := path.toList.head? == some '/'

def nulByte : Char := '\x00'

def nameLimit : Nat := 255

def lengthLimit : Nat := 4095

def baseName (path : String) : String := (partsOf path).getLast?.getD ""

def join (directory name : String) : String :=
  if directory == "" || directory.toList.getLast? == some '/' then directory ++ name
  else directory ++ "/" ++ name

/-- How a path writes the root that it starts from. More than two slashes are as good as one. -/
def root (path : String) : String :=
  match (path.toList.takeWhile (· == '/')).length with
  | 0 => ""
  | 2 => "//"
  | _ => "/"

def ofParts (root : String) (parts : List String) : String := root ++ "/".intercalate parts

/-- A path and those it starts with, the shortest first. -/
def stages (path : String) : List String :=
  let parts := (partsOf path).filter (· != "")
  (List.range parts.length).map fun n => ofParts (root path) (parts.take (n + 1))

def steps (path : String) : List String := (partsOf path).filter fun p => p != "" && p != "."

/-- The text of a path without empty parts and parts that stay in place. -/
def tidy (path : String) : String :=
  let text := ofParts (root path) (steps path)
  if text == "" then "." else text

def parent (path : String) : String :=
  let text := ofParts (root path) (steps path).dropLast
  if text == "" then "." else text

/-- One step from a location, without a look at what is there. -/
def follow (here : Location) (step : String) : Location :=
  if step = ".." then here.dropLast else here ++ [step]

def resolve (here : Location) (path : String) : Location :=
  (steps path).foldl follow (if isAbsolute path then [] else here)

end Path

namespace Location

def text (l : Location) : String := "/" ++ "/".intercalate l

def name (l : Location) : String := l.getLast?.getD ""

def parent (l : Location) : Location := l.dropLast

@[simp] theorem parent_append (l : Location) (s : String) : parent (l ++ [s]) = l := by
  simp [parent]

end Location

end DesignComponents
