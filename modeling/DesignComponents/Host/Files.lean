import DesignComponents.Fault
import DesignComponents.Host.Path

/-!
Files and directories by location.
-/

namespace DesignComponents

inductive Content
  | directory
  | file (text : String)
  deriving DecidableEq

abbrev Files := OrderedMap Location Content

namespace Files

def at? (files : Files) (l : Location) : Option Content :=
  if l.isEmpty then some .directory else OrderedMap.get? l files

/-- Every part of a path but the last has to be a directory. -/
def walk (files : Files) (path : String) : Location → List String → Except Fault Location
  | here, [] => .ok here
  | here, step :: rest =>
    match at? files here with
    | none => .error (.noFile path)
    | some (.file _) => .error (.notDirectory path)
    | some .directory =>
      if step = "" ∨ step = "." then walk files path here rest
      else if Path.nameLimit < step.utf8ByteSize then .error (.nameTooLong path)
      else walk files path (Path.follow here step) rest

def checkPath (path : String) : Except Fault Unit :=
  if path.toList.contains Path.nulByte then .error .nulInPath
  else if path = "" then .error (.noFile path)
  else if Path.lengthLimit < path.utf8ByteSize then .error (.nameTooLong path)
  else .ok ()

def locate (files : Files) (here : Location) (path : String) : Except Fault Location := do
  checkPath path
  walk files path (if Path.isAbsolute path then [] else here) (Path.partsOf path)

def content? (files : Files) (here : Location) (path : String) : Option Content :=
  match locate files here path with
  | .ok l => at? files l
  | .error _ => none

def isThere (files : Files) (here : Location) (path : String) : Bool :=
  (content? files here path).isSome

/-- The same, but a path with a name that is too long is refused. -/
def isThereStrict (files : Files) (here : Location) (path : String) : Except Fault Bool :=
  match locate files here path with
  | .error (.nameTooLong path) => .error (.nameTooLong path)
  | _ => .ok (isThere files here path)

def unifyLineEnds : List Char → List Char
  | [] => []
  | '\r' :: '\n' :: cs => '\n' :: unifyLineEnds cs
  | '\r' :: cs => '\n' :: unifyLineEnds cs
  | c :: cs => c :: unifyLineEnds cs

def read (files : Files) (here : Location) (path : String) : Except Fault String := do
  let l ← locate files here path
  match at? files l with
  | none => throw (.noFile path)
  | some .directory => throw (.isDirectory path)
  | some (.file text) => pure (String.ofList (unifyLineEnds text.toList))

def write (files : Files) (here : Location) (path text : String) : Except Fault Files := do
  let l ← locate files here path
  match at? files l with
  | some .directory => throw (.isDirectory path)
  | _ => pure (OrderedMap.put l (.file text) files)

def makeDirectory (files : Files) (here : Location) (path : String) : Except Fault Files := do
  let l ← locate files here path
  match at? files l with
  | some _ => throw (.fileExists path)
  | none => pure (OrderedMap.put l .directory files)

/-- A directory that is there already is as good as a new one. -/
def provideDirectory (files : Files) (here : Location) (path : String) : Except Fault Files :=
  match content? files here path with
  | some .directory => .ok files
  | _ => makeDirectory files here path

/-- Make what is not there of the stages of a path, from the shortest on. -/
def makeStages (here : Location) : Files → List String → Except Fault Files
  | files, [] => .ok files
  | files, [path] => provideDirectory files here path
  | files, path :: longer =>
    if isThere files here path then makeStages here files longer
    else do
      let files ← makeDirectory files here path
      makeStages here files longer

def makeDirectories (files : Files) (here : Location) (path : String) : Except Fault Files :=
  makeStages here files (Path.stages path)

/-- Make the first of some stages, and the shorter ones only if it cannot be made without. -/
def provideStages (here : Location) (files : Files) : List String → Except Fault Files
  | [] => .ok files
  | path :: shorter =>
    match provideDirectory files here path with
    | .error (.noFile _) => do
      let files ← provideStages here files shorter
      provideDirectory files here path
    | result => result

def provideDirectories (files : Files) (here : Location) (path : String) : Except Fault Files :=
  provideStages here files (Path.stages path).reverse

/-- A file with all directories above it, whatever was there. -/
def place (files : Files) (l : Location) (text : String) : Files :=
  let above := (List.range l.length).map l.take
  let files := above.foldl (fun fs d => if (at? fs d).isSome then fs else fs.put d .directory) files
  OrderedMap.put l (.file text) files

def remove (files : Files) (l : Location) : Files := files.filter fun e => e.1 != l

def texts : Files → List (Location × String)
  | [] => []
  | (l, .file text) :: rest => (l, text) :: texts rest
  | (_, .directory) :: rest => texts rest

/-- Files that are there with another text than before, or were not there before. -/
def changedSince (before after : Files) : List (Location × String) :=
  (texts after).filter fun f => at? before f.1 != some (.file f.2)

@[simp] theorem at?_root (files : Files) : at? files [] = some .directory := rfl

end Files

end DesignComponents
