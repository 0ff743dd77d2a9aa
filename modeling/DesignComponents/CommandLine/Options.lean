import DesignComponents.Text.Digit
import DesignComponents.Text.Split

/-!
Options on a command line. Long options may be cut short as long as they stay unambiguous, a
value may follow an equals sign or, for short options, stand right behind the letter, and short
options without values may be run together, also behind an equals sign.
-/

namespace DesignComponents.CommandLine

inductive Setting
  | config | documentFile | variablesFile | fileKey | nodeId | save | output
  deriving DecidableEq, Repr

inductive Effect
  | help
  | version
  | takes (s : Setting)
  | switches (s : Setting)
  deriving DecidableEq, Repr

structure OptionSpec where
  names : List String
  effect : Effect
  deriving Repr

def OptionSpec.takesValue (o : OptionSpec) : Bool :=
  match o.effect with
  | .takes _ => true
  | _ => false

/-- Why a command line leads to no run: help or the version is asked for, or it makes no sense. -/
inductive Stop
  | help
  | version
  | invalid
  deriving DecidableEq, Repr

/-- What an argument holds besides the name of its option: a value that is assigned, or what
stands behind a letter, which is a value or a run of letters. -/
inductive Held
  | nothing
  | assigned (value : String)
  | attached (first : Char) (rest : List Char)
  deriving DecidableEq, Repr

inductive Token
  | word (text : String)
  | dashes
  | known (option : OptionSpec) (held : Held)
  | unknown
  deriving Repr

def isLong (name : List Char) : Bool := ['-', '-'].isPrefixOf name

def find? (options : List OptionSpec) (name : String) : Option OptionSpec :=
  options.find? fun o => o.names.contains name

def held (name value : List Char) : Held :=
  match value with
  | c :: cs => if isLong name then .assigned (String.ofList value) else .attached c cs
  | [] => .assigned ""

def assigned? (options : List OptionSpec) (text : List Char) : Option (OptionSpec × Held) :=
  match splitAtFirst? '=' text with
  | some (name, value) => (find? options (String.ofList name)).map fun o => (o, held name value)
  | none => none

def candidates (options : List OptionSpec) (text : List Char) : List (OptionSpec × Held) :=
  let names := options.flatMap fun o => o.names.map fun n => (o, n)
  if isLong text then
    let (name, value) := match splitAtFirst? '=' text with
      | some (name, value) => (name, held name value)
      | none => (text, .nothing)
    (names.filter fun n => name.isPrefixOf n.2.toList).map fun n => (n.1, value)
  else
    let short := text.take 2
    names.filterMap fun n =>
      if n.2 = String.ofList short then some (n.1, held short (text.drop 2))
      else if text.isPrefixOf n.2.toList then some (n.1, .nothing)
      else none

def digitsOnly (cs : List Char) : Bool := !cs.isEmpty && cs.all isDecimalDigit

/-- A hyphen and a number, with or without a point; a line end may follow. -/
def isNegativeNumber (text : List Char) : Bool :=
  match text with
  | '-' :: cs =>
    let cs := if cs.getLast? = some '\n' then cs.dropLast else cs
    digitsOnly cs ||
      (match cs.dropWhile isDecimalDigit with
       | '.' :: fraction => digitsOnly fraction
       | _ => false)
  | _ => false

def classify (options : List OptionSpec) (arg : String) : Except Stop Token :=
  match arg.toList with
  | '-' :: rest =>
    let text := '-' :: rest
    match find? options arg with
    | some o => .ok (.known o .nothing)
    | none =>
      if rest.isEmpty then .ok (.word arg)
      else
        match assigned? options text with
        | some (o, held) => .ok (.known o held)
        | none =>
          match candidates options text with
          | [(o, held)] => .ok (.known o held)
          | _ :: _ :: _ => .error .invalid
          | [] =>
            if isNegativeNumber text || text.contains ' ' then .ok (.word arg)
            else .ok .unknown
  | _ => .ok (.word arg)

def tokens (options : List OptionSpec) : List String → Except Stop (List (Token × String))
  | [] => .ok []
  | arg :: args =>
    if arg = "--" then .ok ((.dashes, arg) :: args.map fun a => (.word a, a))
    else do
      let t ← classify options arg
      let ts ← tokens options args
      pure ((t, arg) :: ts)

/-- What one argument amounts to: options with their values, and whether the last one still needs
a value. -/
structure Expansion where
  options : List (OptionSpec × Option String)
  isOpen : Bool

def letters (options : List OptionSpec) (o : OptionSpec) : List Char → Except Stop Expansion
  | [] => .ok ⟨[(o, none)], o.takesValue⟩
  | c :: cs =>
    if o.takesValue then .ok ⟨[(o, some (String.ofList (c :: cs)))], false⟩
    else
      match find? options (String.ofList ['-', c]) with
      | none => .error .invalid
      | some next =>
        (letters options next cs).map fun r => { r with options := (o, none) :: r.options }

def expand (options : List OptionSpec) (o : OptionSpec) : Held → Except Stop Expansion
  | .nothing => .ok ⟨[(o, none)], o.takesValue⟩
  | .assigned v => if o.takesValue then .ok ⟨[(o, some v)], false⟩ else .error .invalid
  | .attached c cs => letters options o (c :: cs)

abbrev Settings := List (Setting × Option String)

/-- Two hyphens are a mark and no value, wherever they stand. -/
def valueOf (text : String) : Option String := if text = "--" then none else some text

/-- Carry out options one by one; `last` is the value of the last one if it still needs one. -/
def apply (last : Option String) : List (OptionSpec × Option String) → Except Stop Settings
  | [] => .ok []
  | (o, value) :: rest =>
    match o.effect with
    | .help => .error .help
    | .version => .error .version
    | .switches s => (apply last rest).map ((s, none) :: ·)
    | .takes s => (apply last rest).map ((s, (value.or last).bind valueOf) :: ·)

/-- What a parser makes of its arguments: settings, whether some argument had no place, and the
texts from the first word on, if the parser looks for a command. -/
structure Scan where
  settings : Settings
  surplus : Bool
  command : Option (List String)

def scan (options : List OptionSpec) (wantsCommand : Bool) :
    List (Token × String) → Except Stop Scan
  | [] => .ok ⟨[], false, none⟩
  | (.word w, _) :: rest =>
    if wantsCommand then .ok ⟨[], false, some (w :: rest.map Prod.snd)⟩
    else (scan options wantsCommand rest).map fun r => { r with surplus := true }
  | (.dashes, _) :: rest =>
    if wantsCommand && !rest.isEmpty then .error .invalid
    else (scan options wantsCommand rest).map fun r => { r with surplus := true }
  | (.unknown, _) :: rest =>
    (scan options wantsCommand rest).map fun r => { r with surplus := true }
  | (.known o held, _) :: rest => do
    let e ← expand options o held
    if e.isOpen then
      match rest with
      | (.word w, _) :: rest => do
        let made ← apply (some w) e.options
        let r ← scan options wantsCommand rest
        pure { r with settings := made ++ r.settings }
      | _ => throw .invalid
    else
      let made ← apply none e.options
      let r ← scan options wantsCommand rest
      pure { r with settings := made ++ r.settings }

end DesignComponents.CommandLine
