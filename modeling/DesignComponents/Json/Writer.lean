import DesignComponents.Json.Display

/-!
Data written as text.
-/

namespace DesignComponents.Json

structure Style where
  comma : String
  colon : String
  /-- Each element stands on a line of its own, indented by so many blanks per level. -/
  indent : Option Nat
  /-- Characters beyond the first 127 are escaped. -/
  plainChars : Bool

def Style.compact : Style := ⟨",", ":", none, false⟩

def Style.lines : Style := ⟨",", ": ", some 2, false⟩

/-- One line, with blanks after commas and colons, and escapes for what is not plain. -/
def Style.spaced : Style := ⟨", ", ": ", none, true⟩

def unitEscape (n : Nat) : List Char := '\\' :: 'u' :: hexDigits n 4

def escapedChar (plainChars : Bool) (c : Char) : List Char :=
  if c = '"' then ['\\', '"']
  else if c = '\\' then ['\\', '\\']
  else if c = '\n' then ['\\', 'n']
  else if c = '\r' then ['\\', 'r']
  else if c = '\t' then ['\\', 't']
  else if c = '\x08' then ['\\', 'b']
  else if c = '\x0c' then ['\\', 'f']
  else if c.toNat < 0x20 then unitEscape c.toNat
  else if plainChars && 0x7E < c.toNat then
    if c.toNat < 0x10000 then unitEscape c.toNat
    else
      unitEscape (0xD800 + (c.toNat - 0x10000) / 0x400) ++
        unitEscape (0xDC00 + (c.toNat - 0x10000) % 0x400)
  else [c]

def escaped (style : Style) (s : String) : String :=
  String.ofList ('"' :: s.toList.flatMap (escapedChar style.plainChars) ++ ['"'])

/-- Written elements between brackets; `depth` counts the brackets around them. -/
def bracket (style : Style) (depth : Nat) (opening closing : String) (items : List String) :
    String :=
  match style.indent, items with
  | _, [] => opening ++ closing
  | none, items => opening ++ style.comma.intercalate items ++ closing
  | some n, items =>
    let line (depth : Nat) : String := "\n" ++ "".pushn ' ' (n * depth)
    opening ++ line (depth + 1) ++ (style.comma ++ line (depth + 1)).intercalate items ++
      line depth ++ closing

mutual

def writeAt (style : Style) (depth : Nat) : Json → String
  | .null => "null"
  | .bool b => if b then "true" else "false"
  | .num n => n.dataText
  | .str s => escaped style s
  | .arr xs => bracket style depth "[" "]" (writeElements style (depth + 1) xs)
  | .obj fs => bracket style depth "\x7b" "\x7d" (writeFields style (depth + 1) fs)

def writeElements (style : Style) (depth : Nat) : List Json → List String
  | [] => []
  | x :: xs => writeAt style depth x :: writeElements style depth xs

def writeFields (style : Style) (depth : Nat) : List (String × Json) → List String
  | [] => []
  | (k, v) :: fs =>
    (escaped style k ++ style.colon ++ writeAt style depth v) :: writeFields style depth fs

end

def write (style : Style) (v : Json) : String := writeAt style 0 v

def compact (v : Json) : String := write .compact v

def lines (v : Json) : String := write .lines v

end DesignComponents.Json
