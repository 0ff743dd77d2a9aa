import DesignComponents.Json.Basic
import DesignComponents.Text.Printable

/-!
Values in messages and generated text. A text stands for itself; inside a list or an object it
is quoted, and characters that do not show themselves are escaped.
-/

namespace DesignComponents.Json

def hexDigit (n : Nat) : Char := "0123456789abcdef".toList.getD n '0'

def hexDigits (n : Nat) : Nat → List Char
  | 0 => []
  | width + 1 => hexDigits (n / 16) width ++ [hexDigit (n % 16)]

def quotedChar (quote c : Char) : List Char :=
  if c = quote || c = '\\' then ['\\', c]
  else if c = '\n' then ['\\', 'n']
  else if c = '\r' then ['\\', 'r']
  else if c = '\t' then ['\\', 't']
  else if isPrintable c then [c]
  else if c.toNat < 0x100 then '\\' :: 'x' :: hexDigits c.toNat 2
  else if c.toNat < 0x10000 then '\\' :: 'u' :: hexDigits c.toNat 4
  else '\\' :: 'U' :: hexDigits c.toNat 8

/-- Single quotes, or double ones around a text that has single quotes and no double ones. -/
def quoteFor (cs : List Char) : Char :=
  if cs.contains '\'' && !cs.contains '"' then '"' else '\''

def quoted (s : String) : String :=
  let q := quoteFor s.toList
  String.ofList (q :: s.toList.flatMap (quotedChar q) ++ [q])

mutual

/-- The text of a value inside another one. -/
def literal : Json → String
  | .null => "None"
  | .bool b => if b then "True" else "False"
  | .num n => n.plainText
  | .str s => quoted s
  | .arr xs => "[" ++ ", ".intercalate (literalElements xs) ++ "]"
  | .obj fs => "\x7b" ++ ", ".intercalate (literalFields fs) ++ "\x7d"

def literalElements : List Json → List String
  | [] => []
  | x :: xs => literal x :: literalElements xs

def literalFields : List (String × Json) → List String
  | [] => []
  | (k, v) :: fs => (quoted k ++ ": " ++ literal v) :: literalFields fs

end

def display : Json → String
  | .str s => s
  | v => literal v

@[simp] theorem display_str (s : String) : display (.str s) = s := rfl

end DesignComponents.Json
