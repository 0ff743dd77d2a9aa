import DesignComponents.Json.Basic
import DesignComponents.OrderedMap

/-!
Data read from text. A field that comes again keeps its place and takes the new value. Numbers
without point and exponent are whole; the names of what is not finite are numbers too.
-/

namespace DesignComponents.Json

inductive Problem
  | noValue
  | noName
  | noColon
  | noComma
  | openString
  | controlCharacter
  | badEscape
  | badUnitEscape
  | moreData
  | byteOrderMark
  | tooManyDigits (count : Nat)
  deriving DecidableEq, Repr

def Problem.message : Problem → String
  | .noValue => "Expecting value"
  | .noName => "Expecting property name enclosed in double quotes"
  | .noColon => "Expecting ':' delimiter"
  | .noComma => "Expecting ',' delimiter"
  | .openString => "Unterminated string starting at"
  | .controlCharacter => "Invalid control character at"
  | .badEscape => "Invalid \\escape"
  | .badUnitEscape => "Invalid \\uXXXX escape"
  | .moreData => "Extra data"
  | .byteOrderMark => "Unexpected UTF-8 BOM (decode using utf-8-sig)"
  | .tooManyDigits n =>
    "Exceeds the limit (" ++ toString Number.digitLimit ++
      " digits) for integer string conversion: value has " ++ toString n ++
      " digits; use sys.set_int_max_str_digits() to increase the limit"

structure ReadError where
  problem : Problem
  offset : Nat
  line : Nat
  column : Nat
  deriving DecidableEq, Repr

/-- Whether the text is no data at all; else a number in it is too long. -/
def ReadError.isMalformed (e : ReadError) : Bool :=
  match e.problem with
  | .tooManyDigits _ => false
  | _ => true

def ReadError.message (e : ReadError) : String :=
  if e.isMalformed then
    e.problem.message ++ ": line " ++ toString e.line ++ " column " ++ toString e.column ++
      " (char " ++ toString e.offset ++ ")"
  else e.problem.message

structure Stop where
  problem : Problem
  rest : List Char

/-- Lines and columns count from one. -/
def Stop.locate (text : List Char) (s : Stop) : ReadError :=
  let before := text.take (text.length - s.rest.length)
  { problem := s.problem
    offset := before.length
    line := before.count '\n' + 1
    column := (before.reverse.takeWhile (· != '\n')).length + 1 }

abbrev Reader (α : Type) := List Char → Except Stop (α × List Char)

def isSpace (c : Char) : Bool := c == ' ' || c == '\t' || c == '\n' || c == '\r'

def skipSpaces (cs : List Char) : List Char := cs.dropWhile isSpace

def hexValue? (c : Char) : Option Nat :=
  if '0' ≤ c ∧ c ≤ '9' then some (c.toNat - '0'.toNat)
  else if 'a' ≤ c ∧ c ≤ 'f' then some (c.toNat - 'a'.toNat + 10)
  else if 'A' ≤ c ∧ c ≤ 'F' then some (c.toNat - 'A'.toNat + 10)
  else none

def hexUnit? : List Char → Option (Nat × List Char)
  | a :: b :: c :: d :: e :: rest => do
    let a ← hexValue? a
    let b ← hexValue? b
    let c ← hexValue? c
    let d ← hexValue? d
    pure (((a * 16 + b) * 16 + c) * 16 + d, e :: rest)
  | _ => none

def isHighUnit (n : Nat) : Bool := 0xD800 ≤ n && n < 0xDC00

def isLowUnit (n : Nat) : Bool := 0xDC00 ≤ n && n < 0xE000

/-- The character behind `\u`, which two units may make up together. -/
def readUnit (cs : List Char) : Except Stop (Char × List Char) :=
  match hexUnit? cs with
  | none => .error ⟨.badUnitEscape, 'u' :: cs⟩
  | some (hi, rest) =>
    match rest with
    | '\\' :: 'u' :: more =>
      if isHighUnit hi then
        match hexUnit? more with
        | none => .error ⟨.badUnitEscape, 'u' :: more⟩
        | some (lo, rest') =>
          if isLowUnit lo then
            .ok (Char.ofNat (0x10000 + (hi - 0xD800) * 0x400 + (lo - 0xDC00)), rest')
          else .ok (Char.ofNat hi, rest)
      else .ok (Char.ofNat hi, rest)
    | _ => .ok (Char.ofNat hi, rest)

def escapeValue? : Char → Option Char
  | '"' => some '"'
  | '\\' => some '\\'
  | '/' => some '/'
  | 'b' => some '\x08'
  | 'f' => some '\x0c'
  | 'n' => some '\n'
  | 'r' => some '\r'
  | 't' => some '\t'
  | _ => none

/-- The characters up to the closing quote; `start` is the text from the opening one on. -/
def readString (start : List Char) : Nat → List Char → List Char → Except Stop (String × List Char)
  | 0, _, _ => .error ⟨.openString, start⟩
  | fuel + 1, done, cs =>
    match cs with
    | [] => .error ⟨.openString, start⟩
    | '"' :: rest => .ok (String.ofList done.reverse, rest)
    | ['\\'] => .error ⟨.openString, start⟩
    | '\\' :: 'u' :: rest =>
      match readUnit rest with
      | .ok (c, rest) => readString start fuel (c :: done) rest
      | .error e => .error e
    | '\\' :: c :: rest =>
      match escapeValue? c with
      | some d => readString start fuel (d :: done) rest
      | none => .error ⟨.badEscape, cs⟩
    | c :: rest =>
      if c.toNat < 0x20 then .error ⟨.controlCharacter, cs⟩
      else readString start fuel (c :: done) rest

def digitsValue (ds : List Char) : Nat :=
  ds.foldl (fun n d => n * 10 + (d.toNat - '0'.toNat)) 0

/-- The digits behind a point, if there is one with digits. -/
def readFraction : List Char → List Char × List Char
  | '.' :: rest =>
    match rest.takeWhile Char.isDigit with
    | [] => ([], '.' :: rest)
    | ds => (ds, rest.dropWhile Char.isDigit)
  | cs => ([], cs)

def readExponent (cs : List Char) : Option Int × List Char :=
  match cs with
  | c :: rest =>
    if c = 'e' || c = 'E' then
      let (negative, rest) : Bool × List Char :=
        match rest with
        | '-' :: r => (true, r)
        | '+' :: r => (false, r)
        | r => (false, r)
      match rest.takeWhile Char.isDigit with
      | [] => (none, cs)
      | ds =>
        let n : Int := digitsValue ds
        (some (if negative then -n else n), rest.dropWhile Char.isDigit)
    else (none, cs)
  | [] => (none, [])

/-- The whole part has no zero in front of other digits. -/
def readWhole : List Char → Option (List Char × List Char)
  | '0' :: rest => some (['0'], rest)
  | cs =>
    match cs.takeWhile Char.isDigit with
    | [] => none
    | ds => some (ds, cs.dropWhile Char.isDigit)

def readNumber (cs : List Char) : Except Stop (Json × List Char) :=
  let (negative, body) : Bool × List Char :=
    match cs with
    | '-' :: r => (true, r)
    | r => (false, r)
  match readWhole body with
  | none => .error ⟨.noValue, cs⟩
  | some (whole, rest) =>
    let (fraction, rest) := readFraction rest
    let (exponent, rest) := readExponent rest
    if fraction.isEmpty && exponent.isNone then
      if Number.digitLimit < whole.length then .error ⟨.tooManyDigits whole.length, cs⟩
      else
        let n : Int := digitsValue whole
        .ok (.num (.int (if negative then -n else n)), rest)
    else
      let e : Int := exponent.getD 0 - fraction.length
      .ok (.num (.double (.ofDecimal negative (digitsValue (whole ++ fraction)) e)), rest)

def words : List (String × Json) :=
  [("null", .null), ("true", .bool true), ("false", .bool false),
   ("NaN", .num (.double .nan)), ("Infinity", .num (.double (.infinite false))),
   ("-Infinity", .num (.double (.infinite true)))]

def readWord? (cs : List Char) : Option (Json × List Char) :=
  words.findSome? fun (w, v) =>
    if w.toList.isPrefixOf cs then some (v, cs.drop w.length) else none

mutual

/-- One value; the fuel bounds how many calls may follow one another. -/
def readValue : Nat → Reader Json
  | 0, cs => .error ⟨.noValue, cs⟩
  | fuel + 1, cs =>
    match cs with
    | '"' :: rest =>
      match readString cs (rest.length + 1) [] rest with
      | .ok (s, rest) => .ok (.str s, rest)
      | .error e => .error e
    | '[' :: rest =>
      match skipSpaces rest with
      | ']' :: rest => .ok (.arr [], rest)
      | rest =>
        match readElements fuel [] rest with
        | .ok (xs, rest) => .ok (.arr xs, rest)
        | .error e => .error e
    | '\x7b' :: rest =>
      match skipSpaces rest with
      | '\x7d' :: rest => .ok (.obj [], rest)
      | rest =>
        match readFields fuel [] rest with
        | .ok (fs, rest) => .ok (.obj fs, rest)
        | .error e => .error e
    | _ =>
      match readWord? cs with
      | some r => .ok r
      | none => readNumber cs

def readElements : Nat → List Json → Reader (List Json)
  | 0, _, cs => .error ⟨.noValue, cs⟩
  | fuel + 1, done, cs =>
    match readValue fuel cs with
    | .error e => .error e
    | .ok (v, rest) =>
      match skipSpaces rest with
      | ']' :: rest => .ok ((v :: done).reverse, rest)
      | ',' :: rest => readElements fuel (v :: done) (skipSpaces rest)
      | rest => .error ⟨.noComma, rest⟩

def readFields : Nat → List (String × Json) → Reader (List (String × Json))
  | 0, _, cs => .error ⟨.noName, cs⟩
  | fuel + 1, done, cs =>
    match cs with
    | '"' :: rest =>
      match readString cs (rest.length + 1) [] rest with
      | .error e => .error e
      | .ok (name, rest) =>
        match skipSpaces rest with
        | ':' :: rest =>
          match readValue fuel (skipSpaces rest) with
          | .error e => .error e
          | .ok (v, rest) =>
            let fields := OrderedMap.put name v done
            match skipSpaces rest with
            | '\x7d' :: rest => .ok (fields, rest)
            | ',' :: rest => readFields fuel fields (skipSpaces rest)
            | rest => .error ⟨.noComma, rest⟩
        | rest => .error ⟨.noColon, rest⟩
    | _ => .error ⟨.noName, cs⟩

end

/-- Every call takes a character or is the first for the value it reads. -/
def readAll (cs : List Char) : Except Stop Json :=
  match cs with
  | '\ufeff' :: _ => .error ⟨.byteOrderMark, cs⟩
  | _ =>
    match readValue (2 * cs.length + 2) (skipSpaces cs) with
    | .error e => .error e
    | .ok (v, rest) =>
      match skipSpaces rest with
      | [] => .ok v
      | rest => .error ⟨.moreData, rest⟩

def read (text : String) : Except ReadError Json :=
  match readAll text.toList with
  | .ok v => .ok v
  | .error e => .error (e.locate text.toList)

end DesignComponents.Json
