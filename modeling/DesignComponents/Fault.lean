import DesignComponents.Json.Reader
import DesignComponents.Component.Refusal

/-!
Causes for which an operation gives no result: data of a kind that it cannot use, numbers out of
range, files that cannot be read or written, nodes of other documents, and refused components.
-/

namespace DesignComponents

open Json (Kind)

inductive Fault
  /-- Only values of another kind have this member. -/
  | noMember (kind : Kind) (member : String)
  | notKey (kind : Kind)
  | notIterable (kind : Kind)
  | notIndexed (kind : Kind)
  | notRounded (kind : Kind)
  | noProduct (left right : Kind)
  | noOrder (sign : String) (kind : Kind)
  | notMeasured (kind : Kind)
  | notPath (kind : Kind)
  /-- The element at this place of a list of entries is no pair. -/
  | notPair (place : Nat)
  | pairLength (place length : Nat)
  | textMeasured
  | nanChannel
  | infiniteChannel
  | numberTooLarge
  | tooManyDigits
  | repetitionTooLarge
  | repetitionTooLong
  | outOfMemory
  | unknownPropertyType (type : Json)
  | missing (key : Key)
  | unreadable (error : Json.ReadError)
  | isDirectory (path : String)
  | fileExists (path : String)
  | notDirectory (path : String)
  | noFile (path : String)
  | nameTooLong (path : String)
  | nulInPath
  | foreignNode (id : Json)
  | refused (refusal : Refusal)

instance : Inhabited Fault := ⟨.numberTooLarge⟩

namespace Fault

def isRepeatable : Kind → Bool
  | .str | .arr => true
  | _ => false

def message : Fault → String
  | noMember k m => "'" ++ k.name ++ "' object has no attribute '" ++ m ++ "'"
  | notKey k => "unhashable type: '" ++ k.name ++ "'"
  | notIterable k => "'" ++ k.name ++ "' object is not iterable"
  | notIndexed .str => "string indices must be integers, not 'str'"
  | notIndexed .arr => "list indices must be integers or slices, not str"
  | notIndexed .obj => "unhashable type: 'slice'"
  | notIndexed k => "'" ++ k.name ++ "' object is not subscriptable"
  | notRounded k => "type " ++ k.name ++ " doesn't define __round__ method"
  | noProduct l r =>
    if isRepeatable l then "can't multiply sequence by non-int of type '" ++ r.name ++ "'"
    else if isRepeatable r then "can't multiply sequence by non-int of type '" ++ l.name ++ "'"
    else "unsupported operand type(s) for *: '" ++ l.name ++ "' and '" ++ r.name ++ "'"
  | noOrder sign k =>
    "'" ++ sign ++ "' not supported between instances of '" ++ k.name ++ "' and 'int'"
  | notMeasured k => "unsupported format string passed to " ++ k.name ++ ".__format__"
  | notPath k => "expected str, bytes or os.PathLike object, not " ++ k.name
  | notPair i =>
    "cannot convert dictionary update sequence element #" ++ toString i ++ " to a sequence"
  | pairLength i n =>
    "dictionary update sequence element #" ++ toString i ++ " has length " ++ toString n ++
      "; 2 is required"
  | textMeasured => "Unknown format code 'g' for object of type 'str'"
  | nanChannel => "cannot convert float NaN to integer"
  | infiniteChannel => "cannot convert float infinity to integer"
  | numberTooLarge => "int too large to convert to float"
  | tooManyDigits =>
    "Exceeds the limit (" ++ toString Number.digitLimit ++ " digits) for integer string " ++
      "conversion; use sys.set_int_max_str_digits() to increase the limit"
  | repetitionTooLarge => "cannot fit 'int' into an index-sized integer"
  | repetitionTooLong => "repeated string is too long"
  | outOfMemory => ""
  | unknownPropertyType t => t.literal ++ " is not a valid PropertyType"
  | missing k => k.toJson.literal
  | unreadable e => e.message
  | isDirectory p => "[Errno 21] Is a directory: " ++ Json.quoted p
  | fileExists p => "[Errno 17] File exists: " ++ Json.quoted p
  | notDirectory p => "[Errno 20] Not a directory: " ++ Json.quoted p
  | noFile p => "[Errno 2] No such file or directory: " ++ Json.quoted p
  | nameTooLong p => "[Errno 36] File name too long: " ++ Json.quoted p
  | nulInPath => "embedded null byte"
  | foreignNode id => "node " ++ id.literal ++ " is not part of this document"
  | refused r => r.message

end Fault

end DesignComponents
