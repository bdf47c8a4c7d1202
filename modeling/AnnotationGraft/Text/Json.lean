/-!
# JSON documents

A document is a tree whose objects keep their fields in the order given.  `Json.pretty` writes one
value per line, indented by two spaces for each level, with `[]` and `\x7b\x7d` for empty ones.
Only the quotation mark, the backslash and the ASCII controls are escaped in strings.
-/

namespace AnnotationGraft

/-- A JSON document; its numbers are counts. -/
inductive Json where
  | null
  | bool (value : Bool)
  | number (value : Nat)
  | string (value : String)
  | array (items : List Json)
  | object (fields : List (String × Json))
  deriving Inhabited

namespace Json

/-- One character of a JSON string. -/
def escape (c : Char) : List Char :=
  if c = '\"' then ['\\', '\"']
  else if c = '\\' then ['\\', '\\']
  else if c = '\n' then ['\\', 'n']
  else if c = '\r' then ['\\', 'r']
  else if c = '\t' then ['\\', 't']
  else if c.toNat = 0x08 then ['\\', 'b']
  else if c.toNat = 0x0C then ['\\', 'f']
  else if c.toNat < 0x10 then ['\\', 'u', '0', '0', '0'] ++ Nat.toDigits 16 c.toNat
  else if c.toNat < 0x20 then ['\\', 'u', '0', '0'] ++ Nat.toDigits 16 c.toNat
  else [c]

/-- A JSON string with its quotation marks. -/
def quoted (s : String) : String :=
  String.ofList ('\"' :: s.toList.flatMap escape ++ ['\"'])

/-- The break before a value that stands `level` levels deep. -/
def lineBreak (level : Nat) : String := "\n" ++ "".pushn ' ' (2 * level)

mutual

/-- The text of a document that stands `level` levels deep. -/
def prettyAt (level : Nat) : Json → String
  | null => "null"
  | bool true => "true"
  | bool false => "false"
  | number n => toString n
  | string s => quoted s
  | array [] => "[]"
  | array (item :: items) =>
    "[" ++ lineBreak (level + 1) ++ prettyAt (level + 1) item
      ++ prettyItems (level + 1) items ++ lineBreak level ++ "]"
  | object [] => "\x7b\x7d"
  | object ((name, value) :: fields) =>
    "\x7b" ++ lineBreak (level + 1) ++ quoted name ++ ": " ++ prettyAt (level + 1) value
      ++ prettyFields (level + 1) fields ++ lineBreak level ++ "\x7d"

/-- The items of an array after the first. -/
def prettyItems (level : Nat) : List Json → String
  | [] => ""
  | item :: items => "," ++ lineBreak level ++ prettyAt level item ++ prettyItems level items

/-- The fields of an object after the first. -/
def prettyFields (level : Nat) : List (String × Json) → String
  | [] => ""
  | (name, value) :: fields =>
    "," ++ lineBreak level ++ quoted name ++ ": " ++ prettyAt level value
      ++ prettyFields level fields

end

/-- The text of a document, without a line break at its end. -/
def pretty (document : Json) : String := prettyAt 0 document

/-- An optional text, or null. -/
def ofOption : Option String → Json
  | none => null
  | some s => string s

end Json

end AnnotationGraft
