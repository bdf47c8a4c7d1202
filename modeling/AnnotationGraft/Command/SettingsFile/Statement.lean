import AnnotationGraft.Command.SettingsFile.Document
import AnnotationGraft.Command.SettingsFile.Moment
import AnnotationGraft.Command.SettingsFile.Number

/-!
# The statements of a settings file

A settings file is a sequence of statements, each with a line break at its end.  A statement is
empty, or the heading of a section in brackets, or the heading of one of several sections in double
brackets, or an entry that gives a key its value; a comment may end it.  A key is a name, or several
with dots between them.  A value is a text, `true` or `false`, a moment, a number, a list of values
in brackets, or a table of entries in braces.
-/

namespace AnnotationGraft.SettingsFile

/-- What one statement says. -/
inductive Statement where
  | blank
  | heading (key : Key)
  | listHeading (key : Key)
  | entry (key : Key) (value : Value)
  deriving DecidableEq, Repr

/-- The most names that a key may have, and the most lists and tables that may enclose a value. -/
def maxDepth : Nat := 79

/-! ## Keys -/

/-- Whether a character may stand in a name without quotes. -/
def isNameChar (c : Char) : Bool := c.isAlphanum || c == '_' || c == '-'

/-- The name at the beginning, and what follows. -/
def name (cs : List Char) : Option (String × List Char) :=
  let bare := cs.takeWhile isNameChar
  if bare.isEmpty then shortText cs else some (String.ofList bare, cs.dropWhile isNameChar)

/-- The key at the beginning, if it has at most `bound` names, and what follows.  Blanks may stand
around each name. -/
def keyUpTo : Nat → List Char → Option (Key × List Char)
  | 0, _ => none
  | bound + 1, cs => do
    let (first, rest) ← name (skipBlanks cs)
    match skipBlanks rest with
    | '.' :: rest =>
      let (others, rest) ← keyUpTo bound rest
      return (first :: others, rest)
    | rest => return ([first], rest)

/-- The key at the beginning, and what follows. -/
def key (cs : List Char) : Option (Key × List Char) := keyUpTo maxDepth cs

/-! ## Values -/

/-- Whether a character may stand in a number or a truth value. -/
def isWordChar (c : Char) : Bool := isNameChar c || c == '+' || c == '.'

/-- The value at the beginning that is made of one word. -/
def word (cs : List Char) : Option (Value × List Char) :=
  let word := cs.takeWhile isWordChar
  let rest := cs.dropWhile isWordChar
  if word = ['t', 'r', 'u', 'e'] then some (.flag true, rest)
  else if word = ['f', 'a', 'l', 's', 'e'] then some (.flag false, rest)
  else if isWhole word || isFractional word then some (.other, rest)
  else none

/-- The value at the beginning that encloses no other, and what follows. -/
def simpleValue (cs : List Char) : Option (Value × List Char) :=
  match cs.head? with
  | some '\"' | some '\'' => (text cs).map fun (s, rest) => (.text s, rest)
  | _ =>
    match afterMoment cs with
    | some rest => some (.other, rest)
    | none => word cs

/-- What follows blanks, line breaks and comments.  Inside a comment, `inRemark`, only a line break
ends it; what may not stand in a comment is left, for no value begins with it. -/
def skipBreaks (inRemark : Bool) : List Char → List Char
  | [] => []
  | c :: rest =>
    if c == '\n' || (c == '\r' && rest.head? == some '\n') then skipBreaks false rest
    else if inRemark then if isPlain c then skipBreaks true rest else c :: rest
    else if c == '#' then skipBreaks true rest
    else if isBlank c then skipBreaks false rest
    else c :: rest

/-- What follows the rest of a list, given how to read a value and a bound on how many there are.  A
comma may end the last value. -/
def afterList (value : List Char → Option (Value × List Char)) :
    Nat → List Char → Option (List Char)
  | 0, _ => none
  | bound + 1, cs =>
    match skipBreaks false cs with
    | ']' :: rest => some rest
    | cs => do
      let (_, rest) ← value cs
      match skipBreaks false rest with
      | ',' :: rest => afterList value bound rest
      | ']' :: rest => some rest
      | _ => none

/-- What follows the rest of a table after its opening brace or a comma, given how to read a value
and a bound on how many there are.  The entries so far are `entries`. -/
def afterEntries (value : List Char → Option (Value × List Char)) (entries : Document) :
    Nat → List Char → Option (List Char)
  | 0, _ => none
  | bound + 1, cs => do
    let (key, rest) ← key cs
    let (value', rest) ← value (skipBlanks (← after '=' rest))
    let entries ← entries.addEntry key value'
    match skipBlanks rest with
    | ',' :: rest => afterEntries value entries bound rest
    | '}' :: rest => some rest
    | _ => none

/-- What follows the rest of a table, given how to read a value and a bound on how many there are.
It stands on one line, and no comma ends its last entry. -/
def afterTable (value : List Char → Option (Value × List Char)) (bound : Nat) (cs : List Char) :
    Option (List Char) :=
  match skipBlanks cs with
  | '}' :: rest => some rest
  | cs => afterEntries value {} bound cs

/-- The value at the beginning, if at most `depth` lists and tables enclose one another in it, and
what follows.  No list or table in it has more than `bound` parts. -/
def value (bound : Nat) : Nat → List Char → Option (Value × List Char)
  | 0, cs => simpleValue cs
  | depth + 1, cs =>
    match cs with
    | '[' :: rest => (afterList (value bound depth) bound rest).map fun rest => (.other, rest)
    | '{' :: rest => (afterTable (value bound depth) bound rest).map fun rest => (.other, rest)
    | _ => simpleValue cs

/-! ## Statements -/

/-- What follows the end of a statement: a line break or the end of the file, before which a comment
may stand. -/
def afterEnd (cs : List Char) : Option (List Char) :=
  let rest := match skipBlanks cs with
    | '#' :: remark => remark.dropWhile isPlain
    | rest => rest
  if rest.isEmpty then some [] else afterBreak? rest

/-- The statement at the beginning, and what follows.  The text has at most `bound + 1`
characters. -/
def statement (bound : Nat) (cs : List Char) : Option (Statement × List Char) :=
  match afterEnd cs with
  | some rest => some (.blank, rest)
  | none => do
    match skipBlanks cs with
    | '[' :: '[' :: cs =>
      let (key, rest) ← key cs
      return (.listHeading key, ← afterEnd (← after ']' (← after ']' rest)))
    | '[' :: cs =>
      let (key, rest) ← key cs
      return (.heading key, ← afterEnd (← after ']' rest))
    | cs =>
      let (key, rest) ← key cs
      let (value, rest) ← value bound maxDepth (skipBlanks (← after '=' rest))
      return (.entry key value, ← afterEnd rest)

/-- Adds what a statement says. -/
def Document.add (document : Document) : Statement → Option Document
  | .blank => some document
  | .heading key => document.addHeading key
  | .listHeading key => document.addListHeading key
  | .entry key value => document.addEntry key value

/-- Adds what the statements say.  Each of them takes a character or more, so that the length of the
text is a sufficient `bound` for them, and for the parts of each value too. -/
def Document.addAll : Nat → Document → List Char → Option Document
  | _, document, [] => some document
  | 0, _, _ :: _ => none
  | bound + 1, document, cs => do
    let (statement, rest) ← statement bound cs
    addAll bound (← document.add statement) rest

end AnnotationGraft.SettingsFile
