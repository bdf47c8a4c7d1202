/-!
# The document of a settings file

A settings file says which value stands under which key.  A key is a list of names; what its names
but the last stand for are sections.  A section has a heading of its own, or is implied by the
heading of a section inside it, or is named by a key with dots, or is the latest of several that
share one heading.  `Document.addHeading`, `Document.addListHeading` and `Document.addEntry` add
what a file says in its order, and refuse what was said before in another way.
-/

namespace AnnotationGraft.SettingsFile

/-- A value as far as settings need it: no setting is a number, a date, a list or a table. -/
inductive Value where
  | text (s : String)
  | flag (b : Bool)
  | other
  deriving DecidableEq, Repr

/-- A key: its names, outermost first. -/
abbrev Key := List String

/-- How a section came to be. -/
inductive Origin where
  /-- It has a heading. -/
  | headed
  /-- A section inside it has a heading. -/
  | implied
  /-- A key with dots names it. -/
  | dotted
  /-- It is the latest of the sections that share its heading. -/
  | listed
  deriving DecidableEq, Repr

/-- What stands under a key. -/
inductive Item where
  | value (value : Value)
  | section (origin : Origin)
  deriving DecidableEq, Repr

/-- What a file has said so far: the key of the latest heading, and what stands under each key,
which is given from the outermost name on. -/
structure Document where
  current : Key := []
  items : List (Key × Item) := []

namespace Document

/-- What stands under a key. -/
def item? (document : Document) (key : Key) : Option Item := document.items.lookup key

/-- The document with something under a key. -/
def put (document : Document) (key : Key) (item : Item) : Document :=
  { document with items := (key, item) :: document.items }

/-- The document with nothing inside the section of a key. -/
def clear (document : Document) (key : Key) : Document :=
  { document with items := document.items.filter fun entry => !key.isPrefixOf entry.1 }

/-- Makes sure that there is a section under a key: one that is there and may be entered, or a new
one of the given origin. -/
def enter (origin : Origin) (isOpen : Origin → Bool) (document : Document) (key : Key) :
    Option Document :=
  match document.item? key with
  | none => some (document.put key (.section origin))
  | some (.section o) => if isOpen o then some document else none
  | some (.value _) => none

/-- The keys of the sections around what a key names, inside the section `base`. -/
def enclosing (base key : Key) : List Key :=
  (List.range (key.length - 1)).map fun i => base ++ key.take (i + 1)

/-- Begins the section of a heading.  It has no heading yet, and no key with dots has named it. -/
def addHeading (document : Document) (key : Key) : Option Document := do
  let document ← (enclosing [] key).foldlM (enter .implied fun _ => true) document
  match document.item? key with
  | none | some (.section .implied) =>
    return { document.put key (.section .headed) with current := key }
  | _ => none

/-- Begins another of the sections that share a heading.  The ones before it are complete: from now
on the key stands for the new one. -/
def addListHeading (document : Document) (key : Key) : Option Document := do
  let document ← (enclosing [] key).foldlM (enter .implied fun _ => true) document
  match document.item? key with
  | none | some (.section .listed) =>
    return { (document.clear key).put key (.section .listed) with current := key }
  | _ => none

/-- Gives a key of the current section its value.  It has none yet.  A key with dots may lead
through sections without a heading of their own, and into one that such a key has named. -/
def addEntry (document : Document) (key : Key) (value : Value) : Option Document := do
  let sections := enclosing document.current key
  let document ← sections.dropLast.foldlM (enter .dotted (· != .headed)) document
  let document ← sections.getLast?.toList.foldlM (enter .dotted (· == .dotted)) document
  match document.item? (document.current ++ key) with
  | none => return document.put (document.current ++ key) (.value value)
  | some _ => none

/-- The text under a name, or the given one if there is nothing under it. -/
def text? (document : Document) (name : String) (default : String) : Option String :=
  match document.item? [name] with
  | none => some default
  | some (.value (.text s)) => some s
  | some _ => none

/-- The truth value under a name, or the given one if there is nothing under it. -/
def flag? (document : Document) (name : String) (default : Bool) : Option Bool :=
  match document.item? [name] with
  | none => some default
  | some (.value (.flag b)) => some b
  | some _ => none

end Document

end AnnotationGraft.SettingsFile
