/-!
# The texts of a settings file

A text stands between double or single quotes.  Between double quotes a backslash begins the form of
a character that is hard to write; between single quotes every character stands for itself.  A text
between three quotes may run over several lines, and a line break right after the opening quotes is
not part of it.
-/

namespace AnnotationGraft.SettingsFile

/-! ## Characters -/

/-- Whether a character may stand between the parts of a line. -/
def isBlank (c : Char) : Bool := c == ' ' || c == '\t'

/-- Whether a character may stand in a text or a comment: every one but the controls, of which only
the tab may. -/
def isPlain (c : Char) : Bool := c == '\t' || (0x20 ≤ c.toNat && c.toNat != 0x7F)

/-- What follows the blanks at the beginning. -/
def skipBlanks (cs : List Char) : List Char := cs.dropWhile isBlank

/-- What follows the line break at the beginning: a line feed, before which a carriage return may
stand. -/
def afterBreak? : List Char → Option (List Char)
  | '\n' :: rest => some rest
  | '\r' :: '\n' :: rest => some rest
  | _ => none

/-- The value of a hexadecimal digit. -/
def hexDigitValue? (c : Char) : Option Nat :=
  if c.isDigit then some (c.toNat - '0'.toNat)
  else if 'a' ≤ c ∧ c ≤ 'f' then some (c.toNat - 'a'.toNat + 10)
  else if 'A' ≤ c ∧ c ≤ 'F' then some (c.toNat - 'A'.toNat + 10)
  else none

/-- The character whose number the given hexadecimal digits are. -/
def charOfHex? (digits : List Char) : Option Char := do
  let values ← digits.mapM hexDigitValue?
  let n := values.foldl (fun n d => 16 * n + d) 0
  if n.isValidChar then some (Char.ofNat n) else none

/-- The character that a backslash and a letter stand for. -/
def escaped? : Char → Option Char
  | 'b' => some '\x08'
  | 't' => some '\t'
  | 'n' => some '\n'
  | 'f' => some '\x0c'
  | 'r' => some '\r'
  | '\"' => some '\"'
  | '\\' => some '\\'
  | _ => none

/-! ## Texts -/

/-- How a text is written. -/
structure TextForm where
  /-- The quote at both ends. -/
  mark : Char
  /-- Whether a backslash has a meaning of its own. -/
  hasEscapes : Bool
  /-- Whether the text may run over several lines.  It then has three quotes at both ends. -/
  isLong : Bool

/-- The end of a long text, after the first three closing quotes.  Up to two more quotes may stand
there; they belong to the text, and the last three close it. -/
def TextForm.close (form : TextForm) (read rest : List Char) : String × List Char :=
  let more := (rest.take 2).takeWhile (· == form.mark)
  (String.ofList (read.reverse ++ more), rest.drop more.length)

/-- Reads a text up to its closing quotes, and gives what follows.  What was read so far is `read`,
the latest character first.  A line break in a text is a line feed, however it is written; after a
backslash at the end of a line, `skipping` passes over blanks and line breaks. -/
def TextForm.scan (form : TextForm) (skipping : Bool) (read : List Char) :
    List Char → Option (String × List Char)
  | [] => none
  | c :: rest =>
    if skipping && isBlank c then form.scan true read rest
    else if form.isLong && c == '\n' then
      form.scan skipping (if skipping then read else c :: read) rest
    else if form.isLong && c == '\r' then
      if rest.head? = some '\n' then form.scan skipping read rest else none
    else if c == form.mark then
      if form.isLong then
        match rest with
        | c₂ :: c₃ :: after =>
          if c₂ == form.mark && c₃ == form.mark then some (form.close read after)
          else form.scan false (c :: read) (c₂ :: c₃ :: after)
        | _ => none
      else some (String.ofList read.reverse, rest)
    else if form.hasEscapes && c == '\\' then
      match rest with
      | 'u' :: a :: b :: c :: d :: rest =>
        match charOfHex? [a, b, c, d] with
        | some char => form.scan false (char :: read) rest
        | none => none
      | 'U' :: a :: b :: c :: d :: e :: f :: g :: h :: rest =>
        match charOfHex? [a, b, c, d, e, f, g, h] with
        | some char => form.scan false (char :: read) rest
        | none => none
      | c :: rest =>
        match escaped? c with
        | some char => form.scan false (char :: read) rest
        | none =>
          if form.isLong && (afterBreak? (skipBlanks (c :: rest))).isSome then
            form.scan true read (c :: rest)
          else none
      | [] => none
    else if isPlain c then form.scan false (c :: read) rest
    else none

/-- The text between one quote and another at the beginning, and what follows. -/
def shortText : List Char → Option (String × List Char)
  | '\"' :: cs => TextForm.scan ⟨'\"', true, false⟩ false [] cs
  | '\'' :: cs => TextForm.scan ⟨'\'', false, false⟩ false [] cs
  | _ => none

/-- The text at the beginning, and what follows. -/
def text : List Char → Option (String × List Char)
  | '\"' :: '\"' :: '\"' :: cs =>
    TextForm.scan ⟨'\"', true, true⟩ false [] ((afterBreak? cs).getD cs)
  | '\'' :: '\'' :: '\'' :: cs =>
    TextForm.scan ⟨'\'', false, true⟩ false [] ((afterBreak? cs).getD cs)
  | cs => shortText cs

end AnnotationGraft.SettingsFile
