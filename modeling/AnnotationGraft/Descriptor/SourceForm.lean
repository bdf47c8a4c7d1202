import AnnotationGraft.Descriptor.Recognition

/-!
# Types as source code writes them

`Descriptor.sourceName` turns a descriptor into the name of its type in source code, and
`Descriptor.splitMethod` cuts a method descriptor into the descriptors of its parameters and of its
result.  Both also give an answer on texts that are no descriptors, since reports show what a file
holds whether or not it was checked.
-/

namespace AnnotationGraft.Descriptor

/-- A name with dots in place of slashes. -/
def dotted (name : List Char) : List Char := name.map fun c => if c = '/' then '.' else c

/-- The source name of a type that is not an array. -/
def elementSourceName (element : List Char) : List Char :=
  match element with
  | ['V'] => "void".toList
  | [c] => match BaseType.ofLetter? c with
    | some type => type.keyword.toList
    | none => dotted [c]
  | _ => dotted ((objectNameText? element).getD element)

/-- The source name of the type that a text describes. -/
def sourceNameText (d : List Char) : List Char :=
  elementSourceName (d.dropWhile (· == '['))
    ++ (d.takeWhile (· == '[')).flatMap fun _ => ['[', ']']

/-- The source name of the type that a text describes. -/
def sourceName (d : String) : String := String.ofList (sourceNameText d.toList)

/-- Cuts the parameters of a method descriptor apart.  Brackets with no type after them are
dropped, and an object type without its semicolon reaches to the end. -/
def splitParameters (cs : List Char) : List (List Char) :=
  match _hafter : cs.dropWhile (· == '[') with
  | [] => []
  | c :: rest =>
    let dimensions := cs.takeWhile (· == '[')
    if c = 'L' then
      match _hend : rest.dropWhile (· != ';') with
      | [] => [dimensions ++ c :: rest]
      | mark :: rest' =>
        (dimensions ++ c :: rest.takeWhile (· != ';') ++ [mark]) :: splitParameters rest'
    else (dimensions ++ [c]) :: splitParameters rest
  termination_by cs.length
  decreasing_by
    · have h1 := (List.dropWhile_suffix (l := cs) (· == '[')).length_le
      have h2 := (List.dropWhile_suffix (l := rest) (· != ';')).length_le
      rw [_hafter] at h1
      rw [_hend] at h2
      simp only [List.length_cons] at h1 h2
      omega
    · have h1 := (List.dropWhile_suffix (l := cs) (· == '[')).length_le
      rw [_hafter] at h1
      simp only [List.length_cons] at h1
      omega

/-- The parameters and the result of a method descriptor: what stands before the first closing
parenthesis, less its first character, and what follows it.  A text without a closing parenthesis
is all result. -/
def splitMethod (d : List Char) : List (List Char) × List Char :=
  match d.dropWhile (· != ')') with
  | [] => ([], d)
  | _ :: result => (splitParameters ((d.takeWhile (· != ')')).drop 1), result)

/-- A field declaration in source order: type, then name. -/
def fieldSignature (name descriptor : String) : String :=
  sourceName descriptor ++ " " ++ name

/-- A method declaration in source order: result, name, parameters. -/
def methodSignature (name descriptor : String) : String :=
  let split := splitMethod descriptor.toList
  String.ofList (sourceNameText split.2) ++ " " ++ name ++ "("
    ++ ", ".intercalate (split.1.map fun p => String.ofList (sourceNameText p)) ++ ")"

end AnnotationGraft.Descriptor
