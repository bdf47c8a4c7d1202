import AnnotationGraft.Text.Segments

/-!
# Paths

A path is a text whose components stand between slashes.  The functions here work on the text
alone, without a look at any file.
-/

namespace AnnotationGraft.Path

/-- The components of a path, empty ones included. -/
def components (path : String) : List String :=
  (Text.segments '/' path.toList).map String.ofList

/-- A path as it leads on from where another one leads to.  A path that leads from the top does so
from anywhere. -/
def join (base path : String) : String :=
  if path.startsWith "/" then path
  else if base == "" || base.endsWith "/" then base ++ path
  else base ++ "/" ++ path

/-- A path without the slashes at its end, of which one is left if there is nothing else. -/
def dropSlashes (path : String) : String :=
  match path.toList.reverse.dropWhile (· == '/') with
  | [] => if path = "" then "" else "/"
  | cs => String.ofList cs.reverse

/-- Drops slashes, and dots that stand for the directory itself, from the end of a reversed path. -/
def dropTrailing : List Char → List Char
  | ['/'] => ['/']
  | '/' :: rest => dropTrailing rest
  | '.' :: '/' :: rest => dropTrailing ('/' :: rest)
  | cs => cs
  termination_by cs => cs.length

/-- What stands above a reversed path without slashes at its front. -/
def above (reversed : List Char) : List Char := dropTrailing (reversed.dropWhile (· != '/'))

/-- The path of the directory that holds what a path names. -/
def parent (path : String) : String :=
  String.ofList (above (dropTrailing path.toList.reverse)).reverse

/-- A reversed path and those above it, up to the last one that is not empty. -/
def ancestorsOfReversed (reversed : List Char) : List String :=
  if reversed = [] then []
  else
    String.ofList reversed.reverse
      :: if (above reversed).length < reversed.length then ancestorsOfReversed (above reversed)
        else []
  termination_by reversed.length

/-- A path and those of the directories above it, innermost first. -/
def ancestors (path : String) : List String :=
  ancestorsOfReversed (dropTrailing path.toList.reverse)

/-- Whether a file of the name has the extension of class files.  A name that is the extension and
nothing else has none. -/
def isClassFileName (name : String) : Bool :=
  name.endsWith ".class" && name != ".class"

/-- The order of paths: by their components from the first on. -/
def compareComponents : List String → List String → Bool
  | [], _ => true
  | _ :: _, [] => false
  | a :: as, b :: bs => if a = b then compareComponents as bs else a < b

end AnnotationGraft.Path
