/-!
# StarQpu.Text.Path

**Paths of files.** A slash that is repeated and a step to where one is already do not change where
a path leads. At the end of a path they do: only a directory can stand before them.
-/

namespace StarQpu.Text

/-- The path without repeated slashes and without steps that stay, except at its end. -/
def plainChars : List Char → List Char
  | [] => []
  | '/' :: '/' :: rest => plainChars ('/' :: rest)
  | '/' :: '.' :: '/' :: rest => plainChars ('/' :: rest)
  | c :: rest => c :: plainChars rest
termination_by cs => cs.length

/-- The plainest of the paths that lead to the same file. -/
def plainPath (path : String) : String := String.ofList (plainChars path.toList)

end StarQpu.Text
