/-!
# Paths

A path is shown without empty and `.` components. Two slashes in front are kept, more of them
become one, and the empty path is the current directory, `.`.
-/

namespace MarkupOutline.CommandLine

/-- The parts of a text between slashes. -/
def pathParts (cs : List Char) : List (List Char) :=
  cs.foldr (fun c parts =>
    if c = '/' then [] :: parts
    else match parts with
      | part :: rest => (c :: part) :: rest
      | [] => [[c]]) [[]]

/-- The slashes with which a path starts at the root. -/
def pathRoot (cs : List Char) : List Char :=
  match (cs.takeWhile (· == '/')).length with
  | 0 => []
  | 2 => ['/', '/']
  | _ => ['/']

/-- The components of a path that matter. -/
def pathComponents (cs : List Char) : List (List Char) :=
  (pathParts cs).filter fun part => part ≠ [] ∧ part ≠ ['.']

/-- The path as it is shown. -/
def normalPath (path : String) : String :=
  let cs := path.toList
  let shown := pathRoot cs ++ ['/'].intercalate (pathComponents cs)
  if shown = [] then "." else String.ofList shown

end MarkupOutline.CommandLine
