import FleetTelemetry.Text.Split

/-!
# Paths

A path is a text of names separated by slashes. A path that starts with a slash is absolute, and
joining it to a directory replaces the directory.
-/

namespace FleetTelemetry.Path

open Text

/-- The names of a path in order. Repeated slashes leave empty names between them. -/
def names (path : String) : List String :=
  (pieces '/' path.toList).map String.ofList

def isAbsolute (path : String) : Bool :=
  path.toList.head? = some '/'

/-- Puts a path below a directory, unless it is absolute. -/
def join (directory path : String) : String :=
  if isAbsolute path then path
  else if directory.toList.getLast? ∈ [none, some '/'] then directory ++ path
  else directory ++ "/" ++ path

def reversedName (path : List Char) : List Char :=
  path.reverse.takeWhile (· ≠ '/')

/-- Drops the slashes and the dots between slashes at the end of a path, which is given from its
end to its start. A lone slash stays. -/
def dropEmptyNames : List Char → List Char
  | '/' :: c :: rest => dropEmptyNames (c :: rest)
  | '.' :: '/' :: rest => dropEmptyNames ('/' :: rest)
  | reversed => reversed

/-- The path of what a path lies in. The root and the empty path lie in nothing. -/
def parent? (path : String) : Option String :=
  match dropEmptyNames path.toList.reverse with
  | [] => none
  | ['/'] => none
  | reversed => some (String.ofList (dropEmptyNames (reversed.dropWhile (· ≠ '/'))).reverse)

/-- What follows the last dot of a path's name. A name without a dot, or with none but its first
character, has no extension. -/
def extension? (path : String) : Option String :=
  let name := reversedName (dropEmptyNames path.toList.reverse).reverse
  match name.dropWhile (· ≠ '.') with
  | _ :: _ :: _ =>
    if name = ['.', '.'] then none else some (String.ofList (name.takeWhile (· ≠ '.')).reverse)
  | _ => none

/-- Replaces what follows the last dot of a path's name. A name without a dot, or with none but
its first character, is kept and gets the extension behind it. -/
def withExtension (path extension : String) : String :=
  let text := path.toList
  let name := reversedName text
  let stem := name.dropWhile (· ≠ '.')
  let kept := if stem.length ≤ 1 then text else text.take (text.length - (name.length - stem.length + 1))
  String.ofList (kept ++ '.' :: extension.toList)

end FleetTelemetry.Path
