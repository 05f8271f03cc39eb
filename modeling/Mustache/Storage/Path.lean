import Mustache.Text.Split

/-!
# Paths

The text of a path and its parts. A path is a sequence of names between slashes; a leading
slash makes it absolute. Names that are empty, and single dots after the first name, say
nothing; a leading dot and double dots are parts of their own.
-/

namespace Mustache.Path

/-- Whether a path starts at the root. -/
def isAbsolute (path : List Char) : Bool :=
  path.head? == some '/'

/-- A path below another one. An absolute path stands for itself. -/
def joinChars (base path : List Char) : List Char :=
  if isAbsolute path then path
  else if base.isEmpty || base.getLast? == some '/' then base ++ path
  else base ++ '/' :: path

/-- A path below another one. An absolute path stands for itself. -/
def join (base path : String) : String :=
  String.ofList (joinChars base.toList path.toList)

/-- The start of a path that is not made of names, the slash of an absolute path or a leading
dot, and the names after it. -/
def splitHead (path : List Char) : List Char × List (List Char) :=
  match path with
  | '/' :: rest => (['/'], Text.splitOn '/' rest)
  | ['.'] => (['.'], [])
  | '.' :: '/' :: rest => (['.'], Text.splitOn '/' ('/' :: rest))
  | [] => ([], [])
  | _ => ([], Text.splitOn '/' path)

/-- Whether a name between slashes says nothing. -/
def isIdle (name : List Char) : Bool :=
  name.isEmpty || name == ['.']

/-- Names without the idle ones at the end. -/
def trimIdle (names : List (List Char)) : List (List Char) :=
  (names.reverse.dropWhile isIdle).reverse

/-- The last name of a path, if it is neither the root nor a dot or two. -/
def fileName? (path : List Char) : Option (List Char) :=
  match (trimIdle (splitHead path).2).getLast? with
  | some name => if name == ['.', '.'] then none else some name
  | none => none

/-- What stands after the last dot of a path's last name, unless that dot is the first
character of the name. -/
def extension? (path : List Char) : Option (List Char) :=
  match fileName? path with
  | none => none
  | some name =>
    match Text.splitOn '.' name with
    | [] | [_] | [[], _] => none
    | pieces => pieces.getLast?

/-- A path without its last name. The root and the empty path have no parent. -/
def parentChars? (path : List Char) : Option (List Char) :=
  let (head, names) := splitHead path
  match trimIdle names with
  | [] => if head == ['.'] then some [] else none
  | kept@(_ :: _) => some (head ++ Text.joinWith '/' (trimIdle kept.dropLast))

/-- A path without its last name. The root and the empty path have no parent. -/
def parent? (path : String) : Option String :=
  (parentChars? path.toList).map String.ofList

/-- At most `count` parents of a path, nearest first. -/
def parents (count : Nat) (path : String) : List String :=
  match count with
  | 0 => []
  | count + 1 =>
    match parent? path with
    | none => []
    | some parent => parent :: parents count parent

/-- A path and all its parents, nearest first. -/
def ancestors (path : String) : List String :=
  path :: parents path.length path

/-- The names that lead to a path one after another, among them the dots that stay in place and
the double dots that lead back. -/
def names (path : String) : List String :=
  ((Text.splitOn '/' path.toList).filter (! List.isEmpty ·)).map String.ofList

/-- Whether a path ends in a slash. Such a path can only name a directory. -/
def endsInSlash (path : String) : Bool :=
  path.toList.getLast? == some '/'

end Mustache.Path
