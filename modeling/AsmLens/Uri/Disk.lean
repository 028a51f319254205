import AsmLens.Uri.Percent
import AsmLens.Uri.Basic

/-!
# Paths on disk

The directory and the name of a file path, and the way between file paths and URIs. A path is
absolute when it starts with a slash. Empty parts and parts of one dot are no components of it.
-/

namespace AsmLens.Disk

def isAbsolute (path : Text) : Bool := path.head? == some '/'

/-- The names between the slashes of a path, without empty ones and single dots. -/
def components (path : Text) : List Text :=
  (Text.split '/' path).filter fun s => !s.isEmpty && s != ['.']

/-- The last component of a path, unless it leads to the directory above. -/
def fileName? (path : Text) : Option Text :=
  match (components path).getLast? with
  | some name => if name == "..".toList then none else some name
  | none => none

/-- The path without slashes and dot components at its end. The root is kept. The argument is
the path read backwards. -/
def trimTail : Text → Text
  | ['/'] => ['/']
  | '/' :: rest => trimTail rest
  | ['.', '/'] => ['/']
  | '.' :: '/' :: rest => trimTail ('/' :: rest)
  | t => t

/-- The directory of a path: the path in front of its last component. A path that has no
component has no directory, and the directory of a lone name is empty. -/
def directory? (path : Text) : Option Text :=
  if (components path).isEmpty && !(path.head? == some '.') then none
  else
    let tail := trimTail path.reverse
    some (trimTail (tail.dropWhile (· != '/'))).reverse

def join (directory name : Text) : Text :=
  if directory.isEmpty then name
  else if directory.getLast? = some '/' then directory ++ name
  else directory ++ '/' :: name

end AsmLens.Disk

namespace AsmLens.Uri

/-- Whether a path ends in a letter and the mark of a drive. -/
def endsInDrive (path : Text) : Bool :=
  match path.reverse with
  | d :: c :: _ :: _ => c.isAlpha && (d == ':' || d == '|')
  | _ => false

/-- The path on disk of a URI whose path is rooted and whose host is this one. -/
def toFilePath? (u : Uri) : Option Text :=
  match u.path with
  | .rootless _ => none
  | .rooted segments =>
    let host := (u.authority.map (·.host)).getD []
    if host.isEmpty || host == "localhost".toList then
      let path := match segments with
        | [] => ['/']
        | named => named.flatMap fun s => '/' :: Text.ofBytes (Percent.decode s)
      some (if endsInDrive path then path ++ ['/'] else path)
    else none

def ofFilePath? (path : Text) : Option Uri :=
  if Disk.isAbsolute path then
    let segments := (Disk.components path).map (Percent.encode Percent.fileSegment)
    some ⟨"file".toList, some {}, .rooted (if segments.isEmpty then [[]] else segments), none,
      none⟩
  else none

end AsmLens.Uri
