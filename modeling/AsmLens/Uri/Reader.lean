import AsmLens.Uri.Basic
import AsmLens.Uri.Host

/-!
# Reading a URI

Blanks and controls around a URI and line breaks inside it are dropped. Schemes that name a host
treat a backslash as a slash. In every rooted path a segment of one dot is left out and a segment
of two dots takes the segment before it away, whether the dots are encoded or not. A file path
keeps its drive letter at the front and has no empty segments before its first name.
-/

namespace AsmLens.Uri

/-- The ports of the schemes that name a host. -/
def hostedSchemes : List (Text × Nat) :=
  [("http".toList, 80), ("https".toList, 443), ("ws".toList, 80), ("wss".toList, 443),
    ("ftp".toList, 21)]

/-- The number that a scheme uses when its URI has none behind the host. -/
def defaultPort? (scheme : Text) : Option Nat :=
  (hostedSchemes.find? (·.1 == scheme)).map (·.2)

def isFileScheme (scheme : Text) : Bool := scheme == "file".toList

/-- Whether a backslash counts as a slash. -/
def hasHost (scheme : Text) : Bool := isFileScheme scheme || (defaultPort? scheme).isSome

def isSlash (scheme : Text) (c : Char) : Bool := c == '/' || (hasHost scheme && c == '\\')

/-- The text without blanks and controls around it and line breaks inside it. -/
def clean (t : Text) : Text :=
  let outer (c : Char) : Bool := c.toNat ≤ 0x20
  (Text.dropEndWhile outer (t.dropWhile outer)).filter fun c => !(['\t', '\n', '\r'].contains c)

def scheme? (t : Text) : Option (Text × Text) :=
  match t with
  | c :: _ =>
    if c.isAlpha then
      match t.span (fun d => d.isAlphanum || ['+', '-', '.'].contains d) with
      | (name, ':' :: rest) => some (Text.lower name, rest)
      | _ => none
    else none
  | [] => none

def cutMark (mark : Char) (t : Text) : Text × Option Text :=
  match Text.cut? mark t with
  | some (a, b) => (a, some b)
  | none => (t, none)

/-! ## Paths -/

/-- A segment with its encoded dots written out. -/
def plainDots : Text → Text
  | '%' :: '2' :: 'e' :: rest => '.' :: plainDots rest
  | '%' :: '2' :: 'E' :: rest => '.' :: plainDots rest
  | c :: rest => c :: plainDots rest
  | [] => []

/-- A letter followed by a colon, or by a bar that stands for one. -/
def isDrive : Text → Bool
  | [c, d] => c.isAlpha && (d == ':' || d == '|')
  | _ => false

/-- The segments so far, last first, without the last of them. A drive letter stays. -/
def shorten (isFile : Bool) : List Text → List Text
  | [] => []
  | [s] => if isFile && isDrive s then [s] else []
  | _ :: rest => rest

/-- One more segment. The segments so far are last first. -/
def pushSegment (isFile isLast : Bool) (done : List Text) (s : Text) : List Text :=
  let dots := plainDots s
  if dots == "..".toList then
    let kept := shorten isFile done
    if isLast then [] :: kept else kept
  else if dots == ['.'] then (if isLast then [] :: done else done)
  else match done, isFile && isDrive s, s with
    | [], true, c :: _ => [[c, ':']]
    | _, _, _ => Percent.encode Percent.path s :: done

/-- The segments of a path in normal form. The segments so far are last first. -/
def normalise (isFile : Bool) : List Text → List Text → List Text
  | done, [] => done.reverse
  | done, [s] => (pushSegment isFile true done s).reverse
  | done, s :: rest => normalise isFile (pushSegment isFile false done s) rest

/-- A drive letter at the start of a file path is a segment of its own. -/
def splitDrive : List Text → List Text
  | (c :: ':' :: d :: name) :: rest =>
    if c.isAlpha then [c, ':'] :: (d :: name) :: rest else (c :: ':' :: d :: name) :: rest
  | segments => segments

def rootedPath (scheme : Text) (t : Text) : List Text :=
  let segments := Text.splitBy (isSlash scheme) t
  if isFileScheme scheme then
    match (normalise true [] (splitDrive segments)).dropWhile (·.isEmpty) with
    | [] => [[]]
    | named => named
  else normalise false [] segments

def pathAfterHost (scheme : Text) : Text → List Text
  | [] => if hasHost scheme then [[]] else []
  | _ :: rest => rootedPath scheme rest

/-! ## Authorities -/

/-- The text before the last at-sign and the text behind it. -/
def cutUser (t : Text) : Option Text × Text :=
  match Text.cut? '@' t.reverse with
  | some (host, user) => (some user.reverse, host.reverse)
  | none => (none, t)

/-- The user of an authority: a name, and a password behind the first colon unless it is
empty. -/
def readUser (t : Text) : Text :=
  match Text.cut? ':' t with
  | some (name, []) => Percent.encode Percent.user name
  | some (name, password) =>
    Percent.encode Percent.user name ++ [':'] ++ Percent.encode Percent.user password
  | none => Percent.encode Percent.user t

/-- The host, and what follows the colon behind it. A colon in brackets belongs to the host. -/
def cutPort : Bool → Text → Text × Option Text
  | _, [] => ([], none)
  | false, ':' :: rest => ([], some rest)
  | inside, c :: rest =>
    let (host, tail) := cutPort (if c = '[' then true else if c = ']' then false else inside) rest
    (c :: host, tail)

/-- The number behind the colon, left out when it is empty or the usual one of the scheme. -/
def portNumber? (scheme : Text) : Option Text → Option (Option Nat)
  | none => some none
  | some [] => some none
  | some digits => do
    if !digits.all Char.isDigit then none
    else
      let n ← Text.readDigits? 10 digits
      if 65535 < n then none
      else some (if defaultPort? scheme = some n then none else some n)

def authority? (scheme : Text) (t : Text) : Option Authority := do
  let (user, rest) := cutUser t
  let (hostText, portText) := cutPort false rest
  let host ← if hasHost scheme then Host.domain? hostText else Host.plain? hostText
  let number ← portNumber? scheme portText
  if host.isEmpty && (portText.isSome || user.isSome) then none
  else some ⟨(user.map readUser).getD [], host, number⟩

/-- The host of a file URI, which stands alone in its authority. The local host is left out. -/
def fileHost? (t : Text) : Option Text :=
  if t.isEmpty then some []
  else (Host.domain? t).map fun h => if h == "localhost".toList then [] else h

def fileBody? (scheme : Text) (t : Text) : Option (Authority × UriPath) :=
  let (hostText, rest) := t.span (fun c => !isSlash scheme c)
  if isDrive hostText then some ({}, .rooted (rootedPath scheme t))
  else do
    let host ← fileHost? hostText
    let raw := (Text.splitBy (isSlash scheme) (rest.drop 1)).headD []
    let kept := if isDrive raw then [] else host
    return ({ host := kept }, .rooted (pathAfterHost scheme rest))

def body? (scheme : Text) (t : Text) : Option (Option Authority × UriPath) :=
  if isFileScheme scheme then
    match t with
    | a :: b :: rest =>
      if isSlash scheme a && isSlash scheme b then
        (fileBody? scheme rest).map fun (auth, path) => (some auth, path)
      else if isSlash scheme a then some (some {}, .rooted (rootedPath scheme (b :: rest)))
      else some (some {}, .rooted (rootedPath scheme t))
    | [a] => some (some {}, .rooted (rootedPath scheme (if isSlash scheme a then [] else t)))
    | [] => some (some {}, .rooted [[]])
  else if hasHost scheme then do
    let (auth, rest) := (t.dropWhile (isSlash scheme)).span (fun c => !isSlash scheme c)
    return (some (← authority? scheme auth), .rooted (pathAfterHost scheme rest))
  else match t with
    | '/' :: '/' :: rest => do
      let (auth, rest) := rest.span (fun c => c != '/')
      return (some (← authority? scheme auth), .rooted (pathAfterHost scheme rest))
    | '/' :: rest => some (none, .rooted (rootedPath scheme rest))
    | _ => some (none, .rootless (Percent.encode Percent.control t))

/-- The URI that a text spells, if it spells an absolute one. -/
def read? (t : Text) : Option Uri := do
  let (scheme, rest) ← scheme? (clean t)
  let (rest, fragment) := cutMark '#' rest
  let (rest, query) := cutMark '?' rest
  let (authority, path) ← body? scheme rest
  let querySet := if hasHost scheme then Percent.hostedQuery else Percent.query
  return ⟨scheme, authority, path, query.map (Percent.encode querySet),
    fragment.map (Percent.encode Percent.fragment)⟩

end AsmLens.Uri
