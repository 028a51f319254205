import AsmLens.Text.Decimal

/-!
# URIs

A URI names a buffer. Two URIs are the same when their texts are, so a URI is kept in parts
that are already in normal form, and its text is written from them.
-/

namespace AsmLens

/-- Where the resource of a URI is served. The user is empty when the URI names none. -/
structure Authority where
  user : Text := []
  host : Text := []
  /-- The number behind the host, unless it is the usual one of the scheme. -/
  portNumber : Option Nat := none
deriving DecidableEq

/-- The path of a URI: plain text behind the scheme, or segments that each follow a slash. -/
inductive UriPath where
  | rootless (text : Text)
  | rooted (segments : List Text)
deriving DecidableEq

def UriPath.toText : UriPath → Text
  | .rootless t => t
  | .rooted segments => segments.flatMap ('/' :: ·)

structure Uri where
  scheme : Text
  authority : Option Authority
  path : UriPath
  query : Option Text
  fragment : Option Text
deriving DecidableEq

namespace Uri

/-- The text of an authority, with the two slashes in front. -/
def writeAuthority (a : Authority) : Text :=
  "//".toList ++ (if a.user.isEmpty then [] else a.user ++ ['@']) ++ a.host ++
    (match a.portNumber with
      | some p => ':' :: Text.ofNat p
      | none => [])

/-- What stands between the scheme and the path. Without an authority a path must not start
with two slashes, so a dot segment goes in front of one that would. -/
def writeOrigin (u : Uri) : Text :=
  match u.authority, u.path with
  | some a, _ => writeAuthority a
  | none, .rooted ([] :: _ :: _) => "/.".toList
  | none, _ => []

def toText (u : Uri) : Text :=
  u.scheme ++ [':'] ++ u.writeOrigin ++ u.path.toText ++
    (match u.query with
      | some q => '?' :: q
      | none => []) ++
    (match u.fragment with
      | some f => '#' :: f
      | none => [])

/-- What follows the last slash of the path. -/
def shortName (u : Uri) : Text := ((Text.split '/' u.path.toText).getLast?).getD []

end Uri

end AsmLens
