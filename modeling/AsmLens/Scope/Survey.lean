import AsmLens.Scope.Forest
import AsmLens.Source.Comment
import AsmLens.Source.Keyword
import AsmLens.Source.Lines

/-!
# Surveying a source

The survey walks over the lines of a file and opens and closes scopes at the braces outside
comments. It is a heuristic on whole lines: of the braces on a line only the first opening and
the first closing one count, and braces without a partner are left as they are.

A declaration waits for the next opening brace, which may stand on a later line, and gives the
scope its name and kind. A file namespace opens a scope by itself and is closed by no brace of
its own. All files of a project are surveyed into one forest.
-/

namespace AsmLens.Scope

/-- The name and kind that the next scope will have. -/
structure Opening where
  name : Text
  kind : Kind
  deriving DecidableEq

namespace Opening

/-- A brace without a declaration opens a nameless block. -/
def anonymous : Opening := ⟨"Anonymous".toList, .label⟩

/-- A declaration with a keyword: the name may be missing. -/
def directive? (keyword : String) (kind : Kind) (t : Text) : Option Opening :=
  (Source.afterKeywordSpace? keyword.toList t).map fun rest =>
    ⟨(Source.takeName (Source.takeAt rest).2).1, kind⟩

/-- A label in front of a colon. -/
def label? (t : Text) : Option Opening :=
  match Source.takeName (Source.takeAt t).2 with
  | ([], _) => none
  | (name, ':' :: _) => some ⟨name, .label⟩
  | _ => none

def isFileNamespace (line : Text) : Bool :=
  (Source.afterKeywordSpace? ".filenamespace".toList (Text.trimStart line)).isSome

def ofLine? (line : Text) : Option Opening :=
  let t := Text.trimStart line
  directive? ".namespace" .nameSpace t
    <|> directive? ".filenamespace" .nameSpace t
    <|> directive? ".function" .function t
    <|> directive? ".macro" .macroBody t
    <|> directive? ".pseudocommand" .pseudoCommand t
    <|> label? t

end Opening

/-- A line of a surveyed file, with the scope in which it starts. -/
structure Row where
  number : Nat
  scope : Nat
  raw : Text
  /-- The line with its comments blanked. -/
  bare : Text
  deriving DecidableEq

structure Listing where
  file : Nat
  rows : List Row
  deriving DecidableEq

namespace Listing

def row? (l : Listing) (line : Nat) : Option Row := l.rows[line]?

/-- The scope in which a line starts. Past the end that is the global scope. -/
def scopeAt (l : Listing) (line : Nat) : Nat :=
  match l.row? line with
  | some r => r.scope
  | none => 0

end Listing

/-- Where the walk stands: the scopes found so far, the open ones from the innermost outwards
without the global scope, and the declaration that waits for its brace. -/
structure Walk where
  forest : Forest
  stack : List Nat := []
  pending : Option Opening := none
  deriving DecidableEq

namespace Walk

def current (w : Walk) : Nat := w.stack.headD 0

/-- Leave the innermost scope. The global scope is never left. -/
def close (w : Walk) : Walk := { w with stack := w.stack.tail }

/-- Open a scope under the innermost one, for the declaration that waits. -/
def enter (file line : Nat) (w : Walk) : Walk :=
  let o := w.pending.getD Opening.anonymous
  { forest := w.forest.add ⟨w.current, o.name, o.kind, line, file⟩
    stack := w.forest.size :: w.stack
    pending := none }

/-- The order in which the first opening and the first closing brace of a line stand. -/
inductive Braces where
  | none
  | onlyOpen
  | onlyClose
  | openFirst
  | closeFirst
  deriving DecidableEq

def Braces.ofLine (line : Text) : Braces :=
  match line.find? (fun c => c == '\x7b' || c == '\x7d') with
  | Option.none => .none
  | some '\x7b' => if '\x7d' ∈ line then .openFirst else .onlyOpen
  | some _ => if '\x7b' ∈ line then .closeFirst else .onlyClose

/-- Whether a line leaves a scope before it opens one. -/
def Braces.closesFirst : Braces → Bool
  | .onlyClose | .closeFirst => true
  | _ => false

def Braces.opens : Braces → Bool
  | .onlyOpen | .openFirst | .closeFirst => true
  | _ => false

/-- The walk behind one line, given without its comments. -/
def step (file number : Nat) (w : Walk) (bare : Text) : Walk :=
  let braces := Braces.ofLine bare
  let w := { w with pending := Opening.ofLine? bare <|> w.pending }
  let w := if braces.closesFirst then w.close else w
  let w := if braces.opens || Opening.isFileNamespace bare then w.enter file number else w
  if braces = .openFirst then w.close else w

/-- The rows of the lines from `number` on, and the walk behind them. A line is given raw and
without its comments. -/
def rows (file : Nat) : Nat → Walk → List (Text × Text) → List Row × Walk
  | _, w, [] => ([], w)
  | number, w, (raw, bare) :: rest =>
    let (tail, last) := rows file (number + 1) (w.step file number bare) rest
    (⟨number, w.current, raw, bare⟩ :: tail, last)

end Walk

/-- Survey one file into a forest: its rows, and the forest with the scopes it opens. -/
def survey (f : Forest) (file : Nat) (text : Text) (comments : List Span) : Listing × Forest :=
  let raw := Source.lines text
  let (rows, last) := Walk.rows file 0 ⟨f, [], none⟩ (raw.zip (Source.blank raw comments))
  (⟨file, rows⟩, last.forest)

/-- A file to survey: its index, its text and the spans of its comments. -/
structure Sheet where
  file : Nat
  text : Text
  comments : List Span

/-- Survey several files, in order, into one forest. -/
def surveyAll (f : Forest) : List Sheet → List Listing × Forest
  | [] => ([], f)
  | s :: rest =>
    let (listing, f) := survey f s.file s.text s.comments
    let (listings, f) := surveyAll f rest
    (listing :: listings, f)

end AsmLens.Scope
