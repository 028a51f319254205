import AsmLens.Scope.Survey
import AsmLens.Symbol.Basic

/-!
# Documentation comments

A declaration is documented by the line comment behind it, else by the run of line comments above
it, else by the block comment above it. Blank lines between the comments and the declaration do
not matter.

Lines that annotate a parameter are taken out of the text and folded into the parameters:

    @param [string|file] name description

with `@parameter` as another spelling, and the name in square brackets for an optional parameter.
-/

namespace AsmLens

inductive DocStyle where
  | trailing
  | run
  | block
  deriving DecidableEq

structure Doc where
  style : DocStyle
  lines : List Text
  deriving DecidableEq

structure ParameterNote where
  name : Text
  kind : Option ParameterKind
  isOptional : Bool
  description : Option Text
  deriving DecidableEq

namespace ParameterNote

/-- The kind that a word in front of the name gives. -/
def kindWord? (w : Text) : Option ParameterKind :=
  if Text.lower w = "string".toList then some .string
  else if Text.lower w = "file".toList then some .file
  else none

/-- The name of a parameter without the brackets of an optional one. -/
def bareName (w : Text) : Text × Bool :=
  match (Text.after? ['['] w).bind (Text.before? [']']) with
  | some inner => (inner, true)
  | none => (w, false)

/-- An annotation from its words: name and description. -/
def ofWords? (kind : Option ParameterKind) : List Text → Option ParameterNote
  | [] => none
  | name :: rest =>
    let (name, isOptional) := bareName name
    let description := Text.join [' '] rest
    some ⟨name, kind, isOptional, if description.isEmpty then none else some description⟩

def body? (line : Text) : Option Text :=
  match Text.after? "@parameter".toList line with
  | some rest => some rest
  | none => Text.after? "@param".toList line

def read? (line : Text) : Option ParameterNote :=
  match body? (Text.trim line) with
  | none => none
  | some rest =>
    if rest.isEmpty || (rest.head?.map Text.isSpace).getD false then
      match Text.words rest with
      | w :: rest =>
        match kindWord? w with
        | some kind => ofWords? (some kind) rest
        | none => ofWords? none (w :: rest)
      | [] => none
    else none

/-- The parameter with what the annotation says: a kind or description it gives replaces the old
one, and an optional parameter stays optional. -/
def merge (a : ParameterNote) (p : Parameter) : Parameter :=
  { p with
    kind := a.kind.getD p.kind
    isOptional := p.isOptional || a.isOptional
    description := a.description <|> p.description }

/-- The parameters with the annotation folded into the first one of its name. -/
def apply (a : ParameterNote) : List Parameter → List Parameter
  | [] => []
  | p :: ps => if p.name = a.name then a.merge p :: ps else p :: a.apply ps

end ParameterNote

namespace Doc

def trailing? (raw : Text) (column : Nat) : Option Doc :=
  match Source.commentStart? raw with
  | none => none
  | some start =>
    let body := Text.trim ((raw.drop start).dropWhile (· == '/'))
    if start < column ∨ body.isEmpty then none else some ⟨.trailing, [body]⟩

/-- The text of a trimmed line that is a line comment. -/
def lineComment? (line : Text) : Option Text :=
  (Text.after? ['/', '/'] line).map fun rest => Text.trim (rest.dropWhile (· == '/'))

def leadingComments : List Text → List Text
  | [] => []
  | line :: rest =>
    match lineComment? line with
    | some body => body :: leadingComments rest
    | none => []

/-- The run of line comments above a declaration. The lines above come nearest first. -/
def run? (above : List Text) : Option Doc :=
  let found := leadingComments ((above.map Text.trim).filter fun t => !t.isEmpty)
  if found.all List.isEmpty then none else some ⟨.run, found.reverse⟩

/-- The items up to and with the first one that satisfies `p`. -/
def through? {α : Type} (p : α → Bool) : List α → Option (List α)
  | [] => none
  | a :: rest => if p a then some [a] else (through? p rest).map (a :: ·)

/-- A line of a block comment without its delimiters and leading stars. -/
def blockLine (raw : Text) : Text :=
  let t := Text.trim raw
  let t := (Text.after? "/**".toList t).getD t
  let t := Text.trim ((Text.before? "*/".toList t).getD t)
  Text.trim (t.dropWhile (· == '*'))

/-- The block comment above a declaration. The lines above come nearest first; the comment ends
on the nearest line that is not blank. -/
def block? (above : List Text) : Option Doc :=
  let above := above.dropWhile fun t => (Text.trim t).isEmpty
  match above with
  | [] => none
  | last :: _ =>
    if (Text.before? "*/".toList (Text.trimEnd last)).isNone then none
    else
      match through? (Text.contains "/*".toList) above with
      | none => none
      | some block =>
        let block := block.reverse
        match block.head? with
        | none => none
        | some first =>
          if (Text.after? "/**".toList (Text.trimStart first)).isNone then none
          else
            let lines := (block.map blockLine).filter fun t => !t.isEmpty
            if lines.isEmpty then none else some ⟨.block, lines⟩

def find? (rows : List Scope.Row) (line column : Nat) : Option Doc :=
  match rows[line]? with
  | none => none
  | some row =>
    let above := ((rows.take line).map (·.raw)).reverse
    trailing? row.raw column <|> run? above <|> block? above

/-- Lines of a block become paragraphs, other lines stay lines. -/
def separator : DocStyle → Text
  | .block => ['\n', '\n']
  | .run | .trailing => ['\n']

/-- One line of a comment: an annotation is folded into the parameters, another line is kept. -/
def readLine (out : List Parameter × List Text) (line : Text) : List Parameter × List Text :=
  match ParameterNote.read? line with
  | some a => (a.apply out.1, out.2)
  | none => (out.1, out.2 ++ [line])

/-- The parameters with every annotation folded in, and the text that is left. Empty lines at the
end are dropped before the lines that are kept become the text. -/
def render (d : Doc) (ps : List Parameter) : List Parameter × Option Text :=
  let out := d.lines.foldl readLine (ps, [])
  let kept := (out.2.reverse.dropWhile List.isEmpty).reverse
  let t := Text.trim (Text.join (separator d.style) kept)
  (out.1, if t.isEmpty then none else some t)

end Doc

end AsmLens
