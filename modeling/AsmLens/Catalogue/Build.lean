import AsmLens.Catalogue.Basic
import AsmLens.Firsts
import AsmLens.Report.Basic
import AsmLens.Symbol.Declaration
import AsmLens.Symbol.Doc

/-!
# Building a catalogue

A mark that can introduce a declaration points at a line of a surveyed file. What stands there is
read as a declaration and becomes a symbol in the scope of the line. If a function, macro or
pseudocommand opened a body, its parameters become symbols of the body and stand in front of it.
Only the first mark at a position counts, and marks in system files do not count. The entries of
the libraries follow.
-/

namespace AsmLens.Catalogue

/-- The kind of scope that a kind of symbol with parameters opens. -/
def bodyKind? : SymbolKind → Option Scope.Kind
  | .function _ => some .function
  | .macroDef _ => some .macroBody
  | .pseudoCommand _ => some .pseudoCommand
  | _ => none

/-- The scope of the body of a callable symbol declared at a line of a file. -/
def body? (f : Scope.Forest) (file line scope : Nat) (name : Text) (kind : SymbolKind) :
    Option Nat :=
  (bodyKind? kind).bind fun k => f.openedBy file scope name k line

/-- The symbols of the parameters of a callable, which live in its body and point at its name. -/
def parameterSymbols (span : Span) (isMain : Bool) (body : Nat) (ps : List Parameter) :
    List Symbol :=
  ps.map fun p => {
    name := p.name
    kind := .parameter p
    scope := body
    lexicalScope := body
    file := span.file
    span := span
    doc := p.description
    isGlobal := false
    isMain := isMain
    isBuiltin := false }

/-- A kind with the annotations of its documentation folded in, and the text that is left. -/
def document (kind : SymbolKind) : Option Doc → SymbolKind × Option Text
  | none => (kind, none)
  | some doc =>
    let (ps, text) := doc.render (kind.parameters?.getD [])
    (kind.withParameters ps, text)

def symbolsOf (f : Scope.Forest) (isMain : Bool) (file line column scope : Nat)
    (d : Declaration) (doc : Option Doc) : List Symbol :=
  let (kind, text) := document d.kind doc
  let start := column + d.column
  let span := Span.onLine file line start (start + d.name.length)
  let parameters := match body? f file line scope d.name kind with
    | some body => parameterSymbols span isMain body (kind.parameters?.getD [])
    | none => []
  parameters ++ [{
    name := d.name
    kind := kind
    scope := if d.hoisted then 0 else scope
    lexicalScope := scope
    file := file
    span := span
    doc := text
    isGlobal := d.hoisted
    isMain := isMain
    isBuiltin := false }]

/-- The text that a mark points at: the line from the start of the mark, without comments. -/
def markedText (row : Scope.Row) (column : Nat) : Text := Text.trimEnd (row.bare.drop column)

def declaredAt (f : Scope.Forest) (isMain : Bool) (l : Scope.Listing) (s : Span) : List Symbol :=
  match l.row? s.startLine with
  | none => []
  | some row =>
    match Declaration.read? (markedText row s.startColumn) with
    | none => []
    | some d =>
      symbolsOf f isMain s.file s.startLine s.startColumn row.scope d
        (Doc.find? l.rows s.startLine s.startColumn)

/-- The span and file of a mark that can introduce a declaration. -/
def target? (r : Report) (listings : List Scope.Listing) (m : Mark) :
    Option (Scope.Listing × Span) :=
  match m.kind.declares, m.span with
  | true, some s =>
    if r.isSystem s.file then none
    else (listings.find? (·.file == s.file)).map fun l => (l, s)
  | _, _ => none

/-- The first target at each position. -/
def targets (r : Report) (listings : List Scope.Listing) : List (Scope.Listing × Span) :=
  firsts (fun (_, s) => (s.file, s.startLine, s.startColumn))
    (r.marks.filterMap (target? r listings))

def isMainFile (r : Report) (file : Nat) : Bool :=
  match r.file? file with
  | some f => f.isMain
  | none => false

def declared (r : Report) (listings : List Scope.Listing) (f : Scope.Forest) : List Symbol :=
  (targets r listings).flatMap fun (l, s) => declaredAt f (isMainFile r s.file) l s

/-- The kind of symbol that a library entry stands for. Parameters of functions are numbered. -/
def libraryKind? (e : LibraryEntry) : Option SymbolKind :=
  match e.kind with
  | .constant => some (.constant none)
  | .function => some (.function ((List.range (e.arity.getD 0)).map fun i =>
      { name := "arg".toList ++ Text.ofNat (i + 1) }))
  | .other => none

def librarySymbol? (e : LibraryEntry) : Option Symbol :=
  (libraryKind? e).map fun kind => {
    name := e.name
    kind := kind
    scope := 0
    lexicalScope := 0
    file := 0
    span := Span.origin
    doc := some ("Builtin from the ".toList ++ e.library ++ " library.".toList)
    isGlobal := true
    isMain := false
    isBuiltin := true }

/-- The symbols that the libraries provide, one for each name and kind. -/
def provided (r : Report) : List Symbol :=
  (firsts (fun e => (e.name, e.kind)) r.libraries).filterMap librarySymbol?

/-- The catalogue of a report and the files surveyed for it. -/
def build (r : Report) (listings : List Scope.Listing) (f : Scope.Forest) : Catalogue where
  symbols := declared r listings f ++ provided r
  forest := f

end AsmLens.Catalogue
