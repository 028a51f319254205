import AsmLens.Assist.Spot

/-!
# Signature help

The parameters of the macro, function or pseudocommand whose call stands around the cursor, and
which of them is being typed.

A call of a macro or function is an opening parenthesis in front of the cursor that has not been
closed, with a name in front of it; commas separate its arguments. A pseudocommand is the first
word of a line, behind a label if there is one, and colons separate its arguments.
-/

namespace AsmLens

/-- A call in front of the cursor: the name that is called, and how many separators follow. -/
structure CallSite where
  name : Text
  separators : Nat
  deriving DecidableEq

namespace CallSite

/-- A parenthesis that is open: the text in front of it read backwards, and the commas behind it
that no inner parenthesis holds. -/
structure OpenParen where
  before : Text
  commas : Nat

/-- A scan for open parentheses, innermost first. Quotes switch strings on and off. -/
structure Scan where
  before : Text := []
  quoted : Bool := false
  parens : List OpenParen := []

namespace Scan

def addComma : List OpenParen → List OpenParen
  | [] => []
  | p :: rest => { p with commas := p.commas + 1 } :: rest

/-- The parentheses after one character outside strings. -/
def stepParens (before : Text) (parens : List OpenParen) (c : Char) : List OpenParen :=
  if c = '(' then ⟨before, 0⟩ :: parens
  else if c = ')' then parens.tail
  else if c = ',' then addComma parens
  else parens

def step (s : Scan) (c : Char) : Scan where
  before := c :: s.before
  quoted := if c = '"' then !s.quoted else s.quoted
  parens := if s.quoted || c == '"' then s.parens else stepParens s.before s.parens c

end Scan

def isCalleeChar (c : Char) : Bool := Text.isAlphanumeric c || c == '_' || c == '.'

/-- The name at the end of a text that is read backwards. Spaces may follow the name, points in
front of it do not belong to it, and it does not start with a digit. -/
def callee? (before : Text) : Option Text :=
  let name := ((before.dropWhile (· == ' ')).takeWhile isCalleeChar).reverse.dropWhile (· == '.')
  match name with
  | [] => none
  | c :: _ => if c.isDigit then none else some name

/-- The calls whose parentheses are open at the end of a text, innermost first. -/
def openCalls (left : Text) : List CallSite :=
  (left.foldl Scan.step {}).parens.filterMap fun p =>
    (callee? p.before).map fun name => ⟨name, p.commas⟩

/-- The text behind a label at its start, if there is one. -/
def dropLabel (t : Text) : Text :=
  let (first, rest) := Text.spanNot Text.isSpace t
  if first.length > 1 ∧ first.getLast? = some ':' then Text.trimStart rest else t

/-- The pseudocommand at the start of a line, once a blank follows its name. -/
def pseudoCommand? (left : Text) : Option CallSite :=
  match Text.spanNot Text.isSpace (dropLabel (Text.trimStart left)) with
  | (_, []) => none
  | (command, arguments) =>
    match command.dropWhile (· == ':') with
    | [] => none
    | name => some ⟨name, arguments.count ':'⟩

end CallSite

/-- A parameter of a signature: the columns of the label that show it, in UTF-16 units, and what
is known about it. -/
structure ParameterHint where
  start : Nat
  stop : Nat
  note : Option Text
  deriving DecidableEq

structure SignatureHint where
  label : Text
  documentation : Option Text
  parameters : List ParameterHint
  active : Nat
  deriving DecidableEq

namespace SignatureHint

def kindWord? : ParameterKind → Option Text
  | .value => none
  | .string => some "(string)".toList
  | .file => some "(file)".toList
  | .choice => some "(enum)".toList

def note? (p : Parameter) : Option Text :=
  match kindWord? p.kind, p.description with
  | some kind, some description => some (kind ++ ' ' :: description)
  | some kind, none => some kind
  | none, description => description

/-- A label with parameters written behind it, and where each of them stands. -/
def writeParameters (separator : Text) : Text → List Parameter → Text × List ParameterHint
  | label, [] => (label, [])
  | label, p :: rest =>
    let shown := label ++ p.shown
    let hint := ⟨Text.width label, Text.width shown, note? p⟩
    let (final, hints) :=
      writeParameters separator (if rest.isEmpty then shown else shown ++ separator) rest
    (final, hint :: hints)

/-- What opens, separates and closes the arguments of a category. -/
def punctuation : Category → Text × Text × Text
  | .pseudoCommand => ([' '], " : ".toList, [])
  | _ => (['('], ", ".toList, [')'])

/-- The signature of a symbol after some separators. The last parameter takes all that follow. -/
def ofSymbol (s : Symbol) (separators : Nat) : SignatureHint :=
  let (opening, separator, closing) := punctuation s.category
  let (label, hints) := writeParameters separator (s.name ++ opening) s.parameters
  { label := Text.trimEnd (label ++ closing)
    documentation := s.doc
    parameters := hints
    active := min separators (s.parameters.length - 1) }

def isParenthesised (s : Symbol) : Bool := s.category == .macroDef || s.category == .function

/-- Whether a symbol is called as the first word of a line. -/
def isCommand (s : Symbol) : Bool := s.category == .pseudoCommand

/-- The signature of a call, if its name means a symbol that can be called so. -/
def ofCall? (snapshot : Snapshot) (row : Nat) (callable : Symbol → Bool) (call : CallSite) :
    Option SignatureHint :=
  ((snapshot.resolve call.name row).find? callable).map (ofSymbol · call.separators)

/-- The signature at a spot: of the innermost call that is known, else of a pseudocommand. -/
def atSpot? (snapshot : Snapshot) (spot : Spot) : Option SignatureHint :=
  (CallSite.openCalls spot.left).findSome? (ofCall? snapshot spot.row isParenthesised) <|>
    (CallSite.pseudoCommand? spot.left).bind (ofCall? snapshot spot.row isCommand)

def provide? (snapshot : Snapshot) (text : Text) (p : Position) : Option SignatureHint :=
  (Spot.at? text p).bind (atSpot? snapshot)

end SignatureHint

end AsmLens
