import AsmLens.Span

/-!
# Symbols

A symbol is a name that a program declares or that a library of the assembler provides. Its kind
carries what only that kind has: a value for labels, constants and variables, parameters for
functions, macros and pseudocommands.
-/

namespace AsmLens

inductive ParameterKind where
  | value
  | string
  | file
  | choice
  deriving DecidableEq

structure Parameter where
  name : Text
  kind : ParameterKind := .value
  description : Option Text := none
  isOptional : Bool := false
  deriving DecidableEq

/-- The name of a parameter as it is shown, in brackets when it may be left out. -/
def Parameter.shown (p : Parameter) : Text :=
  if p.isOptional then '[' :: p.name ++ [']'] else p.name

/-- The right-hand side of an assignment, with its number if it is a numeric literal. -/
structure AssignedValue where
  text : Text
  number : Option Nat
  deriving DecidableEq

/-- The categories by which symbols are offered and found. -/
inductive Category where
  | namedLabel
  | label
  | constant
  | function
  | macroDef
  | pseudoCommand
  | var
  | nameSpace
  | parameter
  | flag
  deriving DecidableEq

/-- What a symbol is, with what belongs to its kind. -/
inductive SymbolKind where
  | namedLabel
  | label (value : Option AssignedValue)
  | constant (value : Option AssignedValue)
  | var (value : Option AssignedValue)
  | function (parameters : List Parameter)
  | macroDef (parameters : List Parameter)
  | pseudoCommand (parameters : List Parameter)
  | nameSpace
  | parameter (parameter : Parameter)
  | flag
  deriving DecidableEq

structure Symbol where
  name : Text
  kind : SymbolKind
  /-- The scope the symbol can be seen from. -/
  scope : Nat
  /-- The scope the declaration stands in. -/
  lexicalScope : Nat
  file : Nat
  /-- Where the name is written. -/
  span : Span
  doc : Option Text
  isGlobal : Bool
  isMain : Bool
  isBuiltin : Bool
  deriving DecidableEq

def Category.describe : Category → Text
  | .namedLabel => "label".toList
  | .label => "label".toList
  | .constant => "constant".toList
  | .function => "function".toList
  | .macroDef => "macro".toList
  | .pseudoCommand => "pseudocommand".toList
  | .var => "variable".toList
  | .nameSpace => "namespace".toList
  | .parameter => "parameter".toList
  | .flag => "boolean".toList

namespace SymbolKind

def category : SymbolKind → Category
  | .namedLabel => .namedLabel
  | .label _ => .label
  | .constant _ => .constant
  | .var _ => .var
  | .function _ => .function
  | .macroDef _ => .macroDef
  | .pseudoCommand _ => .pseudoCommand
  | .nameSpace => .nameSpace
  | .parameter _ => .parameter
  | .flag => .flag

/-- The parameters of the kinds that can be called. -/
def parameters? : SymbolKind → Option (List Parameter)
  | .function ps | .macroDef ps | .pseudoCommand ps => some ps
  | _ => none

/-- The kind with other parameters, where it has any. -/
def withParameters (k : SymbolKind) (ps : List Parameter) : SymbolKind :=
  match k with
  | .function _ => .function ps
  | .macroDef _ => .macroDef ps
  | .pseudoCommand _ => .pseudoCommand ps
  | other => other

/-- The assigned value of the kinds that can have one. -/
def value? : SymbolKind → Option AssignedValue
  | .label v | .constant v | .var v => v
  | _ => none

end SymbolKind

namespace Symbol

def category (s : Symbol) : Category := s.kind.category

def parameters (s : Symbol) : List Parameter := s.kind.parameters?.getD []

def assignment (directive : String) (name : Text) (value : Option AssignedValue) : Text :=
  directive.toList ++ ' ' :: name ++
    match value with
    | some v => " = ".toList ++ v.text
    | none => []

def parameterList (sep : String) (ps : List Parameter) : Text :=
  Text.join sep.toList (ps.map (·.name))

/-- The declaration of a name as one line. -/
def signatureOf (name : Text) : SymbolKind → Text
  | .namedLabel => name ++ [':']
  | .label v => assignment ".label" name v
  | .constant v => assignment ".const" name v
  | .var v => assignment ".var" name v
  | .function ps => ".function ".toList ++ name ++ '(' :: parameterList ", " ps ++ [')']
  | .macroDef ps => ".macro ".toList ++ name ++ '(' :: parameterList ", " ps ++ [')']
  | .pseudoCommand ps =>
    Text.trimEnd (".pseudocommand ".toList ++ name ++ ' ' :: parameterList " : " ps)
  | .nameSpace => ".namespace ".toList ++ name
  | .parameter _ => "(parameter) ".toList ++ name
  | .flag => "#define ".toList ++ name

def signature (s : Symbol) : Text := signatureOf s.name s.kind

end Symbol

end AsmLens
