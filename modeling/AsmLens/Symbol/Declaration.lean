import AsmLens.Numeral
import AsmLens.Source.Keyword
import AsmLens.Symbol.Basic

/-!
# Declarations

A declaration is read from the text that starts at a mark and runs to the end of the line, with
comments blanked and the end trimmed. The directive tells the kind; a word in front of a colon is
a label. A name is a non-empty word, and an at-sign in front of it makes it global.
-/

namespace AsmLens

/-- A recognised declaration. The column is that of the name, without an at-sign. -/
structure Declaration where
  hoisted : Bool
  name : Text
  column : Nat
  kind : SymbolKind
  deriving DecidableEq

namespace Declaration

/-- The text of an assigned value, with its number. A blank text is no value. -/
def assigned? (t : Text) : Option AssignedValue :=
  let v := Text.trim t
  if v.isEmpty then none else some ⟨v, Numeral.value? v⟩

/-- The parameters in a list with one separator. Blank ones do not count. -/
def parameterNames (sep : Char) (t : Text) : List Parameter :=
  ((Text.split sep t).map Text.trim).filterMap fun name =>
    if name.isEmpty then none else some { name }

/-- The name at the start of `rest`, which is the end of the declaration `d`. What follows the
name determines the kind. -/
def named? (d rest : Text) (kind? : Text → Option SymbolKind) : Option Declaration :=
  let (hoisted, bare) := Source.takeAt rest
  let (name, tail) := Source.takeName bare
  if name.isEmpty then none
  else (kind? tail).map fun kind => ⟨hoisted, name, d.length - bare.length, kind⟩

/-- What may follow an assigned name: nothing, or an equals sign and the value. -/
def assignment? (make : Option AssignedValue → SymbolKind) (tail : Text) : Option SymbolKind :=
  match Text.trimStart tail with
  | [] => some (make none)
  | '=' :: value => some (make (assigned? value))
  | _ => none

/-- The parameters in the parentheses behind a name. An unclosed list counts for nothing. -/
def parenthesised (tail : Text) : List Parameter :=
  match Text.trimStart tail with
  | '(' :: rest =>
    match Text.cut? ')' rest with
    | some (inside, _) => parameterNames ',' inside
    | none => []
  | _ => []

/-- The parameters between the name of a pseudocommand and its body. -/
def operands (tail : Text) : List Parameter :=
  parameterNames ':' (tail.takeWhile (· != '\x7b'))

def directive? (d : Text) (keyword : String) (kind? : Text → Option SymbolKind) :
    Option Declaration :=
  (Source.afterKeywordSpace? keyword.toList d).bind fun rest => named? d rest kind?

def evalVar? (d : Text) : Option Declaration :=
  (Source.afterKeywordSpace? ".eval".toList d).bind fun rest =>
    (Source.afterKeywordSpace? "var".toList rest).bind fun rest => named? d rest (assignment? .var)

def label? (d : Text) : Option Declaration :=
  named? d d fun tail =>
    match Text.trimStart tail with
    | ':' :: _ => some .namedLabel
    | _ => none

/-- The declaration at the start of a text. A text that starts with an exclamation mark holds a
multi-label, which declares no symbol. -/
def read? (d : Text) : Option Declaration :=
  if d.head? = some '!' then none
  else
    directive? d ".label" (assignment? .label)
      <|> directive? d ".const" (assignment? .constant)
      <|> directive? d ".var" (assignment? .var)
      <|> evalVar? d
      <|> directive? d "#define" (fun _ => some .flag)
      <|> directive? d ".macro" (fun tail => some (.macroDef (parenthesised tail)))
      <|> directive? d ".function" (fun tail => some (.function (parenthesised tail)))
      <|> directive? d ".pseudocommand" (fun tail => some (.pseudoCommand (operands tail)))
      <|> directive? d ".namespace" (fun _ => some .nameSpace)
      <|> directive? d ".filenamespace" (fun _ => some .nameSpace)
      <|> label? d

end Declaration

end AsmLens
