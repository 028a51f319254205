import AsmLens.Assist.Spot
import AsmLens.Firsts
import AsmLens.Instruction.Preprocessor
import AsmLens.Instruction.Table

/-!
# Completion

The items that may follow what has been typed: instructions, directives, and the symbols that
can be seen from the line. Where several symbols share a name, the first of them is offered.
A directive replaces the token in front of the cursor, and every directive is offered.
-/

namespace AsmLens

/-- The icon an editor shows for an item. -/
inductive CompletionKind where
  | method
  | function
  | var
  | nameSpace
  | keyword
  | reference
  | constant
  | typeParameter
  deriving DecidableEq

structure CompletionItem where
  label : Text
  kind : CompletionKind
  detail : Option Text := none
  /-- Markdown that describes the item. -/
  documentation : Option Text := none
  sortText : Option Text := none
  filterText : Option Text := none
  /-- The part of the line that the label replaces. -/
  replaces : Option EditorRange := none

namespace CompletionItem

def nonempty (t : Text) : Option Text := if t.isEmpty then none else some t

/-- The item of an instruction. Undocumented ones sort behind the others. -/
def ofInstruction (i : Instruction) : CompletionItem where
  label := i.mnemonic.toList
  kind := .keyword
  detail := some i.description.toList
  documentation := nonempty i.markdown
  sortText := some ((if i.documented then "0_" else "1_").toList ++ i.mnemonic.toList)

def ofDirective (replace : EditorRange) (d : DirectiveEntry) : CompletionItem where
  label := d.name
  kind := .keyword
  detail := nonempty d.usage
  documentation := nonempty d.summary
  filterText := some d.name
  replaces := some replace

def kindOf : Category → CompletionKind
  | .namedLabel | .label => .reference
  | .constant | .flag => .constant
  | .var => .var
  | .function => .function
  | .macroDef | .pseudoCommand => .method
  | .nameSpace => .nameSpace
  | .parameter => .typeParameter

/-- The item of a symbol. Built-in ones sort behind the others. -/
def ofSymbol (s : Symbol) : CompletionItem where
  label := s.name
  kind := kindOf s.category
  detail := some s.signature
  documentation := nonempty (s.doc.getD [])
  sortText := some ((if s.isBuiltin then "2_" else "0_").toList ++ s.name)

end CompletionItem

/-- A preprocessor directive in the form of a reported one. -/
def PreprocessorDirective.toEntry (d : PreprocessorDirective) : DirectiveEntry :=
  ⟨d.name.toList, d.usage.toList, d.summary.toList⟩

namespace Completion

/-- The preprocessor directives of a report, or the known ones where it lists none. -/
def preprocessorEntries (r : Report) : List DirectiveEntry :=
  if r.preprocessor.isEmpty then PreprocessorDirective.all.map PreprocessorDirective.toEntry
  else r.preprocessor

def visibleSymbols (snapshot : Snapshot) (row : Nat) (category : Category) : List Symbol :=
  (snapshot.catalogue.visibleFrom (snapshot.scopeAt row)).filter (·.category == category)

def itemsOf (snapshot : Snapshot) (spot : Spot) (offer : Cursor.Offer) : List CompletionItem :=
  match offer with
  | .instructions => Instruction.all.map CompletionItem.ofInstruction
  | .directives => snapshot.report.directives.map (CompletionItem.ofDirective spot.tokenRange)
  | .preprocessorDirectives =>
    (preprocessorEntries snapshot.report).map (CompletionItem.ofDirective spot.tokenRange)
  | other =>
    match other.category? with
    | some category =>
      (visibleSymbols snapshot spot.row category).map CompletionItem.ofSymbol
    | none => []

/-- Whether a place is the start of a directive, where names are kept as often as they occur. -/
def keepsRepeats : Cursor.Place → Bool
  | .directiveStart | .preprocessorStart => true
  | _ => false

def atSpot (snapshot : Snapshot) (spot : Spot) : List CompletionItem :=
  let place := Cursor.place snapshot.catalogue snapshot.report spot.context
  let items := place.offers.flatMap (itemsOf snapshot spot)
  if keepsRepeats place then items else firsts (·.label) items

def provide (snapshot : Snapshot) (text : Text) (p : Position) : List CompletionItem :=
  match Spot.at? text p with
  | some spot => atSpot snapshot spot
  | none => []

end Completion

end AsmLens
