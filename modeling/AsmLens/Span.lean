import AsmLens.Text.Basic

/-!
# Spans of source

A span lies in one reported file and runs from its start position up to, and not including, its
end position. Lines and columns count from zero and columns count characters.
-/

namespace AsmLens

/-- A stretch of one source file. -/
structure Span where
  startLine : Nat
  startColumn : Nat
  endLine : Nat
  endColumn : Nat
  file : Nat
  deriving DecidableEq, Inhabited

namespace Span

/-- The empty span at the start of file zero. -/
def origin : Span := ⟨0, 0, 0, 0, 0⟩

def onLine (file line start stop : Nat) : Span := ⟨line, start, line, stop, file⟩

def Before (line column line' column' : Nat) : Prop :=
  line < line' ∨ (line = line' ∧ column < column')

instance (l c l' c' : Nat) : Decidable (Before l c l' c') :=
  inferInstanceAs (Decidable (_ ∨ _))

/-- The last line a span reaches. A span never ends above its start. -/
def lastLine (s : Span) : Nat := max s.endLine s.startLine

/-- A span covers the positions from its start up to its end, in line-then-column order. -/
def Covers (s : Span) (line column : Nat) : Prop :=
  ¬ Before line column s.startLine s.startColumn ∧ Before line column s.lastLine s.endColumn

instance (s : Span) (l c : Nat) : Decidable (s.Covers l c) :=
  inferInstanceAs (Decidable (_ ∧ _))

end Span

end AsmLens
