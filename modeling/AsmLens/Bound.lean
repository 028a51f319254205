/-!
# Bounds of fixed-width numbers

Positions, versions and literals are held in a fixed number of bits. Each bound is the first
value that does not fit.
-/

namespace AsmLens.Bound

def signedWord : Nat := 0x80000000

def word : Nat := 0x100000000

def signedLong : Nat := 0x8000000000000000

def long : Nat := 0x10000000000000000

end AsmLens.Bound
