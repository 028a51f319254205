import AsmLens.Instruction.Basic

/-!
# The instruction table

The documented instructions of the 6502 in alphabetical order, followed by the undocumented ones.
A mnemonic is looked up in any case, and an addressing suffix such as `.z` or `.abs` is ignored.
-/

namespace AsmLens.Instruction

def impliedOnly : List AddressingMode :=
  [.implied]

def branch : List AddressingMode :=
  [.relative]

/-- Arithmetic, logic and comparison with the accumulator, and loading it. -/
def arithmetic : List AddressingMode :=
  [.immediate, .zeroPage, .zeroPageX, .absolute, .absoluteX, .absoluteY, .indirectX, .indirectY]

def storeA : List AddressingMode :=
  [.zeroPage, .zeroPageX, .absolute, .absoluteX, .absoluteY, .indirectX, .indirectY]

def shift : List AddressingMode :=
  [.accumulator, .zeroPage, .zeroPageX, .absolute, .absoluteX]

def memory : List AddressingMode :=
  [.zeroPage, .zeroPageX, .absolute, .absoluteX]

def bitTest : List AddressingMode :=
  [.zeroPage, .absolute]

def compareIndex : List AddressingMode :=
  [.immediate, .zeroPage, .absolute]

def loadX : List AddressingMode :=
  [.immediate, .zeroPage, .zeroPageY, .absolute, .absoluteY]

def loadY : List AddressingMode :=
  [.immediate, .zeroPage, .zeroPageX, .absolute, .absoluteX]

def storeX : List AddressingMode :=
  [.zeroPage, .zeroPageY, .absolute]

def storeY : List AddressingMode :=
  [.zeroPage, .zeroPageX, .absolute]

def jump : List AddressingMode :=
  [.absolute, .indirect]

def call : List AddressingMode :=
  [.absolute]

/-- Undocumented instructions with an immediate operand. -/
def immediateOnly : List AddressingMode :=
  [.immediate]

/-- Undocumented instructions that change memory and the accumulator. -/
def combined : List AddressingMode :=
  [.zeroPage, .zeroPageX, .absolute, .absoluteX, .absoluteY, .indirectX, .indirectY]

def storeAX : List AddressingMode :=
  [.zeroPage, .zeroPageY, .absolute, .indirectX]

def loadAX : List AddressingMode :=
  [.immediate, .zeroPage, .zeroPageY, .absolute, .absoluteY, .indirectX, .indirectY]

/-- Undocumented instructions indexed by Y. -/
def absoluteYOnly : List AddressingMode :=
  [.absoluteY]

/-- Undocumented instructions indexed by X. -/
def absoluteXOnly : List AddressingMode :=
  [.absoluteX]

/-- Storing with the high byte of the address. -/
def storeHigh : List AddressingMode :=
  [.absoluteY, .indirectY]

def documentedTable : List Instruction :=
  [⟨"adc", "Add memory to accumulator with carry.", "NV----ZC", arithmetic, true⟩,
   ⟨"and", "AND memory with accumulator.", "N-----Z-", arithmetic, true⟩,
   ⟨"asl", "Shift one bit left.", "N-----ZC", shift, true⟩,
   ⟨"bcc", "Branch on carry clear.", "", branch, true⟩,
   ⟨"bcs", "Branch on carry set.", "", branch, true⟩,
   ⟨"beq", "Branch on result zero.", "", branch, true⟩,
   ⟨"bit", "Test bits in memory with accumulator.", "NV----Z-", bitTest, true⟩,
   ⟨"bmi", "Branch on result minus.", "", branch, true⟩,
   ⟨"bne", "Branch on result not zero.", "", branch, true⟩,
   ⟨"bpl", "Branch on result plus.", "", branch, true⟩,
   ⟨"brk", "Force break.", "---B-I--", impliedOnly, true⟩,
   ⟨"bvc", "Branch on overflow clear.", "", branch, true⟩,
   ⟨"bvs", "Branch on overflow set.", "", branch, true⟩,
   ⟨"clc", "Clear carry flag.", "-------C", impliedOnly, true⟩,
   ⟨"cld", "Clear decimal mode.", "----D---", impliedOnly, true⟩,
   ⟨"cli", "Clear interrupt disable bit.", "-----I--", impliedOnly, true⟩,
   ⟨"clv", "Clear overflow flag.", "-V------", impliedOnly, true⟩,
   ⟨"cmp", "Compare memory with accumulator.", "N-----ZC", arithmetic, true⟩,
   ⟨"cpx", "Compare memory and index X.", "N-----ZC", compareIndex, true⟩,
   ⟨"cpy", "Compare memory and index Y.", "N-----ZC", compareIndex, true⟩,
   ⟨"dec", "Decrement memory by one.", "N-----Z-", memory, true⟩,
   ⟨"dex", "Decrement index X by one.", "N-----Z-", impliedOnly, true⟩,
   ⟨"dey", "Decrement index Y by one.", "N-----Z-", impliedOnly, true⟩,
   ⟨"eor", "Exclusive-OR memory with accumulator.", "N-----Z-", arithmetic, true⟩,
   ⟨"inc", "Increment memory by one.", "N-----Z-", memory, true⟩,
   ⟨"inx", "Increment index X by one.", "N-----Z-", impliedOnly, true⟩,
   ⟨"iny", "Increment index Y by one.", "N-----Z-", impliedOnly, true⟩,
   ⟨"jmp", "Jump to new location.", "", jump, true⟩,
   ⟨"jsr", "Jump to new location saving return address.", "", call, true⟩,
   ⟨"lda", "Load accumulator with memory.", "N-----Z-", arithmetic, true⟩,
   ⟨"ldx", "Load index X with memory.", "N-----Z-", loadX, true⟩,
   ⟨"ldy", "Load index Y with memory.", "N-----Z-", loadY, true⟩,
   ⟨"lsr", "Shift one bit right.", "N-----ZC", shift, true⟩,
   ⟨"nop", "No operation.", "", impliedOnly, true⟩,
   ⟨"ora", "OR memory with accumulator.", "N-----Z-", arithmetic, true⟩,
   ⟨"pha", "Push accumulator on stack.", "", impliedOnly, true⟩,
   ⟨"php", "Push processor status on stack.", "", impliedOnly, true⟩,
   ⟨"pla", "Pull accumulator from stack.", "N-----Z-", impliedOnly, true⟩,
   ⟨"plp", "Pull processor status from stack.", "NV-BDIZC", impliedOnly, true⟩,
   ⟨"rol", "Rotate one bit left.", "N-----ZC", shift, true⟩,
   ⟨"ror", "Rotate one bit right.", "N-----ZC", shift, true⟩,
   ⟨"rti", "Return from interrupt.", "NV-BDIZC", impliedOnly, true⟩,
   ⟨"rts", "Return from subroutine.", "", impliedOnly, true⟩,
   ⟨"sbc", "Subtract memory from accumulator with borrow.", "NV----ZC", arithmetic, true⟩,
   ⟨"sec", "Set carry flag.", "-------C", impliedOnly, true⟩,
   ⟨"sed", "Set decimal flag.", "----D---", impliedOnly, true⟩,
   ⟨"sei", "Set interrupt disable status.", "-----I--", impliedOnly, true⟩,
   ⟨"sta", "Store accumulator in memory.", "", storeA, true⟩,
   ⟨"stx", "Store index X in memory.", "", storeX, true⟩,
   ⟨"sty", "Store index Y in memory.", "", storeY, true⟩,
   ⟨"tax", "Transfer accumulator to index X.", "N-----Z-", impliedOnly, true⟩,
   ⟨"tay", "Transfer accumulator to index Y.", "N-----Z-", impliedOnly, true⟩,
   ⟨"tsx", "Transfer stack pointer to index X.", "N-----Z-", impliedOnly, true⟩,
   ⟨"txa", "Transfer index X to accumulator.", "N-----Z-", impliedOnly, true⟩,
   ⟨"txs", "Transfer index X to stack pointer.", "", impliedOnly, true⟩,
   ⟨"tya", "Transfer index Y to accumulator.", "N-----Z-", impliedOnly, true⟩]

def undocumentedTable : List Instruction :=
  [⟨"slo", "ASL memory, then OR the result into the accumulator.", "N-----ZC", combined, false⟩,
   ⟨"rla", "ROL memory, then AND the result into the accumulator.", "N-----ZC", combined, false⟩,
   ⟨"sre", "LSR memory, then EOR the result into the accumulator.", "N-----ZC", combined, false⟩,
   ⟨"rra", "ROR memory, then ADC the result to the accumulator.", "NV----ZC", combined, false⟩,
   ⟨"dcp", "DEC memory, then CMP it with the accumulator.", "N-----ZC", combined, false⟩,
   ⟨"isc", "INC memory, then SBC it from the accumulator.", "NV----ZC", combined, false⟩,
   ⟨"sax", "Store accumulator AND index X.", "", storeAX, false⟩,
   ⟨"lax", "Load accumulator and index X with memory.", "N-----Z-", loadAX, false⟩,
   ⟨"anc", "AND immediate, copying bit 7 into carry.", "N-----ZC", immediateOnly, false⟩,
   ⟨"anc2", "Alternate opcode of ANC.", "N-----ZC", immediateOnly, false⟩,
   ⟨"alr", "AND immediate, then LSR the accumulator.", "N-----ZC", immediateOnly, false⟩,
   ⟨"arr", "AND immediate, then ROR the accumulator.", "NV----ZC", immediateOnly, false⟩,
   ⟨"axs", "X = (A AND X) - immediate, without borrow.", "N-----ZC", immediateOnly, false⟩,
   ⟨"sbc2", "Alternate opcode of SBC immediate.", "NV----ZC", immediateOnly, false⟩,
   ⟨"xaa", "Unstable: A = (A OR magic) AND X AND immediate.", "N-----Z-", immediateOnly, false⟩,
   ⟨"las", "Load A, X and SP with memory AND SP.", "N-----Z-", absoluteYOnly, false⟩,
   ⟨"tas", "SP = A AND X, then store SP AND high byte + 1.", "", absoluteYOnly, false⟩,
   ⟨"ahx", "Store A AND X AND high byte + 1.", "", storeHigh, false⟩,
   ⟨"shx", "Store X AND high byte + 1.", "", absoluteYOnly, false⟩,
   ⟨"shy", "Store Y AND high byte + 1.", "", absoluteXOnly, false⟩]

/-- All instructions, the documented ones first. -/
def all : List Instruction := documentedTable ++ undocumentedTable

/-- The mnemonic of a word without an addressing suffix, in lower case. -/
def key (word : Text) : Text := Text.lower (word.takeWhile (· != '.'))

def find? (word : Text) : Option Instruction :=
  all.find? fun i => i.mnemonic.toList == key word

def isInstruction (word : Text) : Bool := (find? word).isSome

end AsmLens.Instruction
