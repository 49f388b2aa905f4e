import C0.Instruction

namespace C0

namespace Op

/-- All instructions without operand. -/
def all : List Op :=
  [nop, pop, dup, load8, load16, load32, load64, store8, store16, store32, store64, alloc, free,
   addI, subI, mulI, divI, addF, subF, mulF, divF, divU, shl, shr, and, or, xor, not, inv,
   cmpI, cmpU, cmpF, negI, negF, itof, ftoi, shrl, setLt, setGt, ret,
   scanI, scanC, scanF, printI, printC, printF, printS, println, panic]

/-- The byte that stands for the instruction. -/
def opcode : Op → UInt8
  | nop => 0x00
  | pop => 0x02
  | dup => 0x04
  | load8 => 0x10
  | load16 => 0x11
  | load32 => 0x12
  | load64 => 0x13
  | store8 => 0x14
  | store16 => 0x15
  | store32 => 0x16
  | store64 => 0x17
  | alloc => 0x18
  | free => 0x19
  | addI => 0x20
  | subI => 0x21
  | mulI => 0x22
  | divI => 0x23
  | addF => 0x24
  | subF => 0x25
  | mulF => 0x26
  | divF => 0x27
  | divU => 0x28
  | shl => 0x29
  | shr => 0x2a
  | and => 0x2b
  | or => 0x2c
  | xor => 0x2d
  | not => 0x2e
  | inv => 0x2f
  | cmpI => 0x30
  | cmpU => 0x31
  | cmpF => 0x32
  | negI => 0x34
  | negF => 0x35
  | itof => 0x36
  | ftoi => 0x37
  | shrl => 0x38
  | setLt => 0x39
  | setGt => 0x3a
  | ret => 0x49
  | scanI => 0x50
  | scanC => 0x51
  | scanF => 0x52
  | printI => 0x54
  | printC => 0x55
  | printF => 0x56
  | printS => 0x57
  | println => 0x58
  | panic => 0xfe

end Op

namespace Indexed

/-- The byte that stands for the instruction. -/
def opcode : Indexed → UInt8
  | popn => 0x03
  | loca => 0x0a
  | arga => 0x0b
  | globa => 0x0c
  | stackalloc => 0x1a
  | call => 0x48
  | callname => 0x4a

end Indexed

namespace Branch

/-- The byte that stands for the branch. -/
def opcode : Branch → UInt8
  | always => 0x41
  | onFalse => 0x42
  | onTrue => 0x43

end Branch

namespace Instruction

/-- The byte that stands for the instruction. -/
def opcode : Instruction → UInt8
  | plain op => op.opcode
  | push _ => 0x01
  | indexed op _ => op.opcode
  | branch test _ => test.opcode

/-- The instruction of an opcode with the low bits of a word as its operand, as many as it takes.
A byte that stands for no instruction with an operand is looked up among those without one. -/
def decode? (opcode : UInt8) (word : UInt64) : Option Instruction :=
  match opcode with
  | 0x01 => some (push word)
  | 0x03 => some (indexed .popn word.toUInt32)
  | 0x0a => some (indexed .loca word.toUInt32)
  | 0x0b => some (indexed .arga word.toUInt32)
  | 0x0c => some (indexed .globa word.toUInt32)
  | 0x1a => some (indexed .stackalloc word.toUInt32)
  | 0x41 => some (branch .always word.toUInt32.toInt32)
  | 0x42 => some (branch .onFalse word.toUInt32.toInt32)
  | 0x43 => some (branch .onTrue word.toUInt32.toInt32)
  | 0x48 => some (indexed .call word.toUInt32)
  | 0x4a => some (indexed .callname word.toUInt32)
  | _ => (Op.all.find? (·.opcode == opcode)).map plain

end Instruction

end C0
