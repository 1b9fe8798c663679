/-! # Opcodes

The low octet of the first unit of an instruction is its opcode.  It fixes the mnemonic, the
format of the operands and what an index among them refers to.  Some opcodes are not
assigned. -/
set_option autoImplicit false
namespace ByteListing.Dex

/-- How operands are laid out in the units of an instruction.  The first digit of a name counts
the units, the second one the registers, and the letters say what else there is. -/
inductive Format where
  | f10x
  | f12x
  | f11n
  | f11x
  | f10t
  | f20t
  | f22x
  | f21t
  | f21s
  | f21h
  | f21c
  | f23x
  | f22b
  | f22t
  | f22s
  | f22c
  | f30t
  | f32x
  | f31i
  | f31t
  | f31c
  | f35c
  | f3rc
  | f45cc
  | f4rcc
  | f51l
deriving Repr, DecidableEq

namespace Format

def name : Format → String
  | f10x => "10x"
  | f12x => "12x"
  | f11n => "11n"
  | f11x => "11x"
  | f10t => "10t"
  | f20t => "20t"
  | f22x => "22x"
  | f21t => "21t"
  | f21s => "21s"
  | f21h => "21h"
  | f21c => "21c"
  | f23x => "23x"
  | f22b => "22b"
  | f22t => "22t"
  | f22s => "22s"
  | f22c => "22c"
  | f30t => "30t"
  | f32x => "32x"
  | f31i => "31i"
  | f31t => "31t"
  | f31c => "31c"
  | f35c => "35c"
  | f3rc => "3rc"
  | f45cc => "45cc"
  | f4rcc => "4rcc"
  | f51l => "51l"

def units : Format → Nat
  | f10x | f12x | f11n | f11x | f10t => 1
  | f20t | f22x | f21t | f21s | f21h | f21c | f23x | f22b | f22t
  | f22s | f22c => 2
  | f30t | f32x | f31i | f31t | f31c | f35c | f3rc => 3
  | f45cc | f4rcc => 4
  | f51l => 5

end Format

inductive ReferenceKind where
  | string
  | typeId
  | field
  | method
  | proto
  | callSite
  | methodHandle
deriving Repr, DecidableEq

namespace ReferenceKind

def label : ReferenceKind → String
  | string => "string"
  | typeId => "type"
  | field => "field"
  | method => "method"
  | proto => "proto"
  | callSite => "call_site"
  | methodHandle => "method_handle"

end ReferenceKind

structure Opcode where
  code : Nat
  name : String
  format : Format
  reference : Option ReferenceKind
deriving Repr, DecidableEq

structure OpcodeFamily where
  first : Nat
  format : Format
  reference : Option ReferenceKind
  names : List String

namespace OpcodeFamily

def opcodes (family : OpcodeFamily) : List Opcode :=
  family.names.mapIdx fun index name =>
    ⟨family.first + index, name, family.format, family.reference⟩

end OpcodeFamily

namespace Opcode

def families : List OpcodeFamily :=
  [⟨0x00, .f10x, none, ["nop"]⟩,
    ⟨0x01, .f12x, none, ["move"]⟩,
    ⟨0x02, .f22x, none, ["move/from16"]⟩,
    ⟨0x03, .f32x, none, ["move/16"]⟩,
    ⟨0x04, .f12x, none, ["move-wide"]⟩,
    ⟨0x05, .f22x, none, ["move-wide/from16"]⟩,
    ⟨0x06, .f32x, none, ["move-wide/16"]⟩,
    ⟨0x07, .f12x, none, ["move-object"]⟩,
    ⟨0x08, .f22x, none, ["move-object/from16"]⟩,
    ⟨0x09, .f32x, none, ["move-object/16"]⟩,
    ⟨0x0A, .f11x, none, ["move-result", "move-result-wide", "move-result-object",
      "move-exception"]⟩,
    ⟨0x0E, .f10x, none, ["return-void"]⟩,
    ⟨0x0F, .f11x, none, ["return", "return-wide", "return-object"]⟩,
    ⟨0x12, .f11n, none, ["const/4"]⟩,
    ⟨0x13, .f21s, none, ["const/16"]⟩,
    ⟨0x14, .f31i, none, ["const"]⟩,
    ⟨0x15, .f21h, none, ["const/high16"]⟩,
    ⟨0x16, .f21s, none, ["const-wide/16"]⟩,
    ⟨0x17, .f31i, none, ["const-wide/32"]⟩,
    ⟨0x18, .f51l, none, ["const-wide"]⟩,
    ⟨0x19, .f21h, none, ["const-wide/high16"]⟩,
    ⟨0x1A, .f21c, some .string, ["const-string"]⟩,
    ⟨0x1B, .f31c, some .string, ["const-string/jumbo"]⟩,
    ⟨0x1C, .f21c, some .typeId, ["const-class"]⟩,
    ⟨0x1D, .f11x, none, ["monitor-enter", "monitor-exit"]⟩,
    ⟨0x1F, .f21c, some .typeId, ["check-cast"]⟩,
    ⟨0x20, .f22c, some .typeId, ["instance-of"]⟩,
    ⟨0x21, .f12x, none, ["array-length"]⟩,
    ⟨0x22, .f21c, some .typeId, ["new-instance"]⟩,
    ⟨0x23, .f22c, some .typeId, ["new-array"]⟩,
    ⟨0x24, .f35c, some .typeId, ["filled-new-array"]⟩,
    ⟨0x25, .f3rc, some .typeId, ["filled-new-array/range"]⟩,
    ⟨0x26, .f31t, none, ["fill-array-data"]⟩,
    ⟨0x27, .f11x, none, ["throw"]⟩,
    ⟨0x28, .f10t, none, ["goto"]⟩,
    ⟨0x29, .f20t, none, ["goto/16"]⟩,
    ⟨0x2A, .f30t, none, ["goto/32"]⟩,
    ⟨0x2B, .f31t, none, ["packed-switch", "sparse-switch"]⟩,
    ⟨0x2D, .f23x, none, ["cmpl-float", "cmpg-float", "cmpl-double", "cmpg-double", "cmp-long"]⟩,
    ⟨0x32, .f22t, none, ["if-eq", "if-ne", "if-lt", "if-ge", "if-gt", "if-le"]⟩,
    ⟨0x38, .f21t, none, ["if-eqz", "if-nez", "if-ltz", "if-gez", "if-gtz", "if-lez"]⟩,
    ⟨0x44, .f23x, none, ["aget", "aget-wide", "aget-object", "aget-boolean", "aget-byte",
      "aget-char", "aget-short", "aput", "aput-wide", "aput-object", "aput-boolean", "aput-byte",
      "aput-char", "aput-short"]⟩,
    ⟨0x52, .f22c, some .field, ["iget", "iget-wide", "iget-object", "iget-boolean", "iget-byte",
      "iget-char", "iget-short", "iput", "iput-wide", "iput-object", "iput-boolean", "iput-byte",
      "iput-char", "iput-short"]⟩,
    ⟨0x60, .f21c, some .field, ["sget", "sget-wide", "sget-object", "sget-boolean", "sget-byte",
      "sget-char", "sget-short", "sput", "sput-wide", "sput-object", "sput-boolean", "sput-byte",
      "sput-char", "sput-short"]⟩,
    ⟨0x6E, .f35c, some .method, ["invoke-virtual", "invoke-super", "invoke-direct",
      "invoke-static", "invoke-interface"]⟩,
    ⟨0x74, .f3rc, some .method, ["invoke-virtual/range", "invoke-super/range",
      "invoke-direct/range", "invoke-static/range", "invoke-interface/range"]⟩,
    ⟨0x7B, .f12x, none, ["neg-int", "not-int", "neg-long", "not-long", "neg-float", "neg-double",
      "int-to-long", "int-to-float", "int-to-double", "long-to-int", "long-to-float",
      "long-to-double", "float-to-int", "float-to-long", "float-to-double", "double-to-int",
      "double-to-long", "double-to-float", "int-to-byte", "int-to-char", "int-to-short"]⟩,
    ⟨0x90, .f23x, none, ["add-int", "sub-int", "mul-int", "div-int", "rem-int", "and-int",
      "or-int", "xor-int", "shl-int", "shr-int", "ushr-int", "add-long", "sub-long", "mul-long",
      "div-long", "rem-long", "and-long", "or-long", "xor-long", "shl-long", "shr-long",
      "ushr-long", "add-float", "sub-float", "mul-float", "div-float", "rem-float", "add-double",
      "sub-double", "mul-double", "div-double", "rem-double"]⟩,
    ⟨0xB0, .f12x, none, ["add-int/2addr", "sub-int/2addr", "mul-int/2addr", "div-int/2addr",
      "rem-int/2addr", "and-int/2addr", "or-int/2addr", "xor-int/2addr", "shl-int/2addr",
      "shr-int/2addr", "ushr-int/2addr", "add-long/2addr", "sub-long/2addr", "mul-long/2addr",
      "div-long/2addr", "rem-long/2addr", "and-long/2addr", "or-long/2addr", "xor-long/2addr",
      "shl-long/2addr", "shr-long/2addr", "ushr-long/2addr", "add-float/2addr",
      "sub-float/2addr", "mul-float/2addr", "div-float/2addr", "rem-float/2addr",
      "add-double/2addr", "sub-double/2addr", "mul-double/2addr", "div-double/2addr",
      "rem-double/2addr"]⟩,
    ⟨0xD0, .f22s, none, ["add-int/lit16", "rsub-int", "mul-int/lit16", "div-int/lit16",
      "rem-int/lit16", "and-int/lit16", "or-int/lit16", "xor-int/lit16"]⟩,
    ⟨0xD8, .f22b, none, ["add-int/lit8", "rsub-int/lit8", "mul-int/lit8", "div-int/lit8",
      "rem-int/lit8", "and-int/lit8", "or-int/lit8", "xor-int/lit8", "shl-int/lit8",
      "shr-int/lit8", "ushr-int/lit8"]⟩,
    ⟨0xFA, .f45cc, some .method, ["invoke-polymorphic"]⟩,
    ⟨0xFB, .f4rcc, some .method, ["invoke-polymorphic/range"]⟩,
    ⟨0xFC, .f35c, some .callSite, ["invoke-custom"]⟩,
    ⟨0xFD, .f3rc, some .callSite, ["invoke-custom/range"]⟩,
    ⟨0xFE, .f21c, some .methodHandle, ["const-method-handle"]⟩,
    ⟨0xFF, .f21c, some .proto, ["const-method-type"]⟩]

def all : List Opcode := families.flatMap OpcodeFamily.opcodes

def ofCode? (code : Nat) : Option Opcode := all.find? fun opcode => opcode.code == code

end Opcode

end ByteListing.Dex
