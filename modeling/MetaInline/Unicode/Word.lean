import MetaInline.Unicode.Identifier

namespace MetaInline.Unicode

/-- The characters that continue a name but are no word characters, and the other way round. -/
def wordDifference : Ranges := ⟨#[
    0xb7, 0xb8, 0x387, 0x388, 0x488, 0x48a, 0x1369, 0x1372, 0x19da, 0x19db, 0x1abe, 0x1abf,
    0x20dd, 0x20e1, 0x20e2, 0x20e5, 0x2118, 0x2119, 0x212e, 0x212f, 0x24b6, 0x24ea, 0x2e2f,
    0x2e30, 0x309b, 0x309d, 0x30fb, 0x30fc, 0xa670, 0xa673, 0xff65, 0xff66, 0x1f130, 0x1f14a,
    0x1f150, 0x1f16a, 0x1f170, 0x1f18a]⟩

def isWord (c : Char) : Bool :=
  if c.toNat < 128 then isAsciiLetter c || isAsciiDigit c || c == '_'
  else idContinue.contains c.toNat != wordDifference.contains c.toNat

def decimalDigits : Ranges := ⟨#[
    0x30, 0x3a, 0x660, 0x66a, 0x6f0, 0x6fa, 0x7c0, 0x7ca, 0x966, 0x970, 0x9e6, 0x9f0, 0xa66,
    0xa70, 0xae6, 0xaf0, 0xb66, 0xb70, 0xbe6, 0xbf0, 0xc66, 0xc70, 0xce6, 0xcf0, 0xd66, 0xd70,
    0xde6, 0xdf0, 0xe50, 0xe5a, 0xed0, 0xeda, 0xf20, 0xf2a, 0x1040, 0x104a, 0x1090, 0x109a,
    0x17e0, 0x17ea, 0x1810, 0x181a, 0x1946, 0x1950, 0x19d0, 0x19da, 0x1a80, 0x1a8a, 0x1a90,
    0x1a9a, 0x1b50, 0x1b5a, 0x1bb0, 0x1bba, 0x1c40, 0x1c4a, 0x1c50, 0x1c5a, 0xa620, 0xa62a,
    0xa8d0, 0xa8da, 0xa900, 0xa90a, 0xa9d0, 0xa9da, 0xa9f0, 0xa9fa, 0xaa50, 0xaa5a, 0xabf0,
    0xabfa, 0xff10, 0xff1a, 0x104a0, 0x104aa, 0x10d30, 0x10d3a, 0x10d40, 0x10d4a, 0x11066,
    0x11070, 0x110f0, 0x110fa, 0x11136, 0x11140, 0x111d0, 0x111da, 0x112f0, 0x112fa, 0x11450,
    0x1145a, 0x114d0, 0x114da, 0x11650, 0x1165a, 0x116c0, 0x116ca, 0x116d0, 0x116e4, 0x11730,
    0x1173a, 0x118e0, 0x118ea, 0x11950, 0x1195a, 0x11bf0, 0x11bfa, 0x11c50, 0x11c5a, 0x11d50,
    0x11d5a, 0x11da0, 0x11daa, 0x11de0, 0x11dea, 0x11f50, 0x11f5a, 0x16130, 0x1613a, 0x16a60,
    0x16a6a, 0x16ac0, 0x16aca, 0x16b50, 0x16b5a, 0x16d70, 0x16d7a, 0x1ccf0, 0x1ccfa, 0x1d7ce,
    0x1d800, 0x1e140, 0x1e14a, 0x1e2f0, 0x1e2fa, 0x1e4f0, 0x1e4fa, 0x1e5f1, 0x1e5fb, 0x1e950,
    0x1e95a, 0x1fbf0, 0x1fbfa]⟩

def isDigit (c : Char) : Bool :=
  if c.toNat < 128 then isAsciiDigit c else decimalDigits.contains c.toNat

end MetaInline.Unicode
