namespace MetaInline.Unicode

/-- Characters `first, first + step, …` (`count` of them), each of whose successors in its ring is
`shift` further on. -/
structure CaseRun where
  first : Nat
  count : Nat
  step : Nat
  shift : Int

namespace CaseRun

def contains (r : CaseRun) (c : Nat) : Bool :=
  r.first ≤ c && (c - r.first) % r.step == 0 && (c - r.first) / r.step < r.count

end CaseRun

def caseRuns : Array CaseRun := #[
    ⟨0x41, 26, 1, 32⟩, ⟨0x61, 10, 1, -32⟩, ⟨0x6b, 1, 1, 8383⟩, ⟨0x6c, 8, 2, -32⟩,
    ⟨0x6d, 6, 1, -32⟩, ⟨0x73, 1, 1, 268⟩, ⟨0x75, 6, 1, -32⟩, ⟨0xb5, 1, 1, 743⟩, ⟨0xc0, 23, 1, 32⟩,
    ⟨0xd8, 7, 1, 32⟩, ⟨0xdf, 1, 1, 7615⟩, ⟨0xe0, 16, 2, -32⟩, ⟨0xe1, 4, 1, -32⟩,
    ⟨0xe5, 1, 1, 8262⟩, ⟨0xe7, 16, 1, -32⟩, ⟨0xf9, 6, 1, -32⟩, ⟨0xff, 1, 1, 121⟩,
    ⟨0x100, 24, 2, 1⟩, ⟨0x101, 24, 2, -1⟩, ⟨0x132, 3, 2, 1⟩, ⟨0x133, 3, 2, -1⟩, ⟨0x139, 8, 2, 1⟩,
    ⟨0x13a, 8, 2, -1⟩, ⟨0x14a, 23, 2, 1⟩, ⟨0x14b, 23, 2, -1⟩, ⟨0x178, 1, 1, -121⟩,
    ⟨0x179, 3, 2, 1⟩, ⟨0x17a, 3, 2, -1⟩, ⟨0x17f, 1, 1, -300⟩, ⟨0x180, 1, 1, 195⟩,
    ⟨0x181, 1, 1, 210⟩, ⟨0x182, 2, 2, 1⟩, ⟨0x183, 2, 2, -1⟩, ⟨0x186, 1, 1, 206⟩, ⟨0x187, 1, 1, 1⟩,
    ⟨0x188, 1, 1, -1⟩, ⟨0x189, 2, 1, 205⟩, ⟨0x18b, 1, 1, 1⟩, ⟨0x18c, 1, 1, -1⟩, ⟨0x18e, 1, 1, 79⟩,
    ⟨0x18f, 1, 1, 202⟩, ⟨0x190, 1, 1, 203⟩, ⟨0x191, 1, 1, 1⟩, ⟨0x192, 1, 1, -1⟩,
    ⟨0x193, 1, 1, 205⟩, ⟨0x194, 1, 1, 207⟩, ⟨0x195, 1, 1, 97⟩, ⟨0x196, 1, 1, 211⟩,
    ⟨0x197, 1, 1, 209⟩, ⟨0x198, 1, 1, 1⟩, ⟨0x199, 1, 1, -1⟩, ⟨0x19a, 1, 1, 163⟩,
    ⟨0x19b, 1, 1, 42561⟩, ⟨0x19c, 1, 1, 211⟩, ⟨0x19d, 1, 1, 213⟩, ⟨0x19e, 1, 1, 130⟩,
    ⟨0x19f, 1, 1, 214⟩, ⟨0x1a0, 3, 2, 1⟩, ⟨0x1a1, 3, 2, -1⟩, ⟨0x1a6, 1, 1, 218⟩, ⟨0x1a7, 1, 1, 1⟩,
    ⟨0x1a8, 1, 1, -1⟩, ⟨0x1a9, 1, 1, 218⟩, ⟨0x1ac, 1, 1, 1⟩, ⟨0x1ad, 1, 1, -1⟩,
    ⟨0x1ae, 1, 1, 218⟩, ⟨0x1af, 1, 1, 1⟩, ⟨0x1b0, 1, 1, -1⟩, ⟨0x1b1, 2, 1, 217⟩, ⟨0x1b3, 2, 2, 1⟩,
    ⟨0x1b4, 2, 2, -1⟩, ⟨0x1b7, 1, 1, 219⟩, ⟨0x1b8, 1, 1, 1⟩, ⟨0x1b9, 1, 1, -1⟩, ⟨0x1bc, 1, 1, 1⟩,
    ⟨0x1bd, 1, 1, -1⟩, ⟨0x1bf, 1, 1, 56⟩, ⟨0x1c4, 2, 1, 1⟩, ⟨0x1c6, 1, 1, -2⟩, ⟨0x1c7, 2, 1, 1⟩,
    ⟨0x1c9, 1, 1, -2⟩, ⟨0x1ca, 2, 1, 1⟩, ⟨0x1cc, 1, 1, -2⟩, ⟨0x1cd, 8, 2, 1⟩, ⟨0x1ce, 8, 2, -1⟩,
    ⟨0x1dd, 1, 1, -79⟩, ⟨0x1de, 9, 2, 1⟩, ⟨0x1df, 9, 2, -1⟩, ⟨0x1f1, 2, 1, 1⟩, ⟨0x1f3, 1, 1, -2⟩,
    ⟨0x1f4, 1, 1, 1⟩, ⟨0x1f5, 1, 1, -1⟩, ⟨0x1f6, 1, 1, -97⟩, ⟨0x1f7, 1, 1, -56⟩,
    ⟨0x1f8, 20, 2, 1⟩, ⟨0x1f9, 20, 2, -1⟩, ⟨0x220, 1, 1, -130⟩, ⟨0x222, 9, 2, 1⟩,
    ⟨0x223, 9, 2, -1⟩, ⟨0x23a, 1, 1, 10795⟩, ⟨0x23b, 1, 1, 1⟩, ⟨0x23c, 1, 1, -1⟩,
    ⟨0x23d, 1, 1, -163⟩, ⟨0x23e, 1, 1, 10792⟩, ⟨0x23f, 2, 1, 10815⟩, ⟨0x241, 1, 1, 1⟩,
    ⟨0x242, 1, 1, -1⟩, ⟨0x243, 1, 1, -195⟩, ⟨0x244, 1, 1, 69⟩, ⟨0x245, 1, 1, 71⟩,
    ⟨0x246, 5, 2, 1⟩, ⟨0x247, 5, 2, -1⟩, ⟨0x250, 1, 1, 10783⟩, ⟨0x251, 1, 1, 10780⟩,
    ⟨0x252, 1, 1, 10782⟩, ⟨0x253, 1, 1, -210⟩, ⟨0x254, 1, 1, -206⟩, ⟨0x256, 2, 1, -205⟩,
    ⟨0x259, 1, 1, -202⟩, ⟨0x25b, 1, 1, -203⟩, ⟨0x25c, 1, 1, 42319⟩, ⟨0x260, 1, 1, -205⟩,
    ⟨0x261, 1, 1, 42315⟩, ⟨0x263, 1, 1, -207⟩, ⟨0x264, 1, 1, 42343⟩, ⟨0x265, 1, 1, 42280⟩,
    ⟨0x266, 1, 1, 42308⟩, ⟨0x268, 1, 1, -209⟩, ⟨0x269, 1, 1, -211⟩, ⟨0x26a, 1, 1, 42308⟩,
    ⟨0x26b, 1, 1, 10743⟩, ⟨0x26c, 1, 1, 42305⟩, ⟨0x26f, 1, 1, -211⟩, ⟨0x271, 1, 1, 10749⟩,
    ⟨0x272, 1, 1, -213⟩, ⟨0x275, 1, 1, -214⟩, ⟨0x27d, 1, 1, 10727⟩, ⟨0x280, 1, 1, -218⟩,
    ⟨0x282, 1, 1, 42307⟩, ⟨0x283, 1, 1, -218⟩, ⟨0x287, 1, 1, 42282⟩, ⟨0x288, 1, 1, -218⟩,
    ⟨0x289, 1, 1, -69⟩, ⟨0x28a, 2, 1, -217⟩, ⟨0x28c, 1, 1, -71⟩, ⟨0x292, 1, 1, -219⟩,
    ⟨0x29d, 1, 1, 42261⟩, ⟨0x29e, 1, 1, 42258⟩, ⟨0x345, 1, 1, 84⟩, ⟨0x370, 2, 2, 1⟩,
    ⟨0x371, 2, 2, -1⟩, ⟨0x376, 1, 1, 1⟩, ⟨0x377, 1, 1, -1⟩, ⟨0x37b, 3, 1, 130⟩,
    ⟨0x37f, 1, 1, 116⟩, ⟨0x386, 1, 1, 38⟩, ⟨0x388, 3, 1, 37⟩, ⟨0x38c, 1, 1, 64⟩,
    ⟨0x38e, 2, 1, 63⟩, ⟨0x390, 1, 1, 7235⟩, ⟨0x391, 17, 1, 32⟩, ⟨0x3a3, 1, 1, 31⟩,
    ⟨0x3a4, 8, 1, 32⟩, ⟨0x3ac, 1, 1, -38⟩, ⟨0x3ad, 3, 1, -37⟩, ⟨0x3b0, 1, 1, 7219⟩,
    ⟨0x3b1, 2, 2, -32⟩, ⟨0x3b2, 1, 1, 30⟩, ⟨0x3b4, 2, 2, -32⟩, ⟨0x3b5, 1, 1, 64⟩,
    ⟨0x3b7, 1, 1, -32⟩, ⟨0x3b8, 1, 1, 25⟩, ⟨0x3b9, 1, 1, 7173⟩, ⟨0x3ba, 1, 1, 54⟩,
    ⟨0x3bb, 3, 2, -32⟩, ⟨0x3bc, 1, 1, -775⟩, ⟨0x3be, 2, 1, -32⟩, ⟨0x3c0, 1, 1, 22⟩,
    ⟨0x3c1, 1, 1, 48⟩, ⟨0x3c2, 1, 1, 1⟩, ⟨0x3c3, 3, 1, -32⟩, ⟨0x3c6, 1, 1, 15⟩,
    ⟨0x3c7, 2, 1, -32⟩, ⟨0x3c9, 1, 1, 7517⟩, ⟨0x3ca, 2, 1, -32⟩, ⟨0x3cc, 1, 1, -64⟩,
    ⟨0x3cd, 2, 1, -63⟩, ⟨0x3cf, 1, 1, 8⟩, ⟨0x3d0, 1, 1, -62⟩, ⟨0x3d1, 1, 1, 35⟩,
    ⟨0x3d5, 1, 1, -47⟩, ⟨0x3d6, 1, 1, -54⟩, ⟨0x3d7, 1, 1, -8⟩, ⟨0x3d8, 12, 2, 1⟩,
    ⟨0x3d9, 12, 2, -1⟩, ⟨0x3f0, 1, 1, -86⟩, ⟨0x3f1, 1, 1, -80⟩, ⟨0x3f2, 1, 1, 7⟩,
    ⟨0x3f3, 1, 1, -116⟩, ⟨0x3f4, 1, 1, -92⟩, ⟨0x3f5, 1, 1, -96⟩, ⟨0x3f7, 1, 1, 1⟩,
    ⟨0x3f8, 1, 1, -1⟩, ⟨0x3f9, 1, 1, -7⟩, ⟨0x3fa, 1, 1, 1⟩, ⟨0x3fb, 1, 1, -1⟩,
    ⟨0x3fd, 3, 1, -130⟩, ⟨0x400, 16, 1, 80⟩, ⟨0x410, 32, 1, 32⟩, ⟨0x430, 2, 1, -32⟩,
    ⟨0x432, 1, 1, 6222⟩, ⟨0x433, 7, 2, -32⟩, ⟨0x434, 1, 1, 6221⟩, ⟨0x436, 8, 1, -32⟩,
    ⟨0x43e, 1, 1, 6212⟩, ⟨0x440, 1, 1, -32⟩, ⟨0x441, 2, 1, 6210⟩, ⟨0x443, 7, 1, -32⟩,
    ⟨0x44a, 1, 1, 6204⟩, ⟨0x44b, 5, 1, -32⟩, ⟨0x450, 16, 1, -80⟩, ⟨0x460, 17, 2, 1⟩,
    ⟨0x461, 1, 1, -1⟩, ⟨0x463, 1, 1, 6180⟩, ⟨0x465, 15, 2, -1⟩, ⟨0x48a, 27, 2, 1⟩,
    ⟨0x48b, 27, 2, -1⟩, ⟨0x4c0, 1, 1, 15⟩, ⟨0x4c1, 7, 2, 1⟩, ⟨0x4c2, 7, 2, -1⟩,
    ⟨0x4cf, 1, 1, -15⟩, ⟨0x4d0, 48, 2, 1⟩, ⟨0x4d1, 48, 2, -1⟩, ⟨0x531, 38, 1, 48⟩,
    ⟨0x561, 38, 1, -48⟩, ⟨0x10a0, 38, 1, 7264⟩, ⟨0x10c7, 1, 1, 7264⟩, ⟨0x10cd, 1, 1, 7264⟩,
    ⟨0x10d0, 43, 1, 3008⟩, ⟨0x10fd, 3, 1, 3008⟩, ⟨0x13a0, 80, 1, 38864⟩, ⟨0x13f0, 6, 1, 8⟩,
    ⟨0x13f8, 6, 1, -8⟩, ⟨0x1c80, 1, 1, -6254⟩, ⟨0x1c81, 1, 1, -6253⟩, ⟨0x1c82, 1, 1, -6244⟩,
    ⟨0x1c83, 1, 1, -6242⟩, ⟨0x1c84, 1, 1, 1⟩, ⟨0x1c85, 1, 1, -6243⟩, ⟨0x1c86, 1, 1, -6236⟩,
    ⟨0x1c87, 1, 1, -6181⟩, ⟨0x1c88, 1, 1, 35266⟩, ⟨0x1c89, 1, 1, 1⟩, ⟨0x1c8a, 1, 1, -1⟩,
    ⟨0x1c90, 43, 1, -3008⟩, ⟨0x1cbd, 3, 1, -3008⟩, ⟨0x1d79, 1, 1, 35332⟩, ⟨0x1d7d, 1, 1, 3814⟩,
    ⟨0x1d8e, 1, 1, 35384⟩, ⟨0x1e00, 75, 2, 1⟩, ⟨0x1e01, 48, 2, -1⟩, ⟨0x1e61, 1, 1, 58⟩,
    ⟨0x1e63, 26, 2, -1⟩, ⟨0x1e9b, 1, 1, -59⟩, ⟨0x1e9e, 1, 1, -7615⟩, ⟨0x1ea0, 48, 2, 1⟩,
    ⟨0x1ea1, 48, 2, -1⟩, ⟨0x1f00, 8, 1, 8⟩, ⟨0x1f08, 8, 1, -8⟩, ⟨0x1f10, 6, 1, 8⟩,
    ⟨0x1f18, 6, 1, -8⟩, ⟨0x1f20, 8, 1, 8⟩, ⟨0x1f28, 8, 1, -8⟩, ⟨0x1f30, 8, 1, 8⟩,
    ⟨0x1f38, 8, 1, -8⟩, ⟨0x1f40, 6, 1, 8⟩, ⟨0x1f48, 6, 1, -8⟩, ⟨0x1f51, 4, 2, 8⟩,
    ⟨0x1f59, 4, 2, -8⟩, ⟨0x1f60, 8, 1, 8⟩, ⟨0x1f68, 8, 1, -8⟩, ⟨0x1f70, 2, 1, 74⟩,
    ⟨0x1f72, 4, 1, 86⟩, ⟨0x1f76, 2, 1, 100⟩, ⟨0x1f78, 2, 1, 128⟩, ⟨0x1f7a, 2, 1, 112⟩,
    ⟨0x1f7c, 2, 1, 126⟩, ⟨0x1f80, 8, 1, 8⟩, ⟨0x1f88, 8, 1, -8⟩, ⟨0x1f90, 8, 1, 8⟩,
    ⟨0x1f98, 8, 1, -8⟩, ⟨0x1fa0, 8, 1, 8⟩, ⟨0x1fa8, 8, 1, -8⟩, ⟨0x1fb0, 2, 1, 8⟩,
    ⟨0x1fb3, 1, 1, 9⟩, ⟨0x1fb8, 2, 1, -8⟩, ⟨0x1fba, 2, 1, -74⟩, ⟨0x1fbc, 1, 1, -9⟩,
    ⟨0x1fbe, 1, 1, -7289⟩, ⟨0x1fc3, 1, 1, 9⟩, ⟨0x1fc8, 4, 1, -86⟩, ⟨0x1fcc, 1, 1, -9⟩,
    ⟨0x1fd0, 2, 1, 8⟩, ⟨0x1fd3, 1, 1, -7235⟩, ⟨0x1fd8, 2, 1, -8⟩, ⟨0x1fda, 2, 1, -100⟩,
    ⟨0x1fe0, 2, 1, 8⟩, ⟨0x1fe3, 1, 1, -7219⟩, ⟨0x1fe5, 1, 1, 7⟩, ⟨0x1fe8, 2, 1, -8⟩,
    ⟨0x1fea, 2, 1, -112⟩, ⟨0x1fec, 1, 1, -7⟩, ⟨0x1ff3, 1, 1, 9⟩, ⟨0x1ff8, 2, 1, -128⟩,
    ⟨0x1ffa, 2, 1, -126⟩, ⟨0x1ffc, 1, 1, -9⟩, ⟨0x2126, 1, 1, -7549⟩, ⟨0x212a, 1, 1, -8415⟩,
    ⟨0x212b, 1, 1, -8294⟩, ⟨0x2132, 1, 1, 28⟩, ⟨0x214e, 1, 1, -28⟩, ⟨0x2160, 16, 1, 16⟩,
    ⟨0x2170, 16, 1, -16⟩, ⟨0x2183, 1, 1, 1⟩, ⟨0x2184, 1, 1, -1⟩, ⟨0x24b6, 26, 1, 26⟩,
    ⟨0x24d0, 26, 1, -26⟩, ⟨0x2c00, 48, 1, 48⟩, ⟨0x2c30, 48, 1, -48⟩, ⟨0x2c60, 1, 1, 1⟩,
    ⟨0x2c61, 1, 1, -1⟩, ⟨0x2c62, 1, 1, -10743⟩, ⟨0x2c63, 1, 1, -3814⟩, ⟨0x2c64, 1, 1, -10727⟩,
    ⟨0x2c65, 1, 1, -10795⟩, ⟨0x2c66, 1, 1, -10792⟩, ⟨0x2c67, 3, 2, 1⟩, ⟨0x2c68, 3, 2, -1⟩,
    ⟨0x2c6d, 1, 1, -10780⟩, ⟨0x2c6e, 1, 1, -10749⟩, ⟨0x2c6f, 1, 1, -10783⟩,
    ⟨0x2c70, 1, 1, -10782⟩, ⟨0x2c72, 1, 1, 1⟩, ⟨0x2c73, 1, 1, -1⟩, ⟨0x2c75, 1, 1, 1⟩,
    ⟨0x2c76, 1, 1, -1⟩, ⟨0x2c7e, 2, 1, -10815⟩, ⟨0x2c80, 50, 2, 1⟩, ⟨0x2c81, 50, 2, -1⟩,
    ⟨0x2ceb, 2, 2, 1⟩, ⟨0x2cec, 2, 2, -1⟩, ⟨0x2cf2, 1, 1, 1⟩, ⟨0x2cf3, 1, 1, -1⟩,
    ⟨0x2d00, 38, 1, -7264⟩, ⟨0x2d27, 1, 1, -7264⟩, ⟨0x2d2d, 1, 1, -7264⟩, ⟨0xa640, 23, 2, 1⟩,
    ⟨0xa641, 5, 2, -1⟩, ⟨0xa64b, 1, 1, -35267⟩, ⟨0xa64d, 17, 2, -1⟩, ⟨0xa680, 14, 2, 1⟩,
    ⟨0xa681, 14, 2, -1⟩, ⟨0xa722, 7, 2, 1⟩, ⟨0xa723, 7, 2, -1⟩, ⟨0xa732, 31, 2, 1⟩,
    ⟨0xa733, 31, 2, -1⟩, ⟨0xa779, 2, 2, 1⟩, ⟨0xa77a, 2, 2, -1⟩, ⟨0xa77d, 1, 1, -35332⟩,
    ⟨0xa77e, 5, 2, 1⟩, ⟨0xa77f, 5, 2, -1⟩, ⟨0xa78b, 1, 1, 1⟩, ⟨0xa78c, 1, 1, -1⟩,
    ⟨0xa78d, 1, 1, -42280⟩, ⟨0xa790, 2, 2, 1⟩, ⟨0xa791, 2, 2, -1⟩, ⟨0xa794, 1, 1, 48⟩,
    ⟨0xa796, 10, 2, 1⟩, ⟨0xa797, 10, 2, -1⟩, ⟨0xa7aa, 1, 1, -42308⟩, ⟨0xa7ab, 1, 1, -42319⟩,
    ⟨0xa7ac, 1, 1, -42315⟩, ⟨0xa7ad, 1, 1, -42305⟩, ⟨0xa7ae, 1, 1, -42308⟩,
    ⟨0xa7b0, 1, 1, -42258⟩, ⟨0xa7b1, 1, 1, -42282⟩, ⟨0xa7b2, 1, 1, -42261⟩, ⟨0xa7b3, 1, 1, 928⟩,
    ⟨0xa7b4, 8, 2, 1⟩, ⟨0xa7b5, 8, 2, -1⟩, ⟨0xa7c4, 1, 1, -48⟩, ⟨0xa7c5, 1, 1, -42307⟩,
    ⟨0xa7c6, 1, 1, -35384⟩, ⟨0xa7c7, 2, 2, 1⟩, ⟨0xa7c8, 2, 2, -1⟩, ⟨0xa7cb, 1, 1, -42343⟩,
    ⟨0xa7cc, 8, 2, 1⟩, ⟨0xa7cd, 8, 2, -1⟩, ⟨0xa7dc, 1, 1, -42561⟩, ⟨0xa7f5, 1, 1, 1⟩,
    ⟨0xa7f6, 1, 1, -1⟩, ⟨0xab53, 1, 1, -928⟩, ⟨0xab70, 80, 1, -38864⟩, ⟨0xfb05, 1, 1, 1⟩,
    ⟨0xfb06, 1, 1, -1⟩, ⟨0xff21, 26, 1, 32⟩, ⟨0xff41, 26, 1, -32⟩, ⟨0x10400, 40, 1, 40⟩,
    ⟨0x10428, 40, 1, -40⟩, ⟨0x104b0, 36, 1, 40⟩, ⟨0x104d8, 36, 1, -40⟩, ⟨0x10570, 19, 2, 39⟩,
    ⟨0x10571, 10, 1, 39⟩, ⟨0x1057d, 14, 1, 39⟩, ⟨0x1058d, 6, 1, 39⟩, ⟨0x10595, 1, 1, 39⟩,
    ⟨0x10597, 19, 2, -39⟩, ⟨0x10598, 10, 1, -39⟩, ⟨0x105a4, 14, 1, -39⟩, ⟨0x105b4, 6, 1, -39⟩,
    ⟨0x105bc, 1, 1, -39⟩, ⟨0x10c80, 51, 1, 64⟩, ⟨0x10cc0, 51, 1, -64⟩, ⟨0x10d50, 22, 1, 32⟩,
    ⟨0x10d70, 22, 1, -32⟩, ⟨0x118a0, 32, 1, 32⟩, ⟨0x118c0, 32, 1, -32⟩, ⟨0x16e40, 32, 1, 32⟩,
    ⟨0x16e60, 32, 1, -32⟩, ⟨0x16ea0, 25, 1, 27⟩, ⟨0x16ebb, 25, 1, -27⟩, ⟨0x1e900, 34, 1, 34⟩]

def nextCase (c : Char) : Char :=
  match caseRuns.find? (·.contains c.toNat) with
  | some r => Char.ofNat ((c.toNat : Int) + r.shift).toNat
  | none => c

def caseVariants (c : Char) : List Char :=
  let c₁ := nextCase c
  let c₂ := nextCase c₁
  [c, c₁, c₂, nextCase c₂]

end MetaInline.Unicode
