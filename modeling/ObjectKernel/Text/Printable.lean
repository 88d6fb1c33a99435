/-!
# Printable characters

A character is printable when it is a letter, a mark, a number, a punctuation mark or a symbol, or
the ASCII space. Every other character is shown by an escape in quoted text.

## Contents

* `Printable.runs`: the printable code points above ASCII, in increasing order.
* `Printable.isPrintable`: the test.
-/

namespace ObjectKernel.Printable

/-- The letters, marks, numbers, punctuation and symbols above ASCII, as runs in increasing order: the first
code point of each and how many follow it. -/
def runs : List (Nat × Nat) :=
  [(0xa1, 11), (0xae, 713), (0x37a, 5), (0x384, 6), (0x38c, 0), (0x38e, 19), (0x3a3, 396), (0x531, 37), (0x559, 49),
   (0x58d, 2), (0x591, 54), (0x5d0, 26), (0x5ef, 5), (0x606, 21), (0x61d, 191), (0x6de, 47), (0x710, 58),
   (0x74d, 100), (0x7c0, 58), (0x7fd, 48), (0x830, 14), (0x840, 27), (0x85e, 0), (0x860, 10), (0x870, 31),
   (0x897, 74), (0x8e3, 160), (0x985, 7), (0x98f, 1), (0x993, 21), (0x9aa, 6), (0x9b2, 0), (0x9b6, 3), (0x9bc, 8),
   (0x9c7, 1), (0x9cb, 3), (0x9d7, 0), (0x9dc, 1), (0x9df, 4), (0x9e6, 24), (0xa01, 2), (0xa05, 5), (0xa0f, 1),
   (0xa13, 21), (0xa2a, 6), (0xa32, 1), (0xa35, 1), (0xa38, 1), (0xa3c, 0), (0xa3e, 4), (0xa47, 1), (0xa4b, 2),
   (0xa51, 0), (0xa59, 3), (0xa5e, 0), (0xa66, 16), (0xa81, 2), (0xa85, 8), (0xa8f, 2), (0xa93, 21), (0xaaa, 6),
   (0xab2, 1), (0xab5, 4), (0xabc, 9), (0xac7, 2), (0xacb, 2), (0xad0, 0), (0xae0, 3), (0xae6, 11), (0xaf9, 6),
   (0xb01, 2), (0xb05, 7), (0xb0f, 1), (0xb13, 21), (0xb2a, 6), (0xb32, 1), (0xb35, 4), (0xb3c, 8), (0xb47, 1),
   (0xb4b, 2), (0xb55, 2), (0xb5c, 1), (0xb5f, 4), (0xb66, 17), (0xb82, 1), (0xb85, 5), (0xb8e, 2), (0xb92, 3),
   (0xb99, 1), (0xb9c, 0), (0xb9e, 1), (0xba3, 1), (0xba8, 2), (0xbae, 11), (0xbbe, 4), (0xbc6, 2), (0xbca, 3),
   (0xbd0, 0), (0xbd7, 0), (0xbe6, 20), (0xc00, 12), (0xc0e, 2), (0xc12, 22), (0xc2a, 15), (0xc3c, 8), (0xc46, 2),
   (0xc4a, 3), (0xc55, 1), (0xc58, 2), (0xc5c, 1), (0xc60, 3), (0xc66, 9), (0xc77, 21), (0xc8e, 2), (0xc92, 22),
   (0xcaa, 9), (0xcb5, 4), (0xcbc, 8), (0xcc6, 2), (0xcca, 3), (0xcd5, 1), (0xcdc, 2), (0xce0, 3), (0xce6, 9),
   (0xcf1, 2), (0xd00, 12), (0xd0e, 2), (0xd12, 50), (0xd46, 2), (0xd4a, 5), (0xd54, 15), (0xd66, 25), (0xd81, 2),
   (0xd85, 17), (0xd9a, 23), (0xdb3, 8), (0xdbd, 0), (0xdc0, 6), (0xdca, 0), (0xdcf, 5), (0xdd6, 0), (0xdd8, 7),
   (0xde6, 9), (0xdf2, 2), (0xe01, 57), (0xe3f, 28), (0xe81, 1), (0xe84, 0), (0xe86, 4), (0xe8c, 23), (0xea5, 0),
   (0xea7, 22), (0xec0, 4), (0xec6, 0), (0xec8, 6), (0xed0, 9), (0xedc, 3), (0xf00, 71), (0xf49, 35), (0xf71, 38),
   (0xf99, 35), (0xfbe, 14), (0xfce, 12), (0x1000, 197), (0x10c7, 0), (0x10cd, 0), (0x10d0, 376), (0x124a, 3),
   (0x1250, 6), (0x1258, 0), (0x125a, 3), (0x1260, 40), (0x128a, 3), (0x1290, 32), (0x12b2, 3), (0x12b8, 6),
   (0x12c0, 0), (0x12c2, 3), (0x12c8, 14), (0x12d8, 56), (0x1312, 3), (0x1318, 66), (0x135d, 31), (0x1380, 25),
   (0x13a0, 85), (0x13f8, 5), (0x1400, 639), (0x1681, 27), (0x16a0, 88), (0x1700, 21), (0x171f, 23), (0x1740, 19),
   (0x1760, 12), (0x176e, 2), (0x1772, 1), (0x1780, 93), (0x17e0, 9), (0x17f0, 9), (0x1800, 13), (0x180f, 10),
   (0x1820, 88), (0x1880, 42), (0x18b0, 69), (0x1900, 30), (0x1920, 11), (0x1930, 11), (0x1940, 0), (0x1944, 41),
   (0x1970, 4), (0x1980, 43), (0x19b0, 25), (0x19d0, 10), (0x19de, 61), (0x1a1e, 64), (0x1a60, 28), (0x1a7f, 10),
   (0x1a90, 9), (0x1aa0, 13), (0x1ab0, 45), (0x1ae0, 11), (0x1b00, 76), (0x1b4e, 165), (0x1bfc, 59), (0x1c3b, 14),
   (0x1c4d, 61), (0x1c90, 42), (0x1cbd, 10), (0x1cd0, 42), (0x1d00, 533), (0x1f18, 5), (0x1f20, 37), (0x1f48, 5),
   (0x1f50, 7), (0x1f59, 0), (0x1f5b, 0), (0x1f5d, 0), (0x1f5f, 30), (0x1f80, 52), (0x1fb6, 14), (0x1fc6, 13),
   (0x1fd6, 5), (0x1fdd, 18), (0x1ff2, 2), (0x1ff6, 8), (0x2010, 23), (0x2030, 46), (0x2070, 1), (0x2074, 26),
   (0x2090, 12), (0x20a0, 33), (0x20d0, 32), (0x2100, 139), (0x2190, 665), (0x2440, 10), (0x2460, 1811),
   (0x2b76, 381), (0x2cf9, 44), (0x2d27, 0), (0x2d2d, 0), (0x2d30, 55), (0x2d6f, 1), (0x2d7f, 23), (0x2da0, 6),
   (0x2da8, 6), (0x2db0, 6), (0x2db8, 6), (0x2dc0, 6), (0x2dc8, 6), (0x2dd0, 6), (0x2dd8, 6), (0x2de0, 125),
   (0x2e80, 25), (0x2e9b, 88), (0x2f00, 213), (0x2ff0, 15), (0x3001, 62), (0x3041, 85), (0x3099, 102), (0x3105, 42),
   (0x3131, 93), (0x3190, 85), (0x31ef, 47), (0x3220, 29292), (0xa490, 54), (0xa4d0, 347), (0xa640, 183),
   (0xa700, 220), (0xa7f1, 59), (0xa830, 9), (0xa840, 55), (0xa880, 69), (0xa8ce, 11), (0xa8e0, 115), (0xa95f, 29),
   (0xa980, 77), (0xa9cf, 10), (0xa9de, 32), (0xaa00, 54), (0xaa40, 13), (0xaa50, 9), (0xaa5c, 102), (0xaadb, 27),
   (0xab01, 5), (0xab09, 5), (0xab11, 5), (0xab20, 6), (0xab28, 6), (0xab30, 59), (0xab70, 125), (0xabf0, 9),
   (0xac00, 11171), (0xd7b0, 22), (0xd7cb, 48), (0xf900, 365), (0xfa70, 105), (0xfb00, 6), (0xfb13, 4), (0xfb1d, 25),
   (0xfb38, 4), (0xfb3e, 0), (0xfb40, 1), (0xfb43, 1), (0xfb46, 649), (0xfdf0, 41), (0xfe20, 50), (0xfe54, 18),
   (0xfe68, 3), (0xfe70, 4), (0xfe76, 134), (0xff01, 189), (0xffc2, 5), (0xffca, 5), (0xffd2, 5), (0xffda, 2),
   (0xffe0, 6), (0xffe8, 6), (0xfffc, 1), (0x10000, 11), (0x1000d, 25), (0x10028, 18), (0x1003c, 1), (0x1003f, 14),
   (0x10050, 13), (0x10080, 122), (0x10100, 2), (0x10107, 44), (0x10137, 87), (0x10190, 12), (0x101a0, 0),
   (0x101d0, 45), (0x10280, 28), (0x102a0, 48), (0x102e0, 27), (0x10300, 35), (0x1032d, 29), (0x10350, 42),
   (0x10380, 29), (0x1039f, 36), (0x103c8, 13), (0x10400, 157), (0x104a0, 9), (0x104b0, 35), (0x104d8, 35),
   (0x10500, 39), (0x10530, 51), (0x1056f, 11), (0x1057c, 14), (0x1058c, 6), (0x10594, 1), (0x10597, 10),
   (0x105a3, 14), (0x105b3, 6), (0x105bb, 1), (0x105c0, 51), (0x10600, 310), (0x10740, 21), (0x10760, 7),
   (0x10780, 5), (0x10787, 41), (0x107b2, 8), (0x10800, 5), (0x10808, 0), (0x1080a, 43), (0x10837, 1), (0x1083c, 0),
   (0x1083f, 22), (0x10857, 71), (0x108a7, 8), (0x108e0, 18), (0x108f4, 1), (0x108fb, 32), (0x1091f, 26),
   (0x1093f, 26), (0x10980, 55), (0x109bc, 19), (0x109d2, 49), (0x10a05, 1), (0x10a0c, 7), (0x10a15, 2),
   (0x10a19, 28), (0x10a38, 2), (0x10a3f, 9), (0x10a50, 8), (0x10a60, 63), (0x10ac0, 38), (0x10aeb, 11),
   (0x10b00, 53), (0x10b39, 28), (0x10b58, 26), (0x10b78, 25), (0x10b99, 3), (0x10ba9, 6), (0x10c00, 72),
   (0x10c80, 50), (0x10cc0, 50), (0x10cfa, 45), (0x10d30, 9), (0x10d40, 37), (0x10d69, 28), (0x10d8e, 1),
   (0x10e60, 30), (0x10e80, 41), (0x10eab, 2), (0x10eb0, 1), (0x10ec2, 5), (0x10ed0, 8), (0x10efa, 45), (0x10f30, 41),
   (0x10f70, 25), (0x10fb0, 27), (0x10fe0, 22), (0x11000, 77), (0x11052, 35), (0x1107f, 61), (0x110be, 4),
   (0x110d0, 24), (0x110f0, 9), (0x11100, 52), (0x11136, 17), (0x11150, 38), (0x11180, 95), (0x111e1, 19),
   (0x11200, 17), (0x11213, 46), (0x11280, 6), (0x11288, 0), (0x1128a, 3), (0x1128f, 14), (0x1129f, 10),
   (0x112b0, 58), (0x112f0, 9), (0x11300, 3), (0x11305, 7), (0x1130f, 1), (0x11313, 21), (0x1132a, 6), (0x11332, 1),
   (0x11335, 4), (0x1133b, 9), (0x11347, 1), (0x1134b, 2), (0x11350, 0), (0x11357, 0), (0x1135d, 6), (0x11366, 6),
   (0x11370, 4), (0x11380, 9), (0x1138b, 0), (0x1138e, 0), (0x11390, 37), (0x113b7, 9), (0x113c2, 0), (0x113c5, 0),
   (0x113c7, 3), (0x113cc, 9), (0x113d7, 1), (0x113e1, 1), (0x11400, 91), (0x1145d, 4), (0x11480, 71), (0x114d0, 9),
   (0x11580, 53), (0x115b8, 37), (0x11600, 68), (0x11650, 9), (0x11660, 12), (0x11680, 57), (0x116c0, 9),
   (0x116d0, 19), (0x11700, 26), (0x1171d, 14), (0x11730, 22), (0x11800, 59), (0x118a0, 82), (0x118ff, 7),
   (0x11909, 0), (0x1190c, 7), (0x11915, 1), (0x11918, 29), (0x11937, 1), (0x1193b, 11), (0x11950, 9), (0x119a0, 7),
   (0x119aa, 45), (0x119da, 10), (0x11a00, 71), (0x11a50, 82), (0x11ab0, 72), (0x11b00, 9), (0x11b60, 7),
   (0x11bc0, 33), (0x11bf0, 9), (0x11c00, 8), (0x11c0a, 44), (0x11c38, 13), (0x11c50, 28), (0x11c70, 31),
   (0x11c92, 21), (0x11ca9, 13), (0x11d00, 6), (0x11d08, 1), (0x11d0b, 43), (0x11d3a, 0), (0x11d3c, 1), (0x11d3f, 8),
   (0x11d50, 9), (0x11d60, 5), (0x11d67, 1), (0x11d6a, 36), (0x11d90, 1), (0x11d93, 5), (0x11da0, 9), (0x11db0, 43),
   (0x11de0, 9), (0x11ee0, 24), (0x11f00, 16), (0x11f12, 40), (0x11f3e, 28), (0x11fb0, 0), (0x11fc0, 49),
   (0x11fff, 922), (0x12400, 110), (0x12470, 4), (0x12480, 195), (0x12f90, 98), (0x13000, 1071), (0x13440, 21),
   (0x13460, 3994), (0x14400, 582), (0x16100, 57), (0x16800, 568), (0x16a40, 30), (0x16a60, 9), (0x16a6e, 80),
   (0x16ac0, 9), (0x16ad0, 29), (0x16af0, 5), (0x16b00, 69), (0x16b50, 9), (0x16b5b, 6), (0x16b63, 20), (0x16b7d, 18),
   (0x16d40, 57), (0x16e40, 90), (0x16ea0, 24), (0x16ebb, 24), (0x16f00, 74), (0x16f4f, 56), (0x16f8f, 16),
   (0x16fe0, 4), (0x16ff0, 6), (0x17000, 7381), (0x18cff, 31), (0x18d80, 114), (0x1aff0, 3), (0x1aff5, 6),
   (0x1affd, 1), (0x1b000, 290), (0x1b132, 0), (0x1b150, 2), (0x1b155, 0), (0x1b164, 3), (0x1b170, 395),
   (0x1bc00, 106), (0x1bc70, 12), (0x1bc80, 8), (0x1bc90, 9), (0x1bc9c, 3), (0x1cc00, 252), (0x1cd00, 435),
   (0x1ceba, 22), (0x1cee0, 16), (0x1cf00, 45), (0x1cf30, 22), (0x1cf50, 115), (0x1d000, 245), (0x1d100, 38),
   (0x1d129, 73), (0x1d17b, 111), (0x1d200, 69), (0x1d2c0, 19), (0x1d2e0, 19), (0x1d300, 86), (0x1d360, 24),
   (0x1d400, 84), (0x1d456, 70), (0x1d49e, 1), (0x1d4a2, 0), (0x1d4a5, 1), (0x1d4a9, 3), (0x1d4ae, 11), (0x1d4bb, 0),
   (0x1d4bd, 6), (0x1d4c5, 64), (0x1d507, 3), (0x1d50d, 7), (0x1d516, 6), (0x1d51e, 27), (0x1d53b, 3), (0x1d540, 4),
   (0x1d546, 0), (0x1d54a, 6), (0x1d552, 339), (0x1d6a8, 291), (0x1d7ce, 701), (0x1da9b, 4), (0x1daa1, 14),
   (0x1df00, 30), (0x1df25, 5), (0x1e000, 6), (0x1e008, 16), (0x1e01b, 6), (0x1e023, 1), (0x1e026, 4), (0x1e030, 61),
   (0x1e08f, 0), (0x1e100, 44), (0x1e130, 13), (0x1e140, 9), (0x1e14e, 1), (0x1e290, 30), (0x1e2c0, 57), (0x1e2ff, 0),
   (0x1e4d0, 41), (0x1e5d0, 42), (0x1e5ff, 0), (0x1e6c0, 30), (0x1e6e0, 21), (0x1e6fe, 1), (0x1e7e0, 6), (0x1e7e8, 3),
   (0x1e7ed, 1), (0x1e7f0, 14), (0x1e800, 196), (0x1e8c7, 15), (0x1e900, 75), (0x1e950, 9), (0x1e95e, 1),
   (0x1ec71, 67), (0x1ed01, 60), (0x1ee00, 3), (0x1ee05, 26), (0x1ee21, 1), (0x1ee24, 0), (0x1ee27, 0), (0x1ee29, 9),
   (0x1ee34, 3), (0x1ee39, 0), (0x1ee3b, 0), (0x1ee42, 0), (0x1ee47, 0), (0x1ee49, 0), (0x1ee4b, 0), (0x1ee4d, 2),
   (0x1ee51, 1), (0x1ee54, 0), (0x1ee57, 0), (0x1ee59, 0), (0x1ee5b, 0), (0x1ee5d, 0), (0x1ee5f, 0), (0x1ee61, 1),
   (0x1ee64, 0), (0x1ee67, 3), (0x1ee6c, 6), (0x1ee74, 3), (0x1ee79, 3), (0x1ee7e, 0), (0x1ee80, 9), (0x1ee8b, 16),
   (0x1eea1, 2), (0x1eea5, 4), (0x1eeab, 16), (0x1eef0, 1), (0x1f000, 43), (0x1f030, 99), (0x1f0a0, 14),
   (0x1f0b1, 14), (0x1f0c1, 14), (0x1f0d1, 36), (0x1f100, 173), (0x1f1e6, 28), (0x1f210, 43), (0x1f240, 8),
   (0x1f250, 1), (0x1f260, 5), (0x1f300, 984), (0x1f6dc, 16), (0x1f6f0, 12), (0x1f700, 217), (0x1f7e0, 11),
   (0x1f7f0, 0), (0x1f800, 11), (0x1f810, 55), (0x1f850, 9), (0x1f860, 39), (0x1f890, 29), (0x1f8b0, 11),
   (0x1f8c0, 1), (0x1f8d0, 8), (0x1f900, 343), (0x1fa60, 13), (0x1fa70, 12), (0x1fa80, 10), (0x1fa8e, 56),
   (0x1fac8, 0), (0x1facd, 15), (0x1fadf, 11), (0x1faef, 9), (0x1fb00, 146), (0x1fb94, 102), (0x20000, 42719),
   (0x2a700, 4381), (0x2b820, 5773), (0x2ceb0, 7472), (0x2ebf0, 621), (0x2f800, 541), (0x30000, 4938),
   (0x31350, 8489), (0xe0100, 239)]

/-- Whether a code point is shown as it is in quoted text. -/
def isPrintable (n : Nat) : Bool :=
  if n < 0x80 then decide (0x20 ≤ n ∧ n < 0x7F)
  else runs.any fun r => decide (r.1 ≤ n ∧ n ≤ r.1 + r.2)

end ObjectKernel.Printable
