import Mrhc.Framework.Bytes

/-!
# The DES routine

A translation of `d3des.cpp` with its 64-bit `unsigned long` words. `deskey` returns the contents
of the internal key register, which the source keeps in the static array `KnL`; `des` takes it as
an argument.
-/

namespace Mrhc

namespace D3des

def bytebit : List UInt8 := [1, 2, 4, 8, 16, 32, 64, 128]

def bigbyte : List UInt64 :=
  [
    0x800000, 0x400000, 0x200000, 0x100000, 0x80000, 0x40000, 0x20000, 0x10000,
    0x8000, 0x4000, 0x2000, 0x1000, 0x800, 0x400, 0x200, 0x100,
    0x80, 0x40, 0x20, 0x10, 0x8, 0x4, 0x2, 0x1]

def pc1 : List Nat :=
  [
    56, 48, 40, 32, 24, 16, 8, 0, 57, 49, 41, 33, 25, 17,
    9, 1, 58, 50, 42, 34, 26, 18, 10, 2, 59, 51, 43, 35,
    62, 54, 46, 38, 30, 22, 14, 6, 61, 53, 45, 37, 29, 21,
    13, 5, 60, 52, 44, 36, 28, 20, 12, 4, 27, 19, 11, 3]

def totrot : List Nat := [1, 2, 4, 6, 8, 10, 12, 14, 15, 17, 19, 21, 23, 25, 27, 28]

def pc2 : List Nat :=
  [
    13, 16, 10, 23, 0, 4, 2, 27, 14, 5, 20, 9,
    22, 18, 11, 3, 25, 7, 15, 6, 26, 19, 12, 1,
    40, 51, 30, 36, 46, 54, 29, 39, 50, 44, 32, 47,
    43, 48, 38, 55, 33, 52, 45, 41, 49, 35, 28, 31]

def sp1 : List UInt64 :=
  [
    0x01010400, 0x00000000, 0x00010000, 0x01010404, 0x01010004, 0x00010404, 0x00000004, 0x00010000,
    0x00000400, 0x01010400, 0x01010404, 0x00000400, 0x01000404, 0x01010004, 0x01000000, 0x00000004,
    0x00000404, 0x01000400, 0x01000400, 0x00010400, 0x00010400, 0x01010000, 0x01010000, 0x01000404,
    0x00010004, 0x01000004, 0x01000004, 0x00010004, 0x00000000, 0x00000404, 0x00010404, 0x01000000,
    0x00010000, 0x01010404, 0x00000004, 0x01010000, 0x01010400, 0x01000000, 0x01000000, 0x00000400,
    0x01010004, 0x00010000, 0x00010400, 0x01000004, 0x00000400, 0x00000004, 0x01000404, 0x00010404,
    0x01010404, 0x00010004, 0x01010000, 0x01000404, 0x01000004, 0x00000404, 0x00010404, 0x01010400,
    0x00000404, 0x01000400, 0x01000400, 0x00000000, 0x00010004, 0x00010400, 0x00000000, 0x01010004]

def sp2 : List UInt64 :=
  [
    0x80108020, 0x80008000, 0x00008000, 0x00108020, 0x00100000, 0x00000020, 0x80100020, 0x80008020,
    0x80000020, 0x80108020, 0x80108000, 0x80000000, 0x80008000, 0x00100000, 0x00000020, 0x80100020,
    0x00108000, 0x00100020, 0x80008020, 0x00000000, 0x80000000, 0x00008000, 0x00108020, 0x80100000,
    0x00100020, 0x80000020, 0x00000000, 0x00108000, 0x00008020, 0x80108000, 0x80100000, 0x00008020,
    0x00000000, 0x00108020, 0x80100020, 0x00100000, 0x80008020, 0x80100000, 0x80108000, 0x00008000,
    0x80100000, 0x80008000, 0x00000020, 0x80108020, 0x00108020, 0x00000020, 0x00008000, 0x80000000,
    0x00008020, 0x80108000, 0x00100000, 0x80000020, 0x00100020, 0x80008020, 0x80000020, 0x00100020,
    0x00108000, 0x00000000, 0x80008000, 0x00008020, 0x80000000, 0x80100020, 0x80108020, 0x00108000]

def sp3 : List UInt64 :=
  [
    0x00000208, 0x08020200, 0x00000000, 0x08020008, 0x08000200, 0x00000000, 0x00020208, 0x08000200,
    0x00020008, 0x08000008, 0x08000008, 0x00020000, 0x08020208, 0x00020008, 0x08020000, 0x00000208,
    0x08000000, 0x00000008, 0x08020200, 0x00000200, 0x00020200, 0x08020000, 0x08020008, 0x00020208,
    0x08000208, 0x00020200, 0x00020000, 0x08000208, 0x00000008, 0x08020208, 0x00000200, 0x08000000,
    0x08020200, 0x08000000, 0x00020008, 0x00000208, 0x00020000, 0x08020200, 0x08000200, 0x00000000,
    0x00000200, 0x00020008, 0x08020208, 0x08000200, 0x08000008, 0x00000200, 0x00000000, 0x08020008,
    0x08000208, 0x00020000, 0x08000000, 0x08020208, 0x00000008, 0x00020208, 0x00020200, 0x08000008,
    0x08020000, 0x08000208, 0x00000208, 0x08020000, 0x00020208, 0x00000008, 0x08020008, 0x00020200]

def sp4 : List UInt64 :=
  [
    0x00802001, 0x00002081, 0x00002081, 0x00000080, 0x00802080, 0x00800081, 0x00800001, 0x00002001,
    0x00000000, 0x00802000, 0x00802000, 0x00802081, 0x00000081, 0x00000000, 0x00800080, 0x00800001,
    0x00000001, 0x00002000, 0x00800000, 0x00802001, 0x00000080, 0x00800000, 0x00002001, 0x00002080,
    0x00800081, 0x00000001, 0x00002080, 0x00800080, 0x00002000, 0x00802080, 0x00802081, 0x00000081,
    0x00800080, 0x00800001, 0x00802000, 0x00802081, 0x00000081, 0x00000000, 0x00000000, 0x00802000,
    0x00002080, 0x00800080, 0x00800081, 0x00000001, 0x00802001, 0x00002081, 0x00002081, 0x00000080,
    0x00802081, 0x00000081, 0x00000001, 0x00002000, 0x00800001, 0x00002001, 0x00802080, 0x00800081,
    0x00002001, 0x00002080, 0x00800000, 0x00802001, 0x00000080, 0x00800000, 0x00002000, 0x00802080]

def sp5 : List UInt64 :=
  [
    0x00000100, 0x02080100, 0x02080000, 0x42000100, 0x00080000, 0x00000100, 0x40000000, 0x02080000,
    0x40080100, 0x00080000, 0x02000100, 0x40080100, 0x42000100, 0x42080000, 0x00080100, 0x40000000,
    0x02000000, 0x40080000, 0x40080000, 0x00000000, 0x40000100, 0x42080100, 0x42080100, 0x02000100,
    0x42080000, 0x40000100, 0x00000000, 0x42000000, 0x02080100, 0x02000000, 0x42000000, 0x00080100,
    0x00080000, 0x42000100, 0x00000100, 0x02000000, 0x40000000, 0x02080000, 0x42000100, 0x40080100,
    0x02000100, 0x40000000, 0x42080000, 0x02080100, 0x40080100, 0x00000100, 0x02000000, 0x42080000,
    0x42080100, 0x00080100, 0x42000000, 0x42080100, 0x02080000, 0x00000000, 0x40080000, 0x42000000,
    0x00080100, 0x02000100, 0x40000100, 0x00080000, 0x00000000, 0x40080000, 0x02080100, 0x40000100]

def sp6 : List UInt64 :=
  [
    0x20000010, 0x20400000, 0x00004000, 0x20404010, 0x20400000, 0x00000010, 0x20404010, 0x00400000,
    0x20004000, 0x00404010, 0x00400000, 0x20000010, 0x00400010, 0x20004000, 0x20000000, 0x00004010,
    0x00000000, 0x00400010, 0x20004010, 0x00004000, 0x00404000, 0x20004010, 0x00000010, 0x20400010,
    0x20400010, 0x00000000, 0x00404010, 0x20404000, 0x00004010, 0x00404000, 0x20404000, 0x20000000,
    0x20004000, 0x00000010, 0x20400010, 0x00404000, 0x20404010, 0x00400000, 0x00004010, 0x20000010,
    0x00400000, 0x20004000, 0x20000000, 0x00004010, 0x20000010, 0x20404010, 0x00404000, 0x20400000,
    0x00404010, 0x20404000, 0x00000000, 0x20400010, 0x00000010, 0x00004000, 0x20400000, 0x00404010,
    0x00004000, 0x00400010, 0x20004010, 0x00000000, 0x20404000, 0x20000000, 0x00400010, 0x20004010]

def sp7 : List UInt64 :=
  [
    0x00200000, 0x04200002, 0x04000802, 0x00000000, 0x00000800, 0x04000802, 0x00200802, 0x04200800,
    0x04200802, 0x00200000, 0x00000000, 0x04000002, 0x00000002, 0x04000000, 0x04200002, 0x00000802,
    0x04000800, 0x00200802, 0x00200002, 0x04000800, 0x04000002, 0x04200000, 0x04200800, 0x00200002,
    0x04200000, 0x00000800, 0x00000802, 0x04200802, 0x00200800, 0x00000002, 0x04000000, 0x00200800,
    0x04000000, 0x00200800, 0x00200000, 0x04000802, 0x04000802, 0x04200002, 0x04200002, 0x00000002,
    0x00200002, 0x04000000, 0x04000800, 0x00200000, 0x04200800, 0x00000802, 0x00200802, 0x04200800,
    0x00000802, 0x04000002, 0x04200802, 0x04200000, 0x00200800, 0x00000000, 0x00000002, 0x04200802,
    0x00000000, 0x00200802, 0x04200000, 0x00000800, 0x04000002, 0x04000800, 0x00000800, 0x00200002]

def sp8 : List UInt64 :=
  [
    0x10001040, 0x00001000, 0x00040000, 0x10041040, 0x10000000, 0x10001040, 0x00000040, 0x10000000,
    0x00040040, 0x10040000, 0x10041040, 0x00041000, 0x10041000, 0x00041040, 0x00001000, 0x00000040,
    0x10040000, 0x10000040, 0x10001000, 0x00001040, 0x00041000, 0x00040040, 0x10040040, 0x10041000,
    0x00001040, 0x00000000, 0x00000000, 0x10040040, 0x10000040, 0x10001000, 0x00041040, 0x00040000,
    0x00041040, 0x00040000, 0x10041000, 0x00001000, 0x00000040, 0x10040040, 0x00001000, 0x00041040,
    0x10001000, 0x00000040, 0x10000040, 0x10040000, 0x10040040, 0x10000000, 0x00040000, 0x10001040,
    0x00000000, 0x10041040, 0x00040040, 0x10000040, 0x10040000, 0x10001000, 0x10001040, 0x00000000,
    0x10041040, 0x00041000, 0x00041000, 0x00001040, 0x00001040, 0x00040040, 0x10000000, 0x10041000]

/-- The mode argument of `deskey`. -/
inductive Mode where
  | en0
  | de1
deriving DecidableEq, Repr

/-- The 56 selected key bits. Only the first eight bytes of `key` are read. -/
def pc1m (key : Bytes) : List Bool :=
  pc1.map fun l => (key.getD (l >>> 3) 0) &&& (bytebit.getD (l &&& 7) 0) != 0

/-- The selected bits rotated for round `i`, each half on its own. -/
def pcr (bits : List Bool) (i : Nat) : List Bool :=
  (List.range 56).map fun j =>
    let l := j + totrot.getD i 0
    if j < 28 then (if l < 28 then bits.getD l false else bits.getD (l - 28) false)
    else (if l < 56 then bits.getD l false else bits.getD (l - 28) false)

/-- The word whose bit `bigbyte[j]` is the selected bit `pc2[j + offset]`. -/
def kn (bits : List Bool) (offset : Nat) : UInt64 :=
  (List.range 24).foldl
    (fun word j => if bits.getD (pc2.getD (j + offset) 0) false then word ||| bigbyte.getD j 0
      else word) 0

/-- One pair of raw key words as the two words that `desfunc` consumes. -/
def cookey (raw0 raw1 : UInt64) : List UInt64 :=
  [(raw0 &&& 0x00fc0000) <<< 6 ||| (raw0 &&& 0x00000fc0) <<< 10 |||
      (raw1 &&& 0x00fc0000) >>> 10 ||| (raw1 &&& 0x00000fc0) >>> 6,
    (raw0 &&& 0x0003f000) <<< 12 ||| (raw0 &&& 0x0000003f) <<< 16 |||
      (raw1 &&& 0x0003f000) >>> 4 ||| (raw1 &&& 0x0000003f)]

def deskey (key : Bytes) (edf : Mode) : List UInt64 :=
  (List.range 16).flatMap fun m =>
    let i := match edf with
      | .en0 => m
      | .de1 => 15 - m
    let bits := pcr (pc1m key) i
    cookey (kn bits 0) (kn bits 24)

/-- Two words of a block, `leftt` and `right` in the source. -/
abbrev Block := UInt64 × UInt64

def scrunch (outof : Bytes) : Block :=
  let at' := fun i => (outof.getD i 0).toUInt64
  (at' 0 <<< 24 ||| at' 1 <<< 16 ||| at' 2 <<< 8 ||| at' 3,
    at' 4 <<< 24 ||| at' 5 <<< 16 ||| at' 6 <<< 8 ||| at' 7)

def unscrun (outof : Block) : Bytes :=
  [(outof.1 >>> 24).toUInt8, (outof.1 >>> 16).toUInt8, (outof.1 >>> 8).toUInt8, outof.1.toUInt8,
    (outof.2 >>> 24).toUInt8, (outof.2 >>> 16).toUInt8, (outof.2 >>> 8).toUInt8, outof.2.toUInt8]

/-- The exchange of the bits under `mask` between `b` and `a` shifted right. -/
def exchange (shift mask : UInt64) (a b : UInt64) : Block :=
  let work := ((a >>> shift) ^^^ b) &&& mask
  (a ^^^ (work <<< shift), b ^^^ work)

/-- The round function on one half of the block under two words of the key register. -/
def fval (half key0 key1 : UInt64) : UInt64 :=
  let at' := fun (sp : List UInt64) (work shift : UInt64) =>
    sp.getD ((work >>> shift) &&& 0x3f).toNat 0
  let work := (half <<< 28 ||| half >>> 4) ^^^ key0
  let work' := half ^^^ key1
  at' sp7 work 0 ||| at' sp5 work 8 ||| at' sp3 work 16 ||| at' sp1 work 24 |||
    at' sp8 work' 0 ||| at' sp6 work' 8 ||| at' sp4 work' 16 ||| at' sp2 work' 24

/-- The loop of `desfunc`: each round uses four words of the key register. -/
def rounds : List UInt64 → Block → Block
  | key0 :: key1 :: key2 :: key3 :: keys, (leftt, right) =>
    let leftt := leftt ^^^ fval right key0 key1
    let right := right ^^^ fval leftt key2 key3
    rounds keys (leftt, right)
  | _, block => block

/-- The permutation before the rounds. -/
def initial (block : Block) : Block :=
  let (leftt, right) := block
  let (leftt, right) := exchange 4 0x0f0f0f0f leftt right
  let (leftt, right) := exchange 16 0x0000ffff leftt right
  let (right, leftt) := exchange 2 0x33333333 right leftt
  let (right, leftt) := exchange 8 0x00ff00ff right leftt
  let right := (right <<< 1 ||| ((right >>> 31) &&& 1)) &&& 0xffffffff
  let (leftt, right) := exchange 0 0xaaaaaaaa leftt right
  ((leftt <<< 1 ||| ((leftt >>> 31) &&& 1)) &&& 0xffffffff, right)

/-- The permutation after the rounds. The rotations leave bits above the low 32 words that are
never written out. -/
def final (block : Block) : Block :=
  let (leftt, right) := block
  let right := right <<< 31 ||| right >>> 1
  let (leftt, right) := exchange 0 0xaaaaaaaa leftt right
  let leftt := leftt <<< 31 ||| leftt >>> 1
  let (leftt, right) := exchange 8 0x00ff00ff leftt right
  let (leftt, right) := exchange 2 0x33333333 leftt right
  let (right, leftt) := exchange 16 0x0000ffff right leftt
  let (right, leftt) := exchange 4 0x0f0f0f0f right leftt
  (right, leftt)

def desfunc (keys : List UInt64) (block : Block) : Block :=
  final (rounds keys (initial block))

def des (keys : List UInt64) (inblock : Bytes) : Bytes :=
  unscrun (desfunc keys (scrunch inblock))

@[simp] theorem des_length (keys : List UInt64) (inblock : Bytes) :
    (des keys inblock).length = 8 := rfl

end D3des

end Mrhc
