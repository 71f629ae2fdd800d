import RecordLog.Bytes.Basic

/-!
# Variable-width codes

A number is written in groups of seven bits, the least significant first, one group to a byte. A
byte from `80` on says that another one follows. A number of 32 bits takes at most 5 bytes and one
of 64 bits at most 10; a code that says that more follow after these is malformed. Bits of the
last group beyond the width of the number are dropped.

What the code of a number is, and what number a code stands for, is said by quotients and
remainders. Numbers are written and read as words: groups are shifted out of a word one after the
other and marked, and on the way back they are shifted into their places and joined.

## Main definitions

* `RecordLog.Varint.encode` and `RecordLog.Varint.size`, the code of a number and its length.
* `RecordLog.Varint.decode?`, the number that a byte string starts with.
* `RecordLog.Varint.size64`, `RecordLog.Varint.write64?` and `RecordLog.Varint.put64?`, which
  measure the code of a word, write it over the first bytes of a destination and append it.
* `RecordLog.Varint.decode32?` and `RecordLog.Varint.decode64?`, the word that a byte string starts
  with and how many bytes its code has.

## Main results

* `RecordLog.Varint.length_encode`.
-/

namespace RecordLog.Varint

/-- Most bytes in the code of a number of 32 bits. -/
def maxSize32 : Nat := 5

/-- Most bytes in the code of a number of 64 bits. -/
def maxSize64 : Nat := 10

/-! ### Codes of numbers -/

/-- The code of a number. -/
def encode (n : Nat) : Bytes :=
  if n < 0x80 then [UInt8.ofNat n] else UInt8.ofNat (0x80 + n % 0x80) :: encode (n / 0x80)

/-- How many bytes the code of a number has. -/
def size (n : Nat) : Nat :=
  if n < 0x80 then 1 else size (n / 0x80) + 1

theorem length_encode (n : Nat) : (encode n).length = size n := by
  fun_induction size n with
  | case1 n h => rw [encode]; simp [h]
  | case2 n h ih => rw [encode]; simp [h, ih]

theorem size_pos (n : Nat) : 0 < size n := by
  rw [size]
  split <;> omega

/-- The number that a byte string starts with in at most the given number of groups, and how many
bytes its code has. -/
def decode? : Nat → Bytes → Option (Nat × Nat)
  | 0, _ => none
  | _ + 1, [] => none
  | groups + 1, b :: r =>
    if b < 0x80 then
      some (b.toNat, 1)
    else
      (decode? groups r).map fun (n, k) => (b.toNat % 0x80 + 0x80 * n, k + 1)

/-! ### Words out of which groups are shifted -/

theorem toNat_shiftRight (v : UInt64) : (v >>> 7).toNat = v.toNat / 0x80 := by
  rw [UInt64.toNat_shiftRight]
  exact Nat.shiftRight_eq_div_pow v.toNat 7

/-- A word that needs more than one group has fewer of them when the lowest is shifted out. -/
theorem toNat_shiftRight_lt {v : UInt64} (h : ¬ v < 0x80) : (v >>> 7).toNat < v.toNat := by
  have hle : 0x80 ≤ v.toNat := Nat.le_of_not_lt h
  rw [toNat_shiftRight]
  omega

/-- Counts the groups of a word in front of which `count` groups have been counted. -/
def sizeFrom (count : Nat) (v : UInt64) : Nat :=
  if v < 0x80 then count else sizeFrom (count + 1) (v >>> 7)
termination_by v.toNat
decreasing_by exact toNat_shiftRight_lt ‹_›

/-- How many bytes the code of a number of 64 bits has. -/
def size64 (v : UInt64) : Nat := sizeFrom 1 v

/-- Writes the groups of a word over the bytes of a destination from index `i` on, unless it is too
short, and says where they end. -/
def writeFrom? (dst : Bytes) (i : Nat) (v : UInt64) : Option (Bytes × Nat) :=
  if v < 0x80 then do
    let dst ← dst.set? i v.toUInt8
    return (dst, i + 1)
  else do
    let dst ← dst.set? i (v.toUInt8 ||| 0x80)
    writeFrom? dst (i + 1) (v >>> 7)
termination_by v.toNat
decreasing_by exact toNat_shiftRight_lt ‹_›

/-- Writes the code of a number of 64 bits over the first bytes of a destination, unless it is too
short, and says how many bytes it has. -/
def write64? (dst : Bytes) (v : UInt64) : Option (Bytes × Nat) := writeFrom? dst 0 v

/-- Writes the code of a number of 32 bits like that of one of 64 bits. -/
def write32? (dst : Bytes) (v : UInt32) : Option (Bytes × Nat) := write64? dst v.toUInt64

/-- Appends to a buffer what is written in a scratch buffer of a given size. -/
def putThrough? (scratchSize : Nat) (write : Bytes → Option (Bytes × Nat)) (buffer : Bytes) :
    Option Bytes := do
  let (scratch, size) ← write (List.replicate scratchSize 0)
  let code ← scratch.front? size
  return buffer ++ code

/-- Appends the code of a number of 64 bits to a buffer. -/
def put64? (buffer : Bytes) (v : UInt64) : Option Bytes :=
  putThrough? maxSize64 (write64? · v) buffer

/-- Appends the code of a number of 32 bits to a buffer. -/
def put32? (buffer : Bytes) (v : UInt32) : Option Bytes :=
  putThrough? maxSize32 (write32? · v) buffer

/-! ### Words into which groups are shifted -/

/-- Joins the groups of a code to the word that has come of the `i` groups in front of them. -/
def gather? {w : Nat} (i : Nat) (word : BitVec w) : Bytes → Option (BitVec w × Nat)
  | [] => none
  | b :: r =>
    let word := word ||| (b &&& 0x7f).toBitVec.setWidth w <<< (7 * i)
    if b &&& 0x80 = 0 then some (word, i + 1) else gather? (i + 1) word r

/-- The number of 32 bits that a byte string starts with, and how many bytes its code has. A code
of a single byte is that number already. -/
def decode32? (src : Bytes) : Option (UInt32 × Nat) :=
  match src.head? with
  | some first => if first &&& 0x80 = 0 then some (first.toUInt32, 1) else gathered?
  | none => gathered?
where
  /-- The same without regard to codes of a single byte. -/
  gathered? : Option (UInt32 × Nat) :=
    (gather? 0 0 (src.take maxSize32)).map fun (word, k) => (.ofBitVec word, k)

/-- The number of 64 bits that a byte string starts with, and how many bytes its code has. -/
def decode64? (src : Bytes) : Option (UInt64 × Nat) :=
  (gather? 0 0 (src.take maxSize64)).map fun (word, k) => (.ofBitVec word, k)

/-- The number of 32 bits at the front of a byte string, and the bytes after its code. -/
def take32? (src : Bytes) : Option (UInt32 × Bytes) :=
  (decode32? src).map fun (n, k) => (n, src.drop k)

/-- The number of 64 bits at the front of a byte string, and the bytes after its code. -/
def take64? (src : Bytes) : Option (UInt64 × Bytes) :=
  (decode64? src).map fun (n, k) => (n, src.drop k)

end RecordLog.Varint
