import LintPool.Text.Bytes

/-!
# The hash function BLAKE2b

BLAKE2b with a digest of 32 bytes and without a key. The text is cut into blocks of 128 bytes, the
last one filled up with zeros, and each block is mixed into a state of eight words.

## Main definitions

* `LintPool.Blake2b.digest` : the digest of a text.
* `LintPool.Blake2b.fingerprint` : the digest in hexadecimal digits.
-/

namespace LintPool.Blake2b

/-- The state of the hash: eight words. -/
abbrev State := Vector UInt64 8

/-- The words that one block is mixed with, and the words of the block itself. -/
abbrev Words := Vector UInt64 16

/-- The number of bytes in a digest. -/
def digestLength : Nat := 32

/-- The number of bytes in a block. -/
def blockLength : Nat := 128

/-- The words that a state starts from. -/
def initial : State :=
  #v[0x6a09e667f3bcc908, 0xbb67ae8584caa73b, 0x3c6ef372fe94f82b, 0xa54ff53a5f1d36f1,
    0x510e527fade682d1, 0x9b05688c2b3e6c1f, 0x1f83d9abfb41bd6b, 0x5be0cd19137e2179]

/-- The order in which the words of a block are taken, round by round. -/
def rounds : List (Vector (Fin 16) 16) :=
  let table : List (Vector (Fin 16) 16) :=
    [#v[0, 1, 2, 3, 4, 5, 6, 7, 8, 9, 10, 11, 12, 13, 14, 15],
      #v[14, 10, 4, 8, 9, 15, 13, 6, 1, 12, 0, 2, 11, 7, 5, 3],
      #v[11, 8, 12, 0, 5, 2, 15, 13, 10, 14, 3, 6, 7, 1, 9, 4],
      #v[7, 9, 3, 1, 13, 12, 11, 14, 2, 6, 5, 10, 4, 0, 15, 8],
      #v[9, 0, 5, 7, 2, 4, 10, 15, 14, 1, 11, 12, 6, 8, 3, 13],
      #v[2, 12, 6, 10, 0, 11, 8, 3, 4, 13, 7, 5, 15, 14, 1, 9],
      #v[12, 5, 1, 15, 14, 13, 4, 10, 0, 7, 6, 3, 9, 2, 8, 11],
      #v[13, 11, 7, 14, 12, 1, 3, 9, 5, 0, 15, 4, 8, 6, 2, 10],
      #v[6, 15, 14, 9, 11, 3, 0, 8, 12, 2, 13, 7, 1, 4, 10, 5],
      #v[10, 2, 8, 4, 7, 6, 1, 5, 15, 11, 9, 14, 3, 12, 13, 0]]
  table ++ table.take 2

/-- A word turned right by some bits. -/
def rotate (x : UInt64) (bits : UInt64) : UInt64 := (x >>> bits) ||| (x <<< (64 - bits))

/-- Mixes two words of a block into four words. -/
def mix (v : Words) (a b c d : Fin 16) (x y : UInt64) : Words :=
  let v := v.set a (v[a] + v[b] + x)
  let v := v.set d (rotate (v[d] ^^^ v[a]) 32)
  let v := v.set c (v[c] + v[d])
  let v := v.set b (rotate (v[b] ^^^ v[c]) 24)
  let v := v.set a (v[a] + v[b] + y)
  let v := v.set d (rotate (v[d] ^^^ v[a]) 16)
  let v := v.set c (v[c] + v[d])
  v.set b (rotate (v[b] ^^^ v[c]) 63)

/-- One round: columns first, then diagonals. -/
def round (block v : Words) (order : Vector (Fin 16) 16) : Words :=
  let word (i : Fin 16) : UInt64 := block[order[i]]
  let v := mix v 0 4 8 12 (word 0) (word 1)
  let v := mix v 1 5 9 13 (word 2) (word 3)
  let v := mix v 2 6 10 14 (word 4) (word 5)
  let v := mix v 3 7 11 15 (word 6) (word 7)
  let v := mix v 0 5 10 15 (word 8) (word 9)
  let v := mix v 1 6 11 12 (word 10) (word 11)
  let v := mix v 2 7 8 13 (word 12) (word 13)
  mix v 3 4 9 14 (word 14) (word 15)

/-- The words that a block is mixed with: the state and the starting words, marked by how many bytes
have been read up to the end of the block and by whether it is the last one. -/
def seed (h : State) (count : Nat) (last : Bool) : Words :=
  let v : Words := h ++ initial
  let v := v.set 12 (v[12] ^^^ UInt64.ofNat count)
  let v := v.set 13 (v[13] ^^^ UInt64.ofNat (count / Nat.pow 2 64))
  if last then v.set 14 (~~~v[14]) else v

/-- A state after one block. -/
def compress (h : State) (block : Words) (count : Nat) (last : Bool) : State :=
  let v := rounds.foldl (round block) (seed h count last)
  Vector.ofFn fun i : Fin 8 => h[i] ^^^ v[i.val] ^^^ v[i.val + 8]

/-- The word of eight bytes, the lowest one first. Missing bytes count as zero. -/
def word (s : Bytes) : UInt64 := s.foldr (fun b n => n * 256 + b.toUInt64) 0

/-- The words of a block. -/
def wordsOf (block : Bytes) : Words :=
  Vector.ofFn fun i : Fin 16 => word ((block.drop (8 * i)).take 8)

/-- The state after a text, of which `count` bytes have been read before. -/
def absorb (h : State) (count : Nat) (s : Bytes) : State :=
  match _h : s.drop blockLength with
  | [] => compress h (wordsOf s) (count + s.length) true
  | b :: rest =>
    absorb (compress h (wordsOf (s.take blockLength)) (count + blockLength) false)
      (count + blockLength) (b :: rest)
termination_by s.length
decreasing_by
  have := congrArg List.length _h
  simp only [List.length_drop, blockLength] at this ⊢
  simp only [List.length_cons] at this ⊢
  omega

/-- The bytes of a word, the lowest one first. -/
def bytesOf (x : UInt64) : Bytes :=
  (List.range 8).map fun i => (x >>> UInt64.ofNat (8 * i)).toUInt8

/-- The digest of a text. -/
def digest (s : Bytes) : Bytes :=
  let start := initial.set 0 (initial[0] ^^^ 0x01010000 ^^^ UInt64.ofNat digestLength)
  ((absorb start 0 s).toList.flatMap bytesOf).take digestLength

/-- The digest of a text in hexadecimal digits. -/
def fingerprint (s : Bytes) : Bytes := (digest s).flatMap fun b => Bytes.hex 2 b.toNat

end LintPool.Blake2b
