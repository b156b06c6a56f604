import NestedSite.Number.Power
import NestedSite.Text.Quoted

/-!
# SHA-256

The digest of a sequence of bytes: the bytes are padded to blocks of 64 (`padded`), each block is stretched to 64 words
(`schedule`), and the words are mixed into the eight words of the state one by one (`compress`). The constants are the
first bits of the fractional parts of square and cube roots of primes.
-/

namespace NestedSite.Digest.Sha256

open Number

def primes : List Nat :=
  [2, 3, 5, 7, 11, 13, 17, 19, 23, 29, 31, 37, 41, 43, 47, 53, 59, 61, 67, 71, 73, 79, 83, 89, 97, 101, 103, 107, 109,
    113, 127, 131, 137, 139, 149, 151, 157, 163, 167, 173, 179, 181, 191, 193, 197, 199, 211, 223, 227, 229, 233, 239,
    241, 251, 257, 263, 269, 271, 277, 281, 283, 293, 307, 311]

/-- The greatest number below `2 ^ bits` whose power `exponent` is at most `n`. -/
def root (exponent n : Nat) : Nat → Nat → Nat
  | 0, found => found
  | bits + 1, found =>
    let next := found + twoTo bits
    root exponent n bits (if Nat.pow next exponent ≤ n then next else found)

/-- The first 32 bits of the fractional part of a square root. -/
def squareRootBits (prime : Nat) : UInt32 := (root 2 (prime * twoTo 64) 40 0).toUInt32

/-- The first 32 bits of the fractional part of a cube root. -/
def cubeRootBits (prime : Nat) : UInt32 := (root 3 (prime * twoTo 96) 40 0).toUInt32

def initial : List UInt32 := (primes.take 8).map squareRootBits

def constants : List UInt32 := primes.map cubeRootBits

/-- The bytes of a number, `count` of them, the most significant first. -/
def bigEndian (count n : Nat) : List UInt8 :=
  (List.range count).map fun i => (n / twoTo (8 * (count - 1 - i))).toUInt8

/-- The bytes with a one bit, zeros and their number of bits behind them, so that they fill blocks. -/
def padded (bytes : List UInt8) : List UInt8 :=
  let zeros := (119 - bytes.length % 64) % 64
  bytes ++ 0x80 :: List.replicate zeros 0 ++ bigEndian 8 (8 * bytes.length)

/-- Four bytes each as a word. -/
def words : List UInt8 → List UInt32
  | a :: b :: c :: d :: rest =>
    (((a.toNat * 256 + b.toNat) * 256 + c.toNat) * 256 + d.toNat).toUInt32 :: words rest
  | _ => []

def rotate (x : UInt32) (n : UInt32) : UInt32 := (x >>> n) ||| (x <<< (32 - n))

/-- Stretches a block by `count` words; `recent` are the last 16 words, the last one first. -/
def stretch (recent : List UInt32) : Nat → List UInt32
  | 0 => []
  | count + 1 =>
    let back := fun (n : Nat) => (recent[n - 1]?).getD 0
    let small := fun (x a b c : UInt32) => rotate x a ^^^ rotate x b ^^^ (x >>> c)
    let next := back 16 + small (back 15) 7 18 3 + back 7 + small (back 2) 17 19 10
    next :: stretch (next :: recent.take 15) count

/-- The 64 words of a block. -/
def schedule (block : List UInt32) : List UInt32 := block ++ stretch block.reverse 48

/-- Mixes a word and a constant into the state. -/
def compress (state : List UInt32) (word constant : UInt32) : List UInt32 :=
  match state with
  | [a, b, c, d, e, f, g, h] =>
    let first := h + (rotate e 6 ^^^ rotate e 11 ^^^ rotate e 25) + ((e &&& f) ^^^ ((~~~e) &&& g)) + constant + word
    let second := (rotate a 2 ^^^ rotate a 13 ^^^ rotate a 22) + ((a &&& b) ^^^ (a &&& c) ^^^ (b &&& c))
    [first + second, a, b, c, d + first, e, f, g]
  | state => state

/-- The state after a block. -/
def absorb (state block : List UInt32) : List UInt32 :=
  let mixed := ((schedule block).zip constants).foldl (fun s (w, k) => compress s w k) state
  state.zipWith (· + ·) mixed

/-- The state after all blocks. -/
def absorbAll (state : List UInt32) : Nat → List UInt32 → List UInt32
  | 0, _ => state
  | blocks + 1, ws => absorbAll (absorb state (ws.take 16)) blocks (ws.drop 16)

/-- The digest in hexadecimal digits. -/
def hex (bytes : List UInt8) : String :=
  let ws := words (padded bytes)
  .ofList ((absorbAll initial (ws.length / 16) ws).flatMap fun w => Text.hexDigits 8 w.toNat)

end NestedSite.Digest.Sha256
