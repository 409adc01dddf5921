import Mathlib.Data.List.Basic
import Mathlib.Logic.Function.Iterate
import Mathlib.Algebra.Group.Nat.Defs

/-! Authenticated encryption with associated data: what is relied on, and ChaCha20-Poly1305
as one that has it. -/
namespace PuffoAgent.Crypto

/-- The two directions of a cipher, over byte strings; `none` is a refused ciphertext. -/
structure Aead where
  encrypt : (key nonce plaintext aad : List UInt8) → List UInt8
  decrypt : (key nonce ciphertext aad : List UInt8) → Option (List UInt8)

/-- What was encrypted is decrypted again, and a tag of 16 bytes is all that is added. -/
structure Aead.Sound (aead : Aead) : Prop where
  opens : ∀ {key nonce plaintext aad : List UInt8}, key.length = 32 → nonce.length = 12 →
    aead.decrypt key nonce (aead.encrypt key nonce plaintext aad) aad = some plaintext
  tagged : ∀ {key nonce plaintext aad : List UInt8}, key.length = 32 → nonce.length = 12 →
    (aead.encrypt key nonce plaintext aad).length = plaintext.length + 16

section Stream

def rotl (x : UInt32) (n : UInt32) : UInt32 := (x <<< n) ||| (x >>> (32 - n))

abbrev Block := Vector UInt32 16

def mix (s : Block) (a b d : Fin 16) (n : UInt32) : Block :=
  let s := s.set a (s[a] + s[b])
  s.set d (rotl (s[d] ^^^ s[a]) n)

def quarterRound (s : Block) (a b c d : Fin 16) : Block :=
  mix (mix (mix (mix s a b d 16) c d b 12) a b d 8) c d b 7

/-- A round over the columns and one over the diagonals. -/
def doubleRound (s : Block) : Block :=
  let s := quarterRound (quarterRound (quarterRound (quarterRound s 0 4 8 12) 1 5 9 13) 2 6 10 14) 3 7 11 15
  quarterRound (quarterRound (quarterRound (quarterRound s 0 5 10 15) 1 6 11 12) 2 7 8 13) 3 4 9 14

/-- The little-endian number of a byte string. -/
def ofBytes (bytes : List UInt8) : Nat := bytes.foldr (fun b n => b.toNat + 256 * n) 0

def toBytes (count n : Nat) : List UInt8 := (List.range count).map fun i => UInt8.ofNat (n / 256 ^ i)

def wordOf (bytes : List UInt8) (i : Nat) : UInt32 := UInt32.ofNat (ofBytes ((bytes.drop (4 * i)).take 4))

/-- The constants, the key, the counter and the nonce. -/
def initialBlock (key nonce : List UInt8) (counter : Nat) : Block :=
  #v[0x61707865, 0x3320646e, 0x79622d32, 0x6b206574, wordOf key 0, wordOf key 1, wordOf key 2, wordOf key 3,
    wordOf key 4, wordOf key 5, wordOf key 6, wordOf key 7, UInt32.ofNat counter, wordOf nonce 0, wordOf nonce 1,
    wordOf nonce 2]

def streamBlock (key nonce : List UInt8) (counter : Nat) : List UInt8 :=
  let s := initialBlock key nonce counter
  (List.finRange 16).flatMap fun i => toBytes 4 ((doubleRound^[10] s)[i] + s[i]).toNat

/-- The key stream over `length` bytes, from the second block on. -/
def keyStream (key nonce : List UInt8) (length : Nat) : List UInt8 :=
  (List.range ((length + 63) / 64)).flatMap fun i => streamBlock key nonce (i + 1)

def xorStream (bytes stream : List UInt8) : List UInt8 := List.zipWith (· ^^^ ·) bytes stream

end Stream

section Tag

/-- Poly1305 over blocks of 16 bytes, each with a bit above it. -/
def poly1305 (r : Nat) (acc : Nat) : Nat → List UInt8 → Nat
  | 0, _ => acc
  | n + 1, bytes => poly1305 r ((acc + ofBytes (bytes.take 16 ++ [1])) * r % (2 ^ 130 - 5)) n (bytes.drop 16)

def padded (bytes : List UInt8) : List UInt8 := bytes ++ List.replicate ((16 - bytes.length % 16) % 16) 0

def tagOf (key nonce ciphertext aad : List UInt8) : List UInt8 :=
  let once := streamBlock key nonce 0
  let r := ofBytes (once.take 16) &&& 0x0ffffffc0ffffffc0ffffffc0fffffff
  let data := padded aad ++ padded ciphertext ++ toBytes 8 aad.length ++ toBytes 8 ciphertext.length
  toBytes 16 (poly1305 r 0 (data.length / 16) data + ofBytes ((once.drop 16).take 16))

end Tag

/-- ChaCha20-Poly1305. -/
def chachaPoly : Aead where
  encrypt key nonce plaintext aad :=
    let ciphertext := xorStream plaintext (keyStream key nonce plaintext.length)
    ciphertext ++ tagOf key nonce ciphertext aad
  decrypt key nonce ciphertext aad :=
    let body := ciphertext.take (ciphertext.length - 16)
    if ciphertext.length < 16 ∨ ciphertext.drop (ciphertext.length - 16) ≠ tagOf key nonce body aad then none
    else some (xorStream body (keyStream key nonce body.length))

section Sound

theorem length_toBytes (count n : Nat) : (toBytes count n).length = count := by
  rw [toBytes, List.length_map, List.length_range]

theorem length_streamBlock (key nonce : List UInt8) (counter : Nat) : (streamBlock key nonce counter).length = 64 := by
  simp [streamBlock, List.length_flatMap, length_toBytes, Function.comp_def]

theorem length_keyStream (key nonce : List UInt8) (length : Nat) : length ≤ (keyStream key nonce length).length := by
  simp only [keyStream, List.length_flatMap, length_streamBlock, List.map_const', List.sum_replicate_nat,
    List.length_range]
  omega

/-- The stream applied twice leaves the bytes as they were. -/
theorem xorStream_twice {bytes stream : List UInt8} (h : bytes.length ≤ stream.length) :
    xorStream (xorStream bytes stream) stream = bytes := by
  induction bytes generalizing stream with
  | nil => rfl
  | cons b bytes ih =>
    cases stream with
    | nil => cases h
    | cons k stream =>
      have hb : b ^^^ k ^^^ k = b := by rw [UInt8.xor_assoc, UInt8.xor_self, UInt8.xor_zero]
      have hrest := ih (Nat.le_of_succ_le_succ h)
      simp only [xorStream, List.zipWith_cons_cons, hb] at hrest ⊢
      rw [hrest]

theorem length_xorStream {bytes stream : List UInt8} (h : bytes.length ≤ stream.length) :
    (xorStream bytes stream).length = bytes.length := by
  rw [xorStream, List.length_zipWith, Nat.min_eq_left h]

theorem length_tagOf (key nonce ciphertext aad : List UInt8) : (tagOf key nonce ciphertext aad).length = 16 :=
  length_toBytes _ _

theorem chachaPoly_sound : chachaPoly.Sound where
  tagged {key nonce plaintext aad} _ _ := by
    change (xorStream _ _ ++ tagOf _ _ _ _).length = _
    rw [List.length_append, length_tagOf, length_xorStream (length_keyStream _ _ _)]
  opens {key nonce plaintext aad} _ _ := by
    have hlength := length_xorStream (length_keyStream key nonce plaintext.length)
    simp only [chachaPoly, List.length_append, length_tagOf, Nat.add_sub_cancel, List.take_left, List.drop_left]
    rw [if_neg (by simp), hlength, xorStream_twice (length_keyStream _ _ _)]

end Sound
end PuffoAgent.Crypto
