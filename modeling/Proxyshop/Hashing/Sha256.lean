import Mathlib.Data.List.Induction
import Mathlib.Data.Set.Function
import Proxyshop.Python.Text

/-!
# SHA-256

The hash of FIPS 180-4 on lists of bytes, and the hexadecimal spelling `hexdigest` gives it.
-/

namespace Proxyshop.Hashing

open Python

namespace Sha256

def roundConstants : List UInt32 := [
  0x428a2f98, 0x71374491, 0xb5c0fbcf, 0xe9b5dba5, 0x3956c25b, 0x59f111f1, 0x923f82a4, 0xab1c5ed5,
  0xd807aa98, 0x12835b01, 0x243185be, 0x550c7dc3, 0x72be5d74, 0x80deb1fe, 0x9bdc06a7, 0xc19bf174,
  0xe49b69c1, 0xefbe4786, 0x0fc19dc6, 0x240ca1cc, 0x2de92c6f, 0x4a7484aa, 0x5cb0a9dc, 0x76f988da,
  0x983e5152, 0xa831c66d, 0xb00327c8, 0xbf597fc7, 0xc6e00bf3, 0xd5a79147, 0x06ca6351, 0x14292967,
  0x27b70a85, 0x2e1b2138, 0x4d2c6dfc, 0x53380d13, 0x650a7354, 0x766a0abb, 0x81c2c92e, 0x92722c85,
  0xa2bfe8a1, 0xa81a664b, 0xc24b8b70, 0xc76c51a3, 0xd192e819, 0xd6990624, 0xf40e3585, 0x106aa070,
  0x19a4c116, 0x1e376c08, 0x2748774c, 0x34b0bcb5, 0x391c0cb3, 0x4ed8aa4a, 0x5b9cca4f, 0x682e6ff3,
  0x748f82ee, 0x78a5636f, 0x84c87814, 0x8cc70208, 0x90befffa, 0xa4506ceb, 0xbef9a3f7, 0xc67178f2]

structure State where
  a : UInt32
  b : UInt32
  c : UInt32
  d : UInt32
  e : UInt32
  f : UInt32
  g : UInt32
  h : UInt32

def initial : State :=
  ⟨0x6a09e667, 0xbb67ae85, 0x3c6ef372, 0xa54ff53a, 0x510e527f, 0x9b05688c, 0x1f83d9ab, 0x5be0cd19⟩

def State.words (s : State) : List UInt32 := [s.a, s.b, s.c, s.d, s.e, s.f, s.g, s.h]

def State.add (s t : State) : State :=
  ⟨s.a + t.a, s.b + t.b, s.c + t.c, s.d + t.d, s.e + t.e, s.f + t.f, s.g + t.g, s.h + t.h⟩

def rotateRight (x n : UInt32) : UInt32 := (x >>> n) ||| (x <<< (32 - n))

def round (s : State) (input : UInt32 × UInt32) : State :=
  let (constant, word) := input
  let sum1 := rotateRight s.e 6 ^^^ rotateRight s.e 11 ^^^ rotateRight s.e 25
  let choice := (s.e &&& s.f) ^^^ (~~~s.e &&& s.g)
  let t1 := s.h + sum1 + choice + constant + word
  let sum0 := rotateRight s.a 2 ^^^ rotateRight s.a 13 ^^^ rotateRight s.a 22
  let majority := (s.a &&& s.b) ^^^ (s.a &&& s.c) ^^^ (s.b &&& s.c)
  ⟨t1 + (sum0 + majority), s.a, s.b, s.c, s.d + t1, s.e, s.f, s.g⟩

def extend : Nat → List UInt32 → List UInt32
  | 0, _ => []
  | count+1, window =>
      let at' (i : Nat) : UInt32 := window.getD i 0
      let small1 := rotateRight (at' 14) 17 ^^^ rotateRight (at' 14) 19 ^^^ (at' 14 >>> 10)
      let small0 := rotateRight (at' 1) 7 ^^^ rotateRight (at' 1) 18 ^^^ (at' 1 >>> 3)
      let word := small1 + at' 9 + small0 + at' 0
      word :: extend count (window.drop 1 ++ [word])

def word : List UInt8 → UInt32 := List.foldl (fun w byte => (w <<< 8) ||| byte.toUInt32) 0

def compress (s : State) (block : List UInt8) : State :=
  let window := (block.toChunks 4).map word
  s.add ((roundConstants.zip (window ++ extend 48 window)).foldl round s)

def bigEndian (width n : Nat) : List UInt8 :=
  (List.range width).map fun i => UInt8.ofNat (n / 256 ^ (width - 1 - i))

def pad (message : List UInt8) : List UInt8 :=
  message ++ 0x80 :: List.replicate ((119 - message.length % 64) % 64) 0 ++
    bigEndian 8 (8 * message.length)

def wordBytes (w : UInt32) : List UInt8 := bigEndian 4 w.toNat

end Sha256

def sha256 (message : List UInt8) : List UInt8 :=
  (((Sha256.pad message).toChunks 64).foldl Sha256.compress Sha256.initial).words.flatMap
    Sha256.wordBytes

@[simp] theorem sha256_length (message : List UInt8) : (sha256 message).length = 32 := by
  simp [sha256, Sha256.State.words, Sha256.wordBytes, Sha256.bigEndian]

/-! ## Hexadecimal -/

def hexDigit (n : Fin 16) : CodePoint := CodePoint.ofChar (Nat.digitChar n.val)

theorem hexDigit_isAscii : ∀ n, (hexDigit n).isAscii = true := by decide

theorem hexDigit_inj : ∀ m n, hexDigit m = hexDigit n → m = n := by decide

def hexByte (b : UInt8) : Str :=
  [hexDigit ⟨b.toNat / 16, by have := b.toNat_lt; omega⟩, hexDigit ⟨b.toNat % 16, by omega⟩]

theorem hexByte_inj {a b : UInt8} (h : hexByte a = hexByte b) : a = b := by
  obtain ⟨high, rest⟩ := List.cons.inj h
  obtain ⟨low, _⟩ := List.cons.inj rest
  have quotients := congrArg Fin.val (hexDigit_inj _ _ high)
  have remainders := congrArg Fin.val (hexDigit_inj _ _ low)
  simp only at quotients remainders
  exact UInt8.toNat_inj.mp (by omega)

def hex (bytes : List UInt8) : Str := bytes.flatMap hexByte

@[simp] theorem hex_length (bytes : List UInt8) : (hex bytes).length = 2 * bytes.length := by
  induction bytes with
  | nil => rfl
  | cons b bytes ih =>
      have split : hex (b :: bytes) = hexByte b ++ hex bytes := rfl
      rw [split, List.length_append, ih, List.length_cons]
      simp only [hexByte, List.length_cons, List.length_nil]
      omega

theorem hex_inj {a b : List UInt8} (h : hex a = hex b) : a = b := by
  induction a generalizing b with
  | nil =>
      cases b with
      | nil => rfl
      | cons y b => cases h
  | cons x a ih =>
      cases b with
      | nil => cases h
      | cons y b =>
          have split : hexByte x ++ hex a = hexByte y ++ hex b := h
          obtain ⟨heads, tails⟩ := List.append_inj split rfl
          rw [hexByte_inj heads, ih tails]

theorem hex_isAscii (bytes : List UInt8) : Str.isAscii (hex bytes) = true := by
  rw [Str.isAscii, List.all_eq_true]
  intro c member
  obtain ⟨b, -, digit⟩ := List.mem_flatMap.mp member
  simp only [hexByte, List.mem_cons, List.not_mem_nil, or_false] at digit
  rcases digit with rfl | rfl
  · exact hexDigit_isAscii _
  · exact hexDigit_isAscii _

def sha256Hex (message : List UInt8) : Str := hex (sha256 message)

@[simp] theorem sha256Hex_length (message : List UInt8) : (sha256Hex message).length = 64 := by
  rw [sha256Hex, hex_length, sha256_length]

theorem sha256Hex_isAscii (message : List UInt8) : Str.isAscii (sha256Hex message) = true :=
  hex_isAscii _

theorem sha256Hex_ne_nil (message : List UInt8) : sha256Hex message ≠ [] := by
  intro empty
  have lengths := sha256Hex_length message
  rw [empty] at lengths
  exact absurd lengths (by decide)

theorem sha256Hex_injOn {s : Set (List UInt8)} (h : Set.InjOn sha256 s) :
    Set.InjOn sha256Hex s := fun _ ha _ hb equal => h ha hb (hex_inj equal)

end Proxyshop.Hashing

/-!
## HMAC-SHA-256

The keyed hash of RFC 2104 over SHA-256, and its spelling in base 64.
-/

namespace Proxyshop.Hashing

open Python

def blockSize : Nat := 64

def hmacKey (key : List UInt8) : List UInt8 :=
  let short := if blockSize < key.length then sha256 key else key
  short ++ List.replicate (blockSize - short.length) 0

def hmacSha256 (key message : List UInt8) : List UInt8 :=
  sha256 ((hmacKey key).map (· ^^^ 0x5c) ++ sha256 ((hmacKey key).map (· ^^^ 0x36) ++ message))

def base64Alphabet : List Char :=
  "ABCDEFGHIJKLMNOPQRSTUVWXYZabcdefghijklmnopqrstuvwxyz0123456789+/".toList

def base64Digit (n : Nat) : CodePoint := CodePoint.ofChar (base64Alphabet.getD (n % 64) 'A')

/-- `base64.b64encode`, three bytes at a time. -/
def base64 : List UInt8 → Str
  | [] => []
  | [a] =>
      let n := a.toNat * 65536
      [base64Digit (n / 262144), base64Digit (n / 4096)] ++ str "=="
  | [a, b] =>
      let n := a.toNat * 65536 + b.toNat * 256
      [base64Digit (n / 262144), base64Digit (n / 4096), base64Digit (n / 64)] ++ str "="
  | a :: b :: c :: rest =>
      let n := a.toNat * 65536 + b.toNat * 256 + c.toNat
      [base64Digit (n / 262144), base64Digit (n / 4096), base64Digit (n / 64), base64Digit n] ++
        base64 rest

end Proxyshop.Hashing

/-!
## Hash chains

A chain folds a link over a list of bodies. Where the link is injective on the pairs two folds give
it, the head and the length fix every body.
-/

namespace Proxyshop.Hashing

variable {D B : Type} (link : D → B → D)

def headOf (start : D) (bodies : List B) : D := bodies.foldl link start

def inputsOf : D → List B → List (D × B)
  | _, [] => []
  | d, b :: bodies => (d, b) :: inputsOf (link d b) bodies

theorem inputsOf_append (d : D) (xs ys : List B) :
    inputsOf link d (xs ++ ys) = inputsOf link d xs ++ inputsOf link (headOf link d xs) ys := by
  induction xs generalizing d with
  | nil => rfl
  | cons b xs ih => simp only [List.cons_append, inputsOf, ih]; rfl

theorem headOf_concat (d : D) (xs : List B) (b : B) :
    headOf link d (xs ++ [b]) = link (headOf link d xs) b := by
  simp [headOf]

theorem chain_determined (start : D) {xs ys : List B} (lengths : xs.length = ys.length)
    (injective : ∀ p ∈ inputsOf link start xs, ∀ q ∈ inputsOf link start ys,
      link p.1 p.2 = link q.1 q.2 → p = q)
    (heads : headOf link start xs = headOf link start ys) : xs = ys := by
  induction xs using List.reverseRecOn generalizing ys with
  | nil => exact (List.length_eq_zero_iff.mp lengths.symm).symm
  | append_singleton xs x ih =>
      rcases List.eq_nil_or_concat ys with rfl | ⟨ys, y, rfl⟩
      · simp at lengths
      · rw [List.concat_eq_append] at *
        have shorter : xs.length = ys.length := by simpa using lengths
        rw [headOf_concat, headOf_concat] at heads
        rw [inputsOf_append, inputsOf_append] at injective
        obtain ⟨sameHead, rfl⟩ := Prod.mk.inj
          (injective _ (List.mem_append_right _ List.mem_cons_self)
            _ (List.mem_append_right _ List.mem_cons_self) heads)
        have sameRest := ih shorter
          (fun p hp q hq => injective p (List.mem_append_left _ hp) q (List.mem_append_left _ hq))
          sameHead
        rw [sameRest]

end Proxyshop.Hashing
