import Mathlib.Data.List.Basic
import Mathlib.Algebra.Group.Nat.Defs

/-! SHA-256 over byte lists; words are naturals below 2^32. -/
namespace Sha256

def word : Nat := 2^32

def rotate (x n : Nat) : Nat := (x >>> n) ||| ((x <<< (32 - n)) % word)

def choice (x y z : Nat) : Nat := (x &&& y) ^^^ ((word - 1 - x) &&& z)

def majority (x y z : Nat) : Nat := (x &&& y) ^^^ (x &&& z) ^^^ (y &&& z)

def bigSigma0 (x : Nat) : Nat := rotate x 2 ^^^ rotate x 13 ^^^ rotate x 22

def bigSigma1 (x : Nat) : Nat := rotate x 6 ^^^ rotate x 11 ^^^ rotate x 25

def smallSigma0 (x : Nat) : Nat := rotate x 7 ^^^ rotate x 18 ^^^ (x >>> 3)

def smallSigma1 (x : Nat) : Nat := rotate x 17 ^^^ rotate x 19 ^^^ (x >>> 10)

def roundConstants : List Nat := [
  0x428a2f98,0x71374491,0xb5c0fbcf,0xe9b5dba5,0x3956c25b,0x59f111f1,0x923f82a4,0xab1c5ed5,
  0xd807aa98,0x12835b01,0x243185be,0x550c7dc3,0x72be5d74,0x80deb1fe,0x9bdc06a7,0xc19bf174,
  0xe49b69c1,0xefbe4786,0x0fc19dc6,0x240ca1cc,0x2de92c6f,0x4a7484aa,0x5cb0a9dc,0x76f988da,
  0x983e5152,0xa831c66d,0xb00327c8,0xbf597fc7,0xc6e00bf3,0xd5a79147,0x06ca6351,0x14292967,
  0x27b70a85,0x2e1b2138,0x4d2c6dfc,0x53380d13,0x650a7354,0x766a0abb,0x81c2c92e,0x92722c85,
  0xa2bfe8a1,0xa81a664b,0xc24b8b70,0xc76c51a3,0xd192e819,0xd6990624,0xf40e3585,0x106aa070,
  0x19a4c116,0x1e376c08,0x2748774c,0x34b0bcb5,0x391c0cb3,0x4ed8aa4a,0x5b9cca4f,0x682e6ff3,
  0x748f82ee,0x78a5636f,0x84c87814,0x8cc70208,0x90befffa,0xa4506ceb,0xbef9a3f7,0xc67178f2]

structure State where
  (a b c d e f g h : Nat)

def initial : State :=
  ⟨0x6a09e667,0xbb67ae85,0x3c6ef372,0xa54ff53a,0x510e527f,0x9b05688c,0x1f83d9ab,0x5be0cd19⟩

def schedule : Nat → List Nat → List Nat
  | 0,w => w
  | more + 1,w =>
    let next := smallSigma1 (w.getD 1 0) + w.getD 6 0 + smallSigma0 (w.getD 14 0) + w.getD 15 0
    schedule more (next % word :: w)

def round (s : State) (input : Nat × Nat) : State :=
  let t := s.h + bigSigma1 s.e + choice s.e s.f s.g + input.1 + input.2
  let u := bigSigma0 s.a + majority s.a s.b s.c
  ⟨(t + u) % word,s.a,s.b,s.c,(s.d + t) % word,s.e,s.f,s.g⟩

def compress (s : State) (block : List Nat) : State :=
  let t := (roundConstants.zip (schedule 48 block.reverse).reverse).foldl round s
  ⟨(s.a + t.a) % word,(s.b + t.b) % word,(s.c + t.c) % word,(s.d + t.d) % word,
    (s.e + t.e) % word,(s.f + t.f) % word,(s.g + t.g) % word,(s.h + t.h) % word⟩

def bigEndian (size n : Nat) : List UInt8 :=
  (List.range size).reverse.map (fun i => (n / 256^i).toUInt8)

def padded (input : List UInt8) : List UInt8 :=
  input ++ 0x80 :: List.replicate ((119 - input.length % 64) % 64) 0 ++ bigEndian 8 (8 * input.length)

def words : List UInt8 → List Nat
  | a :: b :: c :: d :: rest =>
    (((a.toNat * 256 + b.toNat) * 256 + c.toNat) * 256 + d.toNat) :: words rest
  | _ => []

def blocks : Nat → State → List Nat → State
  | 0,s,_ => s
  | more + 1,s,input => blocks more (compress s (input.take 16)) (input.drop 16)

def digest (input : List UInt8) : List UInt8 :=
  let all := words (padded input)
  let s := blocks (all.length / 16) initial all
  [s.a,s.b,s.c,s.d,s.e,s.f,s.g,s.h].flatMap (bigEndian 4)

theorem bigEndianLength (size n : Nat) : (bigEndian size n).length = size := by
  simp [bigEndian]

theorem digestLength (input : List UInt8) : (digest input).length = 32 := by
  simp [digest,bigEndianLength]

example : (digest [97,98,99]).take 4 = [0xba,0x78,0x16,0xbf] := by decide +kernel

end Sha256
