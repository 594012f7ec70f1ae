import AgentC.Foundation.BigEndian
import AgentC.Foundation.BlockStreams
import Mathlib.Data.List.GetD
import Mathlib.Data.Nat.NthRoot.Defs
import Mathlib.Data.Nat.Prime.Basic

/-! # SHA-256 as FIPS 180-4 defines it

For messages of bytes. The constants are not listed but computed, as the first bits of
roots of primes. -/

namespace AgentC.Sha256

structure Registers where
  a : UInt32
  b : UInt32
  c : UInt32
  d : UInt32
  e : UInt32
  f : UInt32
  g : UInt32
  h : UInt32
deriving DecidableEq, Repr

namespace Standard

def rotateRight (count : Nat) (x : UInt32) : UInt32 := ⟨x.toBitVec.rotateRight count⟩

def shiftRight (count : Nat) (x : UInt32) : UInt32 := ⟨x.toBitVec >>> count⟩

def choose (x y z : UInt32) : UInt32 := (x &&& y) ^^^ (~~~x &&& z)

def majority (x y z : UInt32) : UInt32 := (x &&& y) ^^^ (x &&& z) ^^^ (y &&& z)

def upperSigma0 (x : UInt32) : UInt32 :=
  rotateRight 2 x ^^^ rotateRight 13 x ^^^ rotateRight 22 x

def upperSigma1 (x : UInt32) : UInt32 :=
  rotateRight 6 x ^^^ rotateRight 11 x ^^^ rotateRight 25 x

def lowerSigma0 (x : UInt32) : UInt32 :=
  rotateRight 7 x ^^^ rotateRight 18 x ^^^ shiftRight 3 x

def lowerSigma1 (x : UInt32) : UInt32 :=
  rotateRight 17 x ^^^ rotateRight 19 x ^^^ shiftRight 10 x

def isPrime (number : Nat) : Bool :=
  decide (2 ≤ number) && (List.range' 2 (number - 2)).all fun divisor => number % divisor != 0

def primes : List Nat := (List.range 312).filter isPrime

def rootFraction (degree prime : Nat) : UInt32 :=
  UInt32.ofNat (Nat.nthRoot degree (prime * 2 ^ (32 * degree)))

def roundConstants : List UInt32 := primes.map (rootFraction 3)

def initial : Registers where
  a := rootFraction 2 2
  b := rootFraction 2 3
  c := rootFraction 2 5
  d := rootFraction 2 7
  e := rootFraction 2 11
  f := rootFraction 2 13
  g := rootFraction 2 17
  h := rootFraction 2 19

/-- The number of zero bytes between the bit behind the message and its length. -/
def zeroBytes (length : Nat) : Nat := (119 - length % 64) % 64

def pad (message : Bytes) : Bytes :=
  message ++ [0x80] ++ List.replicate (zeroBytes message.length) 0 ++
    beBytes 8 (8 * message.length)

def word (block : Bytes) (t : Nat) : UInt32 :=
  UInt32.ofNat (beValue ((block.drop (4 * t)).take 4))

def schedule (block : Bytes) (t : Nat) : UInt32 :=
  if t < 16 then word block t
  else
    lowerSigma1 (schedule block (t - 2)) + schedule block (t - 7) +
      lowerSigma0 (schedule block (t - 15)) + schedule block (t - 16)
termination_by t

def round (block : Bytes) (working : Registers) (t : Nat) : Registers :=
  let t1 := working.h + upperSigma1 working.e + choose working.e working.f working.g +
    roundConstants.getD t 0 + schedule block t
  let t2 := upperSigma0 working.a + majority working.a working.b working.c
  { a := t1 + t2
    b := working.a
    c := working.b
    d := working.c
    e := working.d + t1
    f := working.e
    g := working.f
    h := working.g }

def compress (value : Registers) (block : Bytes) : Registers :=
  let working := (List.range 64).foldl (round block) value
  { a := working.a + value.a
    b := working.b + value.b
    c := working.c + value.c
    d := working.d + value.d
    e := working.e + value.e
    f := working.f + value.f
    g := working.g + value.g
    h := working.h + value.h }

def digest (value : Registers) : Bytes :=
  [value.a, value.b, value.c, value.d, value.e, value.f, value.g, value.h].flatMap fun word =>
    beBytes 4 word.toNat

def sha256 (message : Bytes) : Bytes :=
  digest ((BlockStream.blocks 64 (pad message)).foldl compress initial)

theorem isPrime_iff {number : Nat} : isPrime number = true ↔ number.Prime := by
  simp only [isPrime, Bool.and_eq_true, decide_eq_true_eq, List.all_eq_true, List.mem_range'_1,
    bne_iff_ne]
  rw [Nat.prime_def_lt']
  apply and_congr_right
  intro two
  constructor
  · intro leaves divisor first less divides
    exact leaves divisor ⟨first, by omega⟩ (Nat.mod_eq_zero_of_dvd divides)
  · intro none divisor tried zero
    exact none divisor tried.1 (by omega) (Nat.dvd_of_mod_eq_zero zero)

theorem primes_eq : primes = (List.range 312).filter (fun number => number.Prime) := by
  apply List.filter_congr
  intro number _
  rw [Bool.eq_iff_iff, isPrime_iff, decide_eq_true_eq]

/-- The length is at the end of a block, behind as few zeros as possible. -/
theorem zeroBytes_least (length : Nat) : (length + 1 + zeroBytes length + 8) % 64 = 0 ∧
    ∀ count, (length + 1 + count + 8) % 64 = 0 → zeroBytes length ≤ count := by
  rw [zeroBytes]
  constructor
  · omega
  · intro count aligned
    omega

end Standard

end AgentC.Sha256
