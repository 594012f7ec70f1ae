import AgentC.Sha256.Standard

/-! # The hash context

`core/src/agent_sha256.c`. The buffer of a context is modelled by the bytes in use. -/

namespace AgentC.Sha256

def rotr32 (x n : UInt32) : UInt32 := (x >>> n) ||| (x <<< (32 - n))

def loadBe32 (p : Bytes) : UInt32 :=
  ((p.getD 0 0).toUInt32 <<< 24) ||| ((p.getD 1 0).toUInt32 <<< 16) |||
    ((p.getD 2 0).toUInt32 <<< 8) ||| (p.getD 3 0).toUInt32

def storeBe32 (v : UInt32) : Bytes :=
  [(v >>> 24).toUInt8, (v >>> 16).toUInt8, (v >>> 8).toUInt8, v.toUInt8]

def storeBe64 (v : UInt64) : Bytes :=
  [(v >>> 56).toUInt8, (v >>> 48).toUInt8, (v >>> 40).toUInt8, (v >>> 32).toUInt8,
    (v >>> 24).toUInt8, (v >>> 16).toUInt8, (v >>> 8).toUInt8, v.toUInt8]

def ch (x y z : UInt32) : UInt32 := (x &&& y) ^^^ (~~~x &&& z)
def maj (x y z : UInt32) : UInt32 := (x &&& y) ^^^ (x &&& z) ^^^ (y &&& z)
def bigSigma0 (x : UInt32) : UInt32 := rotr32 x 2 ^^^ rotr32 x 13 ^^^ rotr32 x 22
def bigSigma1 (x : UInt32) : UInt32 := rotr32 x 6 ^^^ rotr32 x 11 ^^^ rotr32 x 25
def smallSigma0 (x : UInt32) : UInt32 := rotr32 x 7 ^^^ rotr32 x 18 ^^^ (x >>> 3)
def smallSigma1 (x : UInt32) : UInt32 := rotr32 x 17 ^^^ rotr32 x 19 ^^^ (x >>> 10)

def K : List UInt32 := [
  0x428a2f98, 0x71374491, 0xb5c0fbcf, 0xe9b5dba5, 0x3956c25b, 0x59f111f1, 0x923f82a4, 0xab1c5ed5,
  0xd807aa98, 0x12835b01, 0x243185be, 0x550c7dc3, 0x72be5d74, 0x80deb1fe, 0x9bdc06a7, 0xc19bf174,
  0xe49b69c1, 0xefbe4786, 0x0fc19dc6, 0x240ca1cc, 0x2de92c6f, 0x4a7484aa, 0x5cb0a9dc, 0x76f988da,
  0x983e5152, 0xa831c66d, 0xb00327c8, 0xbf597fc7, 0xc6e00bf3, 0xd5a79147, 0x06ca6351, 0x14292967,
  0x27b70a85, 0x2e1b2138, 0x4d2c6dfc, 0x53380d13, 0x650a7354, 0x766a0abb, 0x81c2c92e, 0x92722c85,
  0xa2bfe8a1, 0xa81a664b, 0xc24b8b70, 0xc76c51a3, 0xd192e819, 0xd6990624, 0xf40e3585, 0x106aa070,
  0x19a4c116, 0x1e376c08, 0x2748774c, 0x34b0bcb5, 0x391c0cb3, 0x4ed8aa4a, 0x5b9cca4f, 0x682e6ff3,
  0x748f82ee, 0x78a5636f, 0x84c87814, 0x8cc70208, 0x90befffa, 0xa4506ceb, 0xbef9a3f7, 0xc67178f2]

/-- The word behind the words `w` in the second loop over `w`. -/
def nextWord (w : List UInt32) (i : Nat) : UInt32 :=
  smallSigma1 (w.getD (i - 2) 0) + w.getD (i - 7) 0 + smallSigma0 (w.getD (i - 15) 0) +
    w.getD (i - 16) 0

/-- The array `w` after both loops. -/
def schedule (block : Bytes) : List UInt32 :=
  (List.range' 16 48).foldl (fun w i => w ++ [nextWord w i])
    ((List.range 16).map fun i => loadBe32 (block.drop (i * 4)))

/-- One turn of the loop over `a` to `h`. -/
def round (w : List UInt32) (r : Registers) (i : Nat) : Registers :=
  let t1 := r.h + bigSigma1 r.e + ch r.e r.f r.g + K.getD i 0 + w.getD i 0
  let t2 := bigSigma0 r.a + maj r.a r.b r.c
  { h := r.g
    g := r.f
    f := r.e
    e := r.d + t1
    d := r.c
    c := r.b
    b := r.a
    a := t1 + t2 }

/-- `sha256_compress` on the hash value of a context. -/
def compress (h : Registers) (block : Bytes) : Registers :=
  let r := (List.range 64).foldl (round (schedule block)) h
  { a := h.a + r.a
    b := h.b + r.b
    c := h.c + r.c
    d := h.d + r.d
    e := h.e + r.e
    f := h.f + r.f
    g := h.g + r.g
    h := h.h + r.h }

/-- `agent_sha256_ctx_t` between calls. -/
structure Context where
  h : Registers
  totalLen : UInt64
  buf : Bytes
  room : buf.length < 64

namespace Context

/-- `agent_sha256_init` -/
def init : Context where
  h :=
    { a := 0x6a09e667
      b := 0xbb67ae85
      c := 0x3c6ef372
      d := 0xa54ff53a
      e := 0x510e527f
      f := 0x9b05688c
      g := 0x1f83d9ab
      h := 0x5be0cd19 }
  totalLen := 0
  buf := []
  room := by decide

/-- The first part of `agent_sha256_update`: bytes in the buffer are filled up to a
block. The hash value, the buffer and the data behind. -/
def fill (h : Registers) (buf data : Bytes) : Registers × Bytes × Bytes :=
  if buf.length ≠ 0 then
    let need := 64 - buf.length
    let take := if data.length < need then data.length else need
    let filled := buf ++ data.take take
    if filled.length = 64 then (compress h filled, [], data.drop take)
    else (h, filled, data.drop take)
  else (h, buf, data)

def compressBlocks (h : Registers) (data : Bytes) : Registers × Bytes :=
  BlockStream.consume 64 compress h data

theorem fill_take (buf data : Bytes) :
    (if data.length < 64 - buf.length then data.length else 64 - buf.length) =
      min data.length (64 - buf.length) := by
  split <;> omega

theorem length_fill (h : Registers) {buf : Bytes} (room : buf.length < 64) (data : Bytes) :
    (fill h buf data).2.1.length < 64 := by
  simp only [fill, fill_take]
  split
  · split
    · exact Nat.zero_lt_succ _
    · next partly =>
      rw [List.length_append, List.length_take] at partly ⊢
      omega
  · exact room

/-- The buffer at the end of `agent_sha256_update`: data that is left replaces what is
in it. -/
def keep (buf rest : Bytes) : Bytes := if rest.length ≠ 0 then rest else buf

/-- `agent_sha256_update` -/
def update (ctx : Context) (data : Bytes) : Context where
  h := (compressBlocks (fill ctx.h ctx.buf data).1 (fill ctx.h ctx.buf data).2.2).1
  totalLen := ctx.totalLen + UInt64.ofNat data.length
  buf := keep (fill ctx.h ctx.buf data).2.1
    (compressBlocks (fill ctx.h ctx.buf data).1 (fill ctx.h ctx.buf data).2.2).2
  room := by
    rw [keep]
    split
    · rw [compressBlocks, BlockStream.length_consume (by decide)]
      exact Nat.mod_lt _ (by decide)
    · exact length_fill ctx.h ctx.room data

/-- `agent_sha256_final` -/
def final (ctx : Context) : Bytes :=
  let used := ctx.buf.length
  let bitLen := ctx.totalLen * 8
  let marked := ctx.buf ++ [0x80]
  let h :=
    if used + 1 ≤ 56 then
      compress ctx.h (marked ++ List.replicate (56 - (used + 1)) 0 ++ storeBe64 bitLen)
    else
      compress (compress ctx.h (marked ++ List.replicate (64 - (used + 1)) 0))
        (List.replicate 56 0 ++ storeBe64 bitLen)
  [h.a, h.b, h.c, h.d, h.e, h.f, h.g, h.h].flatMap storeBe32

end Context

end AgentC.Sha256
