import AgentC.Sha256.Context

/-! # A message in pieces has the digest of the message

The compression function of the code is that of the standard; the context keeps the
whole blocks of what it was given compressed and the rest buffered, and the last one or
two blocks are the end of the padded message. -/

namespace AgentC.Sha256

theorem rotr32_eq {n : UInt32} (positive : 0 < n.toNat) (inside : n.toNat < 32) (x : UInt32) :
    rotr32 x n = Standard.rotateRight n.toNat x := by
  have inverse : (32 - n).toNat = 32 - n.toNat := UInt32.toNat_sub_of_le _ _ (Nat.le_of_lt inside)
  apply UInt32.toBitVec_inj.mp
  apply BitVec.eq_of_toNat_eq
  rw [rotr32, Standard.rotateRight, BitVec.rotateRight_def, Nat.mod_eq_of_lt inside]
  simp only [UInt32.toNat_toBitVec, UInt32.toNat_or, UInt32.toNat_shiftRight,
    UInt32.toNat_shiftLeft, BitVec.toNat_or, BitVec.toNat_ushiftRight, BitVec.toNat_shiftLeft,
    inverse]
  rw [Nat.mod_eq_of_lt inside, Nat.mod_eq_of_lt (show 32 - n.toNat < 32 by omega)]

theorem shiftRight_eq {n : UInt32} (inside : n.toNat < 32) (x : UInt32) :
    x >>> n = Standard.shiftRight n.toNat x := by
  apply UInt32.toBitVec_inj.mp
  apply BitVec.eq_of_toNat_eq
  rw [Standard.shiftRight, UInt32.toNat_toBitVec, UInt32.toNat_shiftRight,
    Nat.mod_eq_of_lt inside, BitVec.toNat_ushiftRight, UInt32.toNat_toBitVec]

section Rotations

variable (x : UInt32)

theorem bigSigma0_eq : bigSigma0 x = Standard.upperSigma0 x := by
  rw [bigSigma0, rotr32_eq (by decide) (by decide), rotr32_eq (by decide) (by decide),
    rotr32_eq (by decide) (by decide)]
  rfl

theorem bigSigma1_eq : bigSigma1 x = Standard.upperSigma1 x := by
  rw [bigSigma1, rotr32_eq (by decide) (by decide), rotr32_eq (by decide) (by decide),
    rotr32_eq (by decide) (by decide)]
  rfl

theorem smallSigma0_eq : smallSigma0 x = Standard.lowerSigma0 x := by
  rw [smallSigma0, rotr32_eq (by decide) (by decide), rotr32_eq (by decide) (by decide),
    shiftRight_eq (by decide)]
  rfl

theorem smallSigma1_eq : smallSigma1 x = Standard.lowerSigma1 x := by
  rw [smallSigma1, rotr32_eq (by decide) (by decide), rotr32_eq (by decide) (by decide),
    shiftRight_eq (by decide)]
  rfl

end Rotations

theorem loadBe32_eq (p0 p1 p2 p3 : UInt8) (rest : Bytes) :
    loadBe32 (p0 :: p1 :: p2 :: p3 :: rest) = UInt32.ofNat (beValue [p0, p1, p2, p3]) := by
  have upper : (p0.toUInt32 <<< 24).toNat = p0.toNat * 2 ^ 24 :=
    toNat_shiftedUp (show p0.toUInt32.toNat < 2 ^ 8 from p0.toNat_lt) (by decide) (by decide)
  have second : (p1.toUInt32 <<< 16).toNat = p1.toNat * 2 ^ 16 :=
    toNat_shiftedUp (show p1.toUInt32.toNat < 2 ^ 8 from p1.toNat_lt) (by decide) (by decide)
  have third : (p2.toUInt32 <<< 8).toNat = p2.toNat * 2 ^ 8 :=
    toNat_shiftedUp (show p2.toUInt32.toNat < 2 ^ 8 from p2.toNat_lt) (by decide) (by decide)
  have small0 := p0.toNat_lt
  have small1 := p1.toNat_lt
  have small2 := p2.toNat_lt
  have small3 := p3.toNat_lt
  have value : beValue [p0, p1, p2, p3] =
      p0.toNat * 2 ^ 24 + p1.toNat * 2 ^ 16 + p2.toNat * 2 ^ 8 + p3.toNat := by
    simp only [beValue, List.foldl_cons, List.foldl_nil]
    omega
  apply UInt32.toNat_inj.mp
  rw [value, UInt32.toNat_ofNat', Nat.mod_eq_of_lt (by omega)]
  have two : p0.toNat * 2 ^ 24 ||| p1.toNat * 2 ^ 16 = p0.toNat * 2 ^ 24 + p1.toNat * 2 ^ 16 :=
    or_eq_add 24 (Nat.dvd_mul_left ..) (by omega)
  have three : p0.toNat * 2 ^ 24 + p1.toNat * 2 ^ 16 ||| p2.toNat * 2 ^ 8 =
      p0.toNat * 2 ^ 24 + p1.toNat * 2 ^ 16 + p2.toNat * 2 ^ 8 :=
    or_eq_add 16 (by omega) (by omega)
  simp only [loadBe32, List.getD_cons_zero, List.getD_cons_succ, UInt32.toNat_or, upper, second,
    third, UInt8.toNat_toUInt32]
  rw [two, three, or_eq_add 8 (by omega) small3]

theorem storeBe32_eq (v : UInt32) : storeBe32 v = beBytes 4 v.toNat := by
  have byte : ∀ {n : UInt32}, n.toNat < 32 →
      (v >>> n).toUInt8 = UInt8.ofNat (v.toNat / 2 ^ n.toNat % 256) := by
    intro n inside
    apply UInt8.toNat_inj.mp
    rw [UInt32.toNat_toUInt8, UInt32.toNat_shiftRight, Nat.mod_eq_of_lt inside,
      Nat.shiftRight_eq_div_pow, UInt8.toNat_ofNat', Nat.mod_mod]
  have last : v.toUInt8 = UInt8.ofNat (v.toNat / 1 % 256) := by
    rw [Nat.div_one]
    apply UInt8.toNat_inj.mp
    rw [UInt32.toNat_toUInt8, UInt8.toNat_ofNat', Nat.mod_mod]
  rw [storeBe32, byte (by decide), byte (by decide), byte (by decide), last]
  rfl

theorem storeBe64_eq (v : UInt64) : storeBe64 v = beBytes 8 v.toNat := by
  have byte : ∀ {n : UInt64}, n.toNat < 64 →
      (v >>> n).toUInt8 = UInt8.ofNat (v.toNat / 2 ^ n.toNat % 256) := by
    intro n inside
    apply UInt8.toNat_inj.mp
    rw [UInt64.toNat_toUInt8, UInt64.toNat_shiftRight, Nat.mod_eq_of_lt inside,
      Nat.shiftRight_eq_div_pow, UInt8.toNat_ofNat', Nat.mod_mod]
  have last : v.toUInt8 = UInt8.ofNat (v.toNat / 1 % 256) := by
    rw [Nat.div_one]
    apply UInt8.toNat_inj.mp
    rw [UInt64.toNat_toUInt8, UInt8.toNat_ofNat', Nat.mod_mod]
  rw [storeBe64, byte (by decide), byte (by decide), byte (by decide), byte (by decide),
    byte (by decide), byte (by decide), byte (by decide), last]
  rfl

theorem K_eq : K = Standard.roundConstants := by
  decide +kernel

section Compression

variable {block : Bytes} (whole : block.length = 64)
include whole

theorem loadBe32_word {t : Nat} (inside : t < 16) :
    loadBe32 (block.drop (t * 4)) = Standard.word block t := by
  rw [Standard.word, Nat.mul_comm 4 t]
  have four : 4 ≤ (block.drop (t * 4)).length := by
    rw [List.length_drop]
    omega
  generalize block.drop (t * 4) = behind at four ⊢
  match behind, four with
  | p0 :: p1 :: p2 :: p3 :: rest, _ => exact loadBe32_eq p0 p1 p2 p3 rest

theorem foldl_nextWord (count : Nat) :
    (List.range' 16 count).foldl (fun w i => w ++ [nextWord w i])
        ((List.range 16).map fun i => loadBe32 (block.drop (i * 4))) =
      (List.range (16 + count)).map (Standard.schedule block) := by
  induction count with
  | zero =>
    apply List.map_congr_left
    intro t member
    have inside := List.mem_range.mp member
    rw [loadBe32_word whole inside, Standard.schedule, if_pos inside]
  | succ count induction =>
    have before : ∀ {t : Nat}, t < 16 + count →
        ((List.range (16 + count)).map (Standard.schedule block)).getD t 0 =
          Standard.schedule block t := by
      intro t inside
      rw [List.getD_eq_getElem _ _ (by simpa using inside), List.getElem_map,
        List.getElem_range]
    have next : nextWord ((List.range (16 + count)).map (Standard.schedule block)) (16 + count) =
        Standard.schedule block (16 + count) := by
      rw [nextWord, before (by omega), before (by omega), before (by omega), before (by omega),
        smallSigma0_eq, smallSigma1_eq, Standard.schedule.eq_def block (16 + count),
        if_neg (by omega)]
    rw [List.range'_concat, List.foldl_append, induction, List.foldl_cons, List.foldl_nil,
      Nat.one_mul, next, ← Nat.add_assoc, List.range_succ, List.map_append, List.map_singleton]

theorem schedule_getD {t : Nat} (inside : t < 64) :
    (schedule block).getD t 0 = Standard.schedule block t := by
  rw [schedule, foldl_nextWord whole, List.getD_eq_getElem _ _ (by simpa using inside),
    List.getElem_map, List.getElem_range]

theorem compress_eq (h : Registers) : compress h block = Standard.compress h block := by
  have rounds : (List.range 64).foldl (round (schedule block)) h =
      (List.range 64).foldl (Standard.round block) h := by
    apply List.foldl_ext
    intro r t member
    rw [round, Standard.round, schedule_getD whole (List.mem_range.mp member), bigSigma0_eq,
      bigSigma1_eq, K_eq]
    rfl
  rw [compress, Standard.compress, rounds]
  simp only [UInt32.add_comm]

end Compression

theorem init_h : Context.init.h = Standard.initial := by
  decide +kernel

namespace Context

open BlockStream

theorem update_consume (ctx : Context) (data : Bytes) :
    ((ctx.update data).h, (ctx.update data).buf) = consume 64 compress ctx.h (ctx.buf ++ data) := by
  have room := ctx.room
  simp only [update, fill, fill_take]
  split
  · next used =>
    have split := List.take_append_drop (min data.length (64 - ctx.buf.length)) data
    split
    · next full =>
      conv_rhs => rw [← split, ← List.append_assoc, consume_block (by decide) full]
      rw [compressBlocks, keep]
      split
      · rfl
      · next none => rw [← List.eq_nil_of_length_eq_zero (not_not.mp none)]
    · next partly =>
      rw [List.length_append, List.length_take] at partly
      have all : min data.length (64 - ctx.buf.length) = data.length := by omega
      have short : (ctx.buf ++ data).length < 64 := by
        rw [List.length_append]
        omega
      have nothing : compressBlocks ctx.h [] = (ctx.h, []) :=
        consume_short (show 0 < 64 by decide)
      rw [all, List.take_length, List.drop_length, nothing, consume_short short]
      rfl
  · next unused =>
    have empty : ctx.buf = [] := List.eq_nil_of_length_eq_zero (not_not.mp unused)
    rw [empty, List.nil_append, compressBlocks, keep]
    split
    · rfl
    · next none => rw [← List.eq_nil_of_length_eq_zero (not_not.mp none)]

/-- What the context keeps of the message so far. -/
structure Holds (ctx : Context) (message : Bytes) : Prop where
  taken : (ctx.h, ctx.buf) = consume 64 compress init.h message
  length : ctx.totalLen = UInt64.ofNat message.length

theorem holds_init : init.Holds [] where
  taken := (consume_short (show 0 < 64 by decide)).symm
  length := rfl

variable {ctx : Context} {message : Bytes}

theorem Holds.update (holds : ctx.Holds message) (data : Bytes) :
    (ctx.update data).Holds (message ++ data) where
  taken := by
    have whole := @consume_append _ _ 64 compress init.h message (by decide) data
    rw [← holds.taken] at whole
    rw [update_consume, whole]
  length := by
    rw [Context.update, holds.length, List.length_append, UInt64.ofNat_add]

theorem Holds.foldl_update (holds : ctx.Holds message) (chunks : List Bytes) :
    (chunks.foldl Context.update ctx).Holds (message ++ chunks.flatten) := by
  induction chunks generalizing ctx message with
  | nil =>
    rw [List.flatten_nil, List.append_nil]
    exact holds
  | cons chunk rest induction =>
    rw [List.foldl_cons, List.flatten_cons, ← List.append_assoc]
    exact induction (holds.update chunk)

/-- The end of the padded message: a bit, zeros and the length in bits. -/
def padding (length : Nat) : Bytes :=
  [0x80] ++ List.replicate (Standard.zeroBytes length) 0 ++ beBytes 8 (8 * length)

theorem Holds.bitLen (holds : ctx.Holds message) (short : message.length < 2 ^ 61) :
    storeBe64 (ctx.totalLen * 8) = beBytes 8 (8 * message.length) := by
  have value : (ctx.totalLen * 8).toNat = 8 * message.length := by
    have eight : (8 : UInt64).toNat = 8 := rfl
    rw [holds.length, UInt64.toNat_mul, UInt64.toNat_ofNat', eight]
    omega
  rw [storeBe64_eq, value]

theorem Holds.final_consume (holds : ctx.Holds message) (short : message.length < 2 ^ 61) :
    ctx.final = Standard.digest
      (consume 64 compress ctx.h (ctx.buf ++ padding message.length)).1 := by
  have used : ctx.buf.length = message.length % 64 := by
    have buffer := congrArg (fun taken => taken.2.length) holds.taken
    rw [length_consume (by decide)] at buffer
    exact buffer
  have words : ∀ h : Registers,
      [h.a, h.b, h.c, h.d, h.e, h.f, h.g, h.h].flatMap storeBe32 = Standard.digest h := by
    intro h
    rw [Standard.digest, funext storeBe32_eq]
  rw [Context.final, words, holds.bitLen short, padding, Standard.zeroBytes, ← used]
  congr 1
  have room := ctx.room
  split
  · next fits =>
    have zeros : (119 - ctx.buf.length) % 64 = 56 - (ctx.buf.length + 1) := by omega
    rw [zeros, ← List.append_assoc, ← List.append_assoc, consume_whole (by decide)]
    simp only [List.length_append, List.length_replicate, length_beBytes, List.length_singleton]
    omega
  · next exceeds =>
    have zeros : (119 - ctx.buf.length) % 64 = 64 - (ctx.buf.length + 1) + 56 := by omega
    rw [zeros, List.replicate_add, ← List.append_assoc, ← List.append_assoc,
      ← List.append_assoc, List.append_assoc (_ ++ List.replicate (64 - _) 0),
      consume_block (by decide), consume_whole (by decide)]
    · simp only [List.length_append, List.length_replicate, length_beBytes]
    · simp only [List.length_append, List.length_replicate, List.length_singleton]
      omega

theorem Holds.final (holds : ctx.Holds message) (short : message.length < 2 ^ 61) :
    ctx.final = Standard.sha256 message := by
  have padded : Standard.pad message = message ++ padding message.length := by
    rw [Standard.pad, padding, ← List.append_assoc, ← List.append_assoc]
  have whole := @consume_append _ _ 64 compress init.h message (by decide)
    (padding message.length)
  rw [← holds.taken] at whole
  rw [holds.final_consume short, Standard.sha256, ← consume_fst (by decide), padded, ← init_h,
    ← whole]
  congr 2
  exact consume_congr fun h block size => compress_eq size h

/-- However a message is split into calls, the digest is that of the standard. -/
theorem final_eq_sha256 (chunks : List Bytes) (short : chunks.flatten.length < 2 ^ 61) :
    (chunks.foldl update init).final = Standard.sha256 chunks.flatten := by
  have holds := holds_init.foldl_update chunks
  rw [List.nil_append] at holds
  exact holds.final short

/-- The message "abc" in two pieces, and an empty one. -/
theorem final_eq_sha256_sample :
    ([ascii "a", [], ascii "bc"].foldl update init).final = Standard.sha256 (ascii "abc") ∧
      (([ascii "a", [], ascii "bc"].foldl update init).final).take 4 = [0xba, 0x78, 0x16, 0xbf] :=
  ⟨final_eq_sha256 [ascii "a", [], ascii "bc"] (by decide), by decide +kernel⟩

end Context

end AgentC.Sha256
