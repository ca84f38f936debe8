import WovenTeam.Json
import WovenTeam.Lib.Sha2

/-!
# Token hashes

`wtTokenHash` of `wt_security.c` and the SHA-256 below it, which takes its bytes one at a time.
`wtTokenHash_eq`: what it writes is the digest of the standard, for every token.
-/

namespace WovenTeam

open CText

/-! ## The hash -/

abbrev wtSha256BlockSize : Nat := 64

/-- `state`, `bitLen` and the part of `buffer` in front of `bufferLen`. -/
structure WtSha256 where
  state : Sha2.State
  bitLen : UInt64
  buffer : Bytes

def wtSha256K : List UInt32 :=
  [0x428a2f98, 0x71374491, 0xb5c0fbcf, 0xe9b5dba5, 0x3956c25b, 0x59f111f1, 0x923f82a4, 0xab1c5ed5,
    0xd807aa98, 0x12835b01, 0x243185be, 0x550c7dc3, 0x72be5d74, 0x80deb1fe, 0x9bdc06a7, 0xc19bf174,
    0xe49b69c1, 0xefbe4786, 0x0fc19dc6, 0x240ca1cc, 0x2de92c6f, 0x4a7484aa, 0x5cb0a9dc, 0x76f988da,
    0x983e5152, 0xa831c66d, 0xb00327c8, 0xbf597fc7, 0xc6e00bf3, 0xd5a79147, 0x06ca6351, 0x14292967,
    0x27b70a85, 0x2e1b2138, 0x4d2c6dfc, 0x53380d13, 0x650a7354, 0x766a0abb, 0x81c2c92e, 0x92722c85,
    0xa2bfe8a1, 0xa81a664b, 0xc24b8b70, 0xc76c51a3, 0xd192e819, 0xd6990624, 0xf40e3585, 0x106aa070,
    0x19a4c116, 0x1e376c08, 0x2748774c, 0x34b0bcb5, 0x391c0cb3, 0x4ed8aa4a, 0x5b9cca4f, 0x682e6ff3,
    0x748f82ee, 0x78a5636f, 0x84c87814, 0x8cc70208, 0x90befffa, 0xa4506ceb, 0xbef9a3f7, 0xc67178f2]

def rotr32 (value bits : UInt32) : UInt32 := (value >>> bits) ||| (value <<< (32 - bits))

def loadBe32 (p : Bytes) : UInt32 :=
  ((p.getD 0 0).toUInt32 <<< 24) ||| ((p.getD 1 0).toUInt32 <<< 16) |||
    ((p.getD 2 0).toUInt32 <<< 8) ||| (p.getD 3 0).toUInt32

/-- The loop of `storeBe64`, from the last byte to the first. -/
def storeBytes : Nat → UInt64 → Bytes → Bytes
  | 0, _, written => written
  | n + 1, value, written => storeBytes n (value >>> 8) ((value &&& 0xff).toUInt8 :: written)

def storeBe64 (value : UInt64) : Bytes := storeBytes 8 value []

/-- `w[i]` for `i` from 16 on. -/
def extendWords (w : List UInt32) (i : Nat) : List UInt32 :=
  let s0 := rotr32 (w.getD (i - 15) 0) 7 ^^^ rotr32 (w.getD (i - 15) 0) 18 ^^^
    (w.getD (i - 15) 0 >>> 3)
  let s1 := rotr32 (w.getD (i - 2) 0) 17 ^^^ rotr32 (w.getD (i - 2) 0) 19 ^^^
    (w.getD (i - 2) 0 >>> 10)
  w ++ [w.getD (i - 16) 0 + s0 + w.getD (i - 7) 0 + s1]

def messageWords (block : Bytes) : List UInt32 :=
  (List.range' 16 48).foldl extendWords ((List.range 16).map fun i => loadBe32 (block.drop (i * 4)))

/-- The body of the second loop. -/
def transformRound (w : List UInt32) (v : Sha2.State) (i : Nat) : Sha2.State :=
  let s1 := rotr32 v.e 6 ^^^ rotr32 v.e 11 ^^^ rotr32 v.e 25
  let ch := (v.e &&& v.f) ^^^ (~~~v.e &&& v.g)
  let temp1 := v.h + s1 + ch + wtSha256K.getD i 0 + w.getD i 0
  let s0 := rotr32 v.a 2 ^^^ rotr32 v.a 13 ^^^ rotr32 v.a 22
  let maj := (v.a &&& v.b) ^^^ (v.a &&& v.c) ^^^ (v.b &&& v.c)
  let temp2 := s0 + maj
  { h := v.g, g := v.f, f := v.e, e := v.d + temp1, d := v.c, c := v.b, b := v.a,
    a := temp1 + temp2 }

def sha256Transform (state : Sha2.State) (block : Bytes) : Sha2.State :=
  let v := (List.range 64).foldl (transformRound (messageWords block)) state
  { a := state.a + v.a, b := state.b + v.b, c := state.c + v.c, d := state.d + v.d,
    e := state.e + v.e, f := state.f + v.f, g := state.g + v.g, h := state.h + v.h }

def sha256Init : WtSha256 where
  state := {
    a := 0x6a09e667, b := 0xbb67ae85, c := 0x3c6ef372, d := 0xa54ff53a,
    e := 0x510e527f, f := 0x9b05688c, g := 0x1f83d9ab, h := 0x5be0cd19 }
  bitLen := 0
  buffer := []

def sha256UpdateByte (ctx : WtSha256) (b : UInt8) : WtSha256 :=
  let buffer := ctx.buffer ++ [b]
  if buffer.length = wtSha256BlockSize then
    { state := sha256Transform ctx.state buffer, bitLen := ctx.bitLen + 512, buffer := [] }
  else { ctx with buffer }

def sha256Update (ctx : WtSha256) (data : Bytes) : WtSha256 := data.foldl sha256UpdateByte ctx

/-- `while (bufferLen < n) buffer[bufferLen++] = 0`. -/
def zeroFill (n : Nat) (buffer : Bytes) : Bytes := buffer ++ List.replicate (n - buffer.length) 0

def stateBytes (word : UInt32) : Bytes :=
  [(word >>> 24).toUInt8, (word >>> 16).toUInt8, (word >>> 8).toUInt8, word.toUInt8]

def sha256Final (ctx : WtSha256) : Bytes :=
  let bitLen := ctx.bitLen + ctx.buffer.length.toUInt64 * 8
  let marked : WtSha256 := { ctx with bitLen, buffer := ctx.buffer ++ [0x80] }
  let opened : WtSha256 :=
    if marked.buffer.length > 56 then
      { marked with
        state := sha256Transform marked.state (zeroFill wtSha256BlockSize marked.buffer)
        buffer := [] }
    else marked
  let s := sha256Transform opened.state (zeroFill 56 opened.buffer ++ storeBe64 opened.bitLen)
  stateBytes s.a ++ stateBytes s.b ++ stateBytes s.c ++ stateBytes s.d ++ stateBytes s.e ++
    stateBytes s.f ++ stateBytes s.g ++ stateBytes s.h

def sha256Digest (data : Bytes) : Bytes := sha256Final (sha256Update sha256Init data)

/-- What is in the buffer after the call, if it has any room. -/
def wtTokenHash (token : Bytes) (outSize : Nat) : Option Bytes :=
  if outSize = 0 then none
  else if outSize < 72 then some []
  else some (bytes "sha256:" ++ (sha256Digest token).flatMap fun b : UInt8 =>
    [hexDigit (b >>> 4).toNat, hexDigit (b &&& 0x0f).toNat])

/-! ## One block -/

theorem wtSha256K_eq {i : Nat} (h : i < 64) : wtSha256K.getD i 0 = Sha2.k i := by
  have hall : ∀ i < 64, wtSha256K.getD i 0 = Sha2.k i := by decide +kernel
  exact hall i h

theorem sha256Init_state : sha256Init.state = Sha2.init := by decide +kernel

theorem loadBe32_eq {p : Bytes} (h : 4 ≤ p.length) :
    loadBe32 p = UInt32.ofNat (Sha2.ofBytes (p.take 4)) := by
  obtain ⟨b0, b1, b2, b3, rest, rfl⟩ : ∃ b0 b1 b2 b3 rest, p = b0 :: b1 :: b2 :: b3 :: rest := by
    match p, h with
    | b0 :: b1 :: b2 :: b3 :: rest, _ => exact ⟨b0, b1, b2, b3, rest, rfl⟩
  have h0 := b0.toNat_lt
  have h1 := b1.toNat_lt
  have h2 := b2.toNat_lt
  have h3 := b3.toNat_lt
  -- the four bytes do not overlap
  have hadd : ∀ (b : UInt8) (n v : Nat), v < 2 ^ n → b.toNat <<< n ||| v = b.toNat * 2 ^ n + v := by
    intro b n v hv
    rw [← Nat.shiftLeft_add_eq_or_of_lt hv, Nat.shiftLeft_eq]
  have hshift : ∀ (b : UInt8) (n : Nat), n ≤ 24 →
      (b.toUInt32 <<< UInt32.ofNat n).toNat = b.toNat <<< n := by
    intro b n hn
    have hb := b.toNat_lt
    have hlt : b.toNat * 2 ^ n < 2 ^ 32 := calc
      b.toNat * 2 ^ n < 2 ^ 8 * 2 ^ n := Nat.mul_lt_mul_of_pos_right hb (by positivity)
      _ ≤ 2 ^ 8 * 2 ^ 24 := Nat.mul_le_mul_left _ (Nat.pow_le_pow_right (by decide) hn)
      _ = 2 ^ 32 := by decide
    have hn' : n % 2 ^ 32 % 32 = n := by omega
    rw [UInt32.toNat_shiftLeft, UInt8.toNat_toUInt32, UInt32.toNat_ofNat', hn', Nat.shiftLeft_eq,
      Nat.mod_eq_of_lt hlt]
  refine UInt32.toNat_inj.mp ?_
  have hload : (loadBe32 (b0 :: b1 :: b2 :: b3 :: rest)).toNat =
      b0.toNat <<< 24 ||| (b1.toNat <<< 16 ||| (b2.toNat <<< 8 ||| b3.toNat)) := by
    have e0 := hshift b0 24 (by decide)
    have e1 := hshift b1 16 (by decide)
    have e2 := hshift b2 8 (by decide)
    rw [← e0, ← e1, ← e2, ← Nat.or_assoc, ← Nat.or_assoc]
    rfl
  rw [hload, hadd b2 8 _ h3, hadd b1 16 _ (by omega), hadd b0 24 _ (by omega),
    UInt32.toNat_ofNat']
  simp only [Sha2.ofBytes, List.take_succ_cons, List.take_zero, List.foldl_cons, List.foldl_nil]
  omega

theorem storeBytes_eq (n : Nat) (value : UInt64) (written : Bytes) :
    storeBytes n value written = Sha2.toBytes n value.toNat ++ written := by
  induction n generalizing value written with
  | zero => rfl
  | succ n ih =>
    have hhigh : (value >>> 8).toNat = value.toNat / 256 := by
      rw [UInt64.toNat_shiftRight]
      exact Nat.shiftRight_eq_div_pow _ 8
    have hlow : (value &&& 0xff).toUInt8 = UInt8.ofNat value.toNat := by
      refine UInt8.toNat_inj.mp ?_
      rw [UInt64.toNat_toUInt8, UInt64.toNat_and, UInt8.toNat_ofNat']
      have hmask := Nat.and_two_pow_sub_one_eq_mod value.toNat 8
      have hval : (0xff : UInt64).toNat = 2 ^ 8 - 1 := by decide
      rw [hval, hmask, Nat.mod_mod]
    rw [storeBytes, ih, hhigh, hlow, Sha2.toBytes, List.append_assoc, List.singleton_append]

theorem messageWords_eq {block : Bytes} (h : block.length = 64) :
    messageWords block = Sha2.schedule block 64 := by
  have hwords : ∀ n ≤ 16, Sha2.schedule block n =
      (List.range n).map fun i => loadBe32 (block.drop (i * 4)) := by
    intro n hn
    induction n with
    | zero => rfl
    | succ n ih =>
      have hload : loadBe32 (block.drop (n * 4)) = Sha2.blockWord block n := by
        rw [loadBe32_eq (by rw [List.length_drop]; omega), Sha2.blockWord, Nat.mul_comm]
      rw [Sha2.schedule, if_pos (by omega), ih (by omega), List.range_succ, List.map_append,
        List.map_singleton, hload]
  have hextend : ∀ n, (List.range' 16 n).foldl extendWords (Sha2.schedule block 16) =
      Sha2.schedule block (16 + n) := by
    intro n
    induction n with
    | zero => rfl
    | succ n ih =>
      rw [List.range'_concat, List.foldl_append, ih, Nat.one_mul, List.foldl_cons, List.foldl_nil,
        ← Nat.add_assoc, Sha2.schedule, if_neg (by omega)]
      -- the standard adds the four terms in another order
      have horder : ∀ a b c d : UInt32, a + b + c + d = d + c + b + a := by
        intro a b c d
        ac_rfl
      rw [horder]
      rfl
  rw [messageWords, ← hwords 16 le_rfl, hextend 48]

theorem transformRound_eq {block : Bytes} (h : block.length = 64) (v : Sha2.State) {i : Nat}
    (hi : i < 64) : transformRound (messageWords block) v i =
      Sha2.round v (Sha2.k i) ((Sha2.schedule block 64).getD i 0) := by
  rw [transformRound, wtSha256K_eq hi, messageWords_eq h]
  rfl

theorem sha256Transform_eq {block : Bytes} (h : block.length = 64) (state : Sha2.State) :
    sha256Transform state block = Sha2.compress state block := by
  have hrounds : (List.range 64).foldl (transformRound (messageWords block)) state =
      (List.range 64).foldl
        (fun v t => Sha2.round v (Sha2.k t) ((Sha2.schedule block 64).getD t 0)) state :=
    List.foldl_ext _ _ _ fun v i hi => transformRound_eq h v (List.mem_range.mp hi)
  rw [sha256Transform, Sha2.compress, Sha2.State.add_def, hrounds]

/-! ## A message -/

/-- The context after a message: its whole blocks are compressed and the rest waits. -/
structure Absorbed (ctx : WtSha256) (message : Bytes) : Prop where
  whole : ∃ front, message = front ++ ctx.buffer ∧ front.length % 64 = 0 ∧
    ctx.state = (Sha2.blocks front).foldl Sha2.compress Sha2.init ∧
    ctx.bitLen = UInt64.ofNat (8 * front.length)
  room : ctx.buffer.length < 64

theorem absorbed_init : Absorbed sha256Init [] where
  whole := ⟨[], rfl, rfl, sha256Init_state, rfl⟩
  room := by decide

/-- One byte. -/
theorem Absorbed.updateByte {ctx : WtSha256} {message : Bytes} (h : Absorbed ctx message)
    (b : UInt8) : Absorbed (sha256UpdateByte ctx b) (message ++ [b]) := by
  obtain ⟨⟨front, hmessage, hfront, hstate, hbits⟩, hroom⟩ := h
  unfold sha256UpdateByte
  dsimp only
  split
  · rename_i hfull
    rw [wtSha256BlockSize] at hfull
    refine ⟨⟨front ++ (ctx.buffer ++ [b]), by simp [hmessage], ?_, ?_, ?_⟩, by simp⟩
    · rw [List.length_append]
      omega
    · rw [Sha2.blocks_append hfront, Sha2.blocks_of_length hfull, List.foldl_append, ← hstate,
        sha256Transform_eq hfull]
      rfl
    · rw [hbits, List.length_append, hfull, Nat.mul_add, UInt64.ofNat_add]
      rfl
  · rename_i hshort
    rw [wtSha256BlockSize, List.length_append, List.length_singleton] at hshort
    refine ⟨⟨front, by rw [hmessage, List.append_assoc], hfront, hstate, hbits⟩, ?_⟩
    rw [List.length_append, List.length_singleton]
    omega

theorem absorbed_update (message : Bytes) : Absorbed (sha256Update sha256Init message) message := by
  induction message using List.reverseRecOn with
  | nil => exact absorbed_init
  | append_singleton message b ih =>
    rw [sha256Update, List.foldl_append]
    exact ih.updateByte b

theorem length_zeroFill {n : Nat} {buffer : Bytes} (h : buffer.length ≤ n) :
    (zeroFill n buffer).length = n := by
  rw [zeroFill, List.length_append, List.length_replicate]
  omega

theorem storeBe64_length (front rest : Nat) :
    storeBe64 (UInt64.ofNat (8 * front) + rest.toUInt64 * 8) =
      Sha2.toBytes 8 (8 * (front + rest)) := by
  have hbits : (UInt64.ofNat (8 * front) + rest.toUInt64 * 8).toNat =
      8 * (front + rest) % 256 ^ 8 := by
    have hrest : (rest.toUInt64 * 8).toNat = 8 * rest % 2 ^ 64 := by
      rw [UInt64.toNat_mul, Nat.toUInt64_eq, UInt64.toNat_ofNat', Nat.mod_mul_mod, Nat.mul_comm]
      rfl
    rw [UInt64.toNat_add, UInt64.toNat_ofNat', hrest]
    omega
  rw [storeBe64, storeBytes_eq, List.append_nil, hbits, Sha2.toBytes_mod]

/-- What the two branches of `sha256Final` compress is the rest of the padded message. -/
theorem blocks_rest {rest length : Bytes} (hrest : rest.length < 64) (hlength : length.length = 8)
    (message : Nat) (hmod : message % 64 = rest.length) :
    Sha2.blocks (rest ++ 0x80 :: (List.replicate (Sha2.padZeros message) 0 ++ length)) =
      if rest.length + 1 > 56 then
        [zeroFill wtSha256BlockSize (rest ++ [0x80]), zeroFill 56 [] ++ length]
      else [zeroFill 56 (rest ++ [0x80]) ++ length] := by
  split
  · rename_i hlong
    have hzeros : Sha2.padZeros message = (63 - rest.length) + 56 := by
      rw [Sha2.padZeros, hmod]
      omega
    have hsplit : rest ++ 0x80 :: (List.replicate (Sha2.padZeros message) 0 ++ length) =
        zeroFill wtSha256BlockSize (rest ++ [0x80]) ++ (zeroFill 56 [] ++ length) := by
      simp [hzeros, List.replicate_add, zeroFill, wtSha256BlockSize]
    have hfirst : (zeroFill wtSha256BlockSize (rest ++ [0x80])).length = 64 :=
      length_zeroFill (by simp; omega)
    rw [hsplit, Sha2.blocks_append (by rw [hfirst]), Sha2.blocks_of_length hfirst,
      Sha2.blocks_of_length (by rw [List.length_append, length_zeroFill (by simp), hlength])]
    rfl
  · rename_i hshort
    have hzeros : Sha2.padZeros message = 55 - rest.length := by
      rw [Sha2.padZeros, hmod]
      omega
    have hsplit : rest ++ 0x80 :: (List.replicate (Sha2.padZeros message) 0 ++ length) =
        zeroFill 56 (rest ++ [0x80]) ++ length := by
      simp [hzeros, zeroFill]
    rw [hsplit, Sha2.blocks_of_length]
    rw [List.length_append, length_zeroFill (by simp; omega), hlength]

theorem stateBytes_eq (word : UInt32) : stateBytes word = Sha2.wordBytes word := by
  have hbyte : ∀ n < 32, (word >>> UInt32.ofNat n).toUInt8 = UInt8.ofNat (word.toNat / 2 ^ n) := by
    intro n hn
    have hn' : n % 2 ^ 32 % 32 = n := by omega
    refine UInt8.toNat_inj.mp ?_
    rw [UInt32.toNat_toUInt8, UInt32.toNat_shiftRight, UInt32.toNat_ofNat', hn',
      UInt8.toNat_ofNat', Nat.shiftRight_eq_div_pow]
  have h24 := hbyte 24 (by decide)
  have h16 := hbyte 16 (by decide)
  have h8 := hbyte 8 (by decide)
  have h0 := hbyte 0 (by decide)
  simp only [Sha2.wordBytes, Sha2.toBytes, Nat.div_div_eq_div_mul, List.nil_append,
    List.cons_append]
  simp only [Nat.pow_zero, Nat.div_one] at h0
  simp only [Nat.reducePow] at h24 h16 h8
  simp only [Nat.reduceMul, ← h0, ← h24, ← h16, ← h8]
  rfl

/-- The block or the two blocks at the end are the rest of the padded message. -/
theorem sha256Final_eq {ctx : WtSha256} {message : Bytes} (h : Absorbed ctx message) :
    sha256Final ctx = Sha2.digest message := by
  obtain ⟨⟨front, hmessage, hfront, hstate, hbits⟩, hroom⟩ := h
  have hlength : message.length = front.length + ctx.buffer.length := by
    rw [hmessage, List.length_append]
  have hstore : storeBe64 (ctx.bitLen + ctx.buffer.length.toUInt64 * 8) =
      Sha2.toBytes 8 (8 * message.length) := by
    rw [hbits, storeBe64_length, hlength]
  have hpad : Sha2.pad message = front ++ (ctx.buffer ++ 0x80 ::
      (List.replicate (Sha2.padZeros message.length) 0 ++ Sha2.toBytes 8 (8 * message.length))) := by
    rw [← List.append_assoc, ← hmessage]
    rfl
  have hblocks := blocks_rest hroom (Sha2.length_toBytes 8 (8 * message.length)) message.length
    (by omega)
  rw [Sha2.digest, hpad, Sha2.blocks_append hfront, List.foldl_append, ← hstate, hblocks]
  have hmarked : (ctx.buffer ++ [0x80]).length = ctx.buffer.length + 1 := by simp
  unfold sha256Final
  by_cases hlong : ctx.buffer.length + 1 > 56
  · have hfirst : (zeroFill wtSha256BlockSize (ctx.buffer ++ [0x80])).length = 64 :=
      length_zeroFill (by rw [hmarked, wtSha256BlockSize]; omega)
    have hlast : (zeroFill 56 [] ++ Sha2.toBytes 8 (8 * message.length)).length = 64 := by
      rw [List.length_append, length_zeroFill (by simp), Sha2.length_toBytes]
    simp only [hmarked, hlong, if_true, hstore, sha256Transform_eq hfirst,
      sha256Transform_eq hlast, stateBytes_eq, List.foldl_cons, List.foldl_nil]
    rfl
  · have hlast : (zeroFill 56 (ctx.buffer ++ [0x80]) ++
        Sha2.toBytes 8 (8 * message.length)).length = 64 := by
      rw [List.length_append, length_zeroFill (by rw [hmarked]; omega), Sha2.length_toBytes]
    simp only [hmarked, hlong, if_false, hstore, sha256Transform_eq hlast, stateBytes_eq,
      List.foldl_cons, List.foldl_nil]
    rfl

theorem sha256Digest_eq (data : Bytes) : sha256Digest data = Sha2.digest data :=
  sha256Final_eq (absorbed_update data)

/-- The blocks that are compressed are those of the padded message. -/
theorem foldl_sha256Transform (data : Bytes) :
    (Sha2.blocks (Sha2.pad data)).foldl sha256Transform sha256Init.state =
      (Sha2.blocks (Sha2.pad data)).foldl Sha2.compress Sha2.init := by
  rw [sha256Init_state]
  refine List.foldl_ext _ _ _ fun state block hblock => ?_
  exact sha256Transform_eq (Sha2.length_of_mem_blocks hblock) state

/-- **The hash is SHA-256, computed block by block over the padded token.** -/
theorem wtTokenHash_eq (token : Bytes) (outSize : Nat) (h : 72 ≤ outSize) :
    wtTokenHash token outSize = some (bytes "sha256:" ++ (Sha2.digest token).flatMap fun b =>
      [hexDigit (b.toNat / 16), hexDigit (b.toNat % 16)]) ∧
    sha256Digest token =
      ((Sha2.blocks (Sha2.pad token)).foldl sha256Transform sha256Init.state).bytes := by
  have hhigh : ∀ b : UInt8, (b >>> 4).toNat = b.toNat / 16 := fun b => by
    rw [UInt8.toNat_shiftRight]
    exact Nat.shiftRight_eq_div_pow _ 4
  have hlow : ∀ b : UInt8, (b &&& 0x0f).toNat = b.toNat % 16 := fun b => by
    rw [UInt8.toNat_and]
    exact Nat.and_two_pow_sub_one_eq_mod _ 4
  constructor
  · rw [wtTokenHash, if_neg (by omega), if_neg (by omega), sha256Digest_eq]
    simp only [hhigh, hlow]
  · rw [sha256Digest_eq, foldl_sha256Transform]
    rfl

theorem wtTokenHash_abc : wtTokenHash (bytes "abc") 72 = some (bytes "sha256:" ++
    (Sha2.digest (bytes "abc")).flatMap fun b =>
      [hexDigit (b.toNat / 16), hexDigit (b.toNat % 16)]) ∧
    sha256Digest (bytes "abc") =
      ((Sha2.blocks (Sha2.pad (bytes "abc"))).foldl sha256Transform sha256Init.state).bytes :=
  wtTokenHash_eq (bytes "abc") 72 (by decide)

example : wtTokenHash (bytes "abc") 72 = some (bytes
    "sha256:ba7816bf8f01cfea414140de5dae2223b00361a396177a9cb410ff61f20015ad") := by
  decide +kernel

end WovenTeam
