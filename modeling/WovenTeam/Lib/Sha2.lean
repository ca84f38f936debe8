import Mathlib.Data.List.GetD
import Mathlib.Data.Nat.Prime.Basic
import WovenTeam.Lib.CText

/-!
# SHA-256

FIPS 180-4 for messages of whole bytes: the functions on 32-bit words, the constants as fractional
parts of roots of primes, the padding, the message schedule and the compression of the blocks of a
message one after the other.
-/

namespace Sha2

open CText

abbrev Word := UInt32

/-! ## Functions on words -/

def rotr (n x : Word) : Word := (x >>> n) ||| (x <<< (32 - n))

def ch (x y z : Word) : Word := (x &&& y) ^^^ (~~~x &&& z)

def maj (x y z : Word) : Word := (x &&& y) ^^^ (x &&& z) ^^^ (y &&& z)

def bigSigma0 (x : Word) : Word := rotr 2 x ^^^ rotr 13 x ^^^ rotr 22 x

def bigSigma1 (x : Word) : Word := rotr 6 x ^^^ rotr 11 x ^^^ rotr 25 x

def smallSigma0 (x : Word) : Word := rotr 7 x ^^^ rotr 18 x ^^^ (x >>> 3)

def smallSigma1 (x : Word) : Word := rotr 17 x ^^^ rotr 19 x ^^^ (x >>> 10)

/-! ## Constants -/

/-- The largest `a` whose `n`-th power is at most `m`, from its bits below the `k`-th and the bits
above found so far. -/
def floorRootFrom (n m : Nat) : Nat → Nat → Nat
  | 0, a => a
  | k + 1, a => floorRootFrom n m k (if (a + 2 ^ k) ^ n ≤ m then a + 2 ^ k else a)

/-- `⌊m ^ (1 / n)⌋`, for roots of at most 40 bits. -/
def floorRoot (n m : Nat) : Nat := floorRootFrom n m 40 0

theorem floorRootFrom_spec {n m k a : Nat} (hlow : a ^ n ≤ m) (hhigh : m < (a + 2 ^ k) ^ n) :
    floorRootFrom n m k a ^ n ≤ m ∧ m < (floorRootFrom n m k a + 1) ^ n := by
  induction k generalizing a with
  | zero => exact ⟨hlow, hhigh⟩
  | succ k ih =>
    rw [floorRootFrom]
    split
    · rename_i hbit
      refine ih hbit ?_
      rwa [Nat.add_assoc, ← Nat.two_mul, ← Nat.pow_succ']
    · rename_i hbit
      exact ih hlow (Nat.lt_of_not_le hbit)

theorem floorRoot_spec {n m : Nat} (hn : n ≠ 0) (hm : m < (2 ^ 40) ^ n) :
    floorRoot n m ^ n ≤ m ∧ m < (floorRoot n m + 1) ^ n :=
  floorRootFrom_spec (by simp [hn]) (by simpa using hm)

/-- The first 32 bits of the fractional part of the `n`-th root. -/
def rootBits (n p : Nat) : Word := UInt32.ofNat (floorRoot n (p * 2 ^ (32 * n)))

def primes : List Nat :=
  [2, 3, 5, 7, 11, 13, 17, 19, 23, 29, 31, 37, 41, 43, 47, 53, 59, 61, 67, 71, 73, 79, 83, 89, 97,
    101, 103, 107, 109, 113, 127, 131, 137, 139, 149, 151, 157, 163, 167, 173, 179, 181, 191, 193,
    197, 199, 211, 223, 227, 229, 233, 239, 241, 251, 257, 263, 269, 271, 277, 281, 283, 293, 307,
    311]

/-- A number below 18² is prime where no number below 18 divides it properly. -/
theorem prime_iff_small {p : Nat} (hp : p < 18 ^ 2) :
    p.Prime ↔ 2 ≤ p ∧ ∀ d < 18, 2 ≤ d → d < p → ¬ d ∣ p := by
  rw [Nat.prime_def_lt']
  refine and_congr_right fun htwo => ⟨fun h d _ hge hlt => h d hge hlt, fun h d hge hlt hdvd => ?_⟩
  obtain ⟨e, rfl⟩ := hdvd
  have hpos : 0 < e := Nat.pos_of_ne_zero fun he => by simp [he] at htwo
  by_cases hd : d < 18
  · exact h d hd hge hlt (Nat.dvd_mul_right d e)
  · have he : e < 18 := by
      by_contra hlarge
      have := Nat.mul_le_mul (not_lt.mp hd) (not_lt.mp hlarge)
      omega
    have hone : 2 ≤ e := by
      by_contra hsmall
      obtain rfl : e = 1 := by omega
      omega
    exact h e he hone (by nlinarith) (Nat.dvd_mul_left e d)

theorem primes_eq : primes = (List.range 312).filter fun p =>
    Nat.ble 2 p && (List.range 18).all fun d => Nat.ble d 1 || Nat.ble p d || !Nat.beq (p % d) 0 := by
  decide +kernel

/-- They are the first 64. -/
theorem mem_primes : ∀ p < 312, p ∈ primes ↔ p.Prime := by
  intro p hp
  rw [primes_eq, List.mem_filter, prime_iff_small (by omega)]
  simp only [List.mem_range, hp, true_and, Bool.and_eq_true, Nat.ble_eq, List.all_eq_true,
    Bool.or_eq_true, Bool.not_eq_true']
  refine and_congr_right fun _ => forall_congr' fun d => imp_congr_right fun _ => ?_
  have hmod : Nat.beq (p % d) 0 = false ↔ ¬ d ∣ p := by
    rw [Nat.dvd_iff_mod_eq_zero, ← Nat.beq_eq, Bool.not_eq_true]
  rw [hmod]
  omega

/-- The constant of round `t`. -/
def k (t : Nat) : Word := rootBits 3 (primes.getD t 0)

/-! ## The hash state -/

structure State where
  a : Word
  b : Word
  c : Word
  d : Word
  e : Word
  f : Word
  g : Word
  h : Word
  deriving DecidableEq

/-- The state in front of the first block. -/
def init : State where
  a := rootBits 2 2
  b := rootBits 2 3
  c := rootBits 2 5
  d := rootBits 2 7
  e := rootBits 2 11
  f := rootBits 2 13
  g := rootBits 2 17
  h := rootBits 2 19

instance : Add State where
  add s s' := ⟨s.a + s'.a, s.b + s'.b, s.c + s'.c, s.d + s'.d, s.e + s'.e, s.f + s'.f, s.g + s'.g,
    s.h + s'.h⟩

theorem State.add_def (s s' : State) : s + s' = ⟨s.a + s'.a, s.b + s'.b, s.c + s'.c, s.d + s'.d,
    s.e + s'.e, s.f + s'.f, s.g + s'.g, s.h + s'.h⟩ := rfl

/-! ## Bytes -/

/-- The number of a big-endian text. -/
def ofBytes (s : Bytes) : Nat := s.foldl (fun n b => 256 * n + b.toNat) 0

/-- The last `n` big-endian bytes of a number. -/
def toBytes : Nat → Nat → Bytes
  | 0, _ => []
  | n + 1, v => toBytes n (v / 256) ++ [UInt8.ofNat v]

@[simp] theorem length_toBytes (n v : Nat) : (toBytes n v).length = n := by
  induction n generalizing v with
  | zero => rfl
  | succ n ih => rw [toBytes, List.length_append, ih, List.length_singleton]

/-- Only the number modulo `256 ^ n` matters. -/
theorem toBytes_mod (n v : Nat) : toBytes n (v % 256 ^ n) = toBytes n v := by
  induction n generalizing v with
  | zero => rfl
  | succ n ih =>
    have hhigh : v % 256 ^ (n + 1) / 256 = v / 256 % 256 ^ n := by
      rw [Nat.pow_succ', Nat.mod_mul_right_div_self]
    have hlow : v % 256 ^ (n + 1) % 256 = v % 256 := by
      rw [Nat.pow_succ', Nat.mod_mul_right_mod]
    have hbyte : UInt8.ofNat (v % 256 ^ (n + 1)) = UInt8.ofNat v := by
      refine UInt8.toNat_inj.mp ?_
      rw [UInt8.toNat_ofNat', UInt8.toNat_ofNat']
      exact hlow
    rw [toBytes, toBytes, hhigh, hbyte, ih]

/-- Word `t` of a block. -/
def blockWord (block : Bytes) (t : Nat) : Word := UInt32.ofNat (ofBytes ((block.drop (4 * t)).take 4))

/-! ## Padding -/

/-- The zero bytes behind the `1` bit: as few as leave 8 bytes of a block for the length. -/
def padZeros (length : Nat) : Nat := (119 - length % 64) % 64

theorem padZeros_spec (length : Nat) : (length + 1 + padZeros length) % 64 = 56 ∧
    ∀ n < padZeros length, (length + 1 + n) % 64 ≠ 56 := by
  unfold padZeros
  refine ⟨by omega, fun n hn => ?_⟩
  omega

def pad (message : Bytes) : Bytes :=
  message ++ 0x80 :: (List.replicate (padZeros message.length) 0 ++
    toBytes 8 (8 * message.length))

def blocks (padded : Bytes) : List Bytes :=
  (List.range (padded.length / 64)).map fun i => (padded.drop (64 * i)).take 64

theorem length_pad (message : Bytes) : (pad message).length % 64 = 0 := by
  have := (padZeros_spec message.length).1
  rw [pad, List.length_append, List.length_cons, List.length_append, List.length_replicate,
    length_toBytes]
  omega

/-- Whole blocks in front are blocks by themselves. -/
theorem blocks_append {s t : Bytes} (h : s.length % 64 = 0) :
    blocks (s ++ t) = blocks s ++ blocks t := by
  obtain ⟨n, hn⟩ := Nat.dvd_of_mod_eq_zero h
  have hcount : (s ++ t).length / 64 = n + t.length / 64 := by
    rw [List.length_append, hn]
    omega
  have hfront : s.length / 64 = n := by omega
  rw [blocks, hcount, List.range_add, List.map_append, List.map_map, blocks, blocks, hfront]
  congr 1
  · refine List.map_congr_left fun i hi => ?_
    have hlt := List.mem_range.mp hi
    rw [List.drop_append_of_le_length (by omega), List.take_append_of_le_length]
    rw [List.length_drop]
    omega
  · refine List.map_congr_left fun i _ => ?_
    have hdrop : 64 * (n + i) = s.length + 64 * i := by omega
    rw [Function.comp_apply, hdrop, List.drop_length_add_append]

theorem length_of_mem_blocks {s block : Bytes} (h : block ∈ blocks s) : block.length = 64 := by
  obtain ⟨i, hi, rfl⟩ := List.mem_map.mp h
  have hlt := List.mem_range.mp hi
  rw [List.length_take, List.length_drop]
  omega

theorem blocks_of_length {s : Bytes} (h : s.length = 64) : blocks s = [s] := by
  have hone : 64 / 64 = 1 := by decide
  rw [blocks, h, hone, List.range_one, List.map_singleton, Nat.mul_zero, List.drop_zero,
    List.take_of_length_le h.le]

/-! ## The digest -/

/-- The first `n` words of the message schedule. -/
def schedule (block : Bytes) : Nat → List Word
  | 0 => []
  | t + 1 =>
    let w := schedule block t
    w ++ [if t < 16 then blockWord block t
      else smallSigma1 (w.getD (t - 2) 0) + w.getD (t - 7) 0 + smallSigma0 (w.getD (t - 15) 0) +
        w.getD (t - 16) 0]

@[simp] theorem length_schedule (block : Bytes) (n : Nat) : (schedule block n).length = n := by
  induction n with
  | zero => rfl
  | succ n ih => simp [schedule, ih]

/-- The words that are there stay. -/
theorem schedule_getD (block : Bytes) {t n : Nat} (h : t < n) :
    (schedule block n).getD t 0 = (schedule block (t + 1)).getD t 0 := by
  induction n with
  | zero => omega
  | succ n ih =>
    by_cases heq : t = n
    · rw [heq]
    · rw [schedule, List.getD_append _ _ _ _ (by rw [length_schedule]; omega), ih (by omega)]

/-- The recurrence of the standard. -/
theorem schedule_spec (block : Bytes) {t : Nat} (h : t < 64) :
    (schedule block 64).getD t 0 =
      if t < 16 then blockWord block t
      else smallSigma1 ((schedule block 64).getD (t - 2) 0) +
        (schedule block 64).getD (t - 7) 0 + smallSigma0 ((schedule block 64).getD (t - 15) 0) +
        (schedule block 64).getD (t - 16) 0 := by
  have hearlier : ∀ s < t, (schedule block 64).getD s 0 = (schedule block t).getD s 0 := by
    intro s hs
    rw [schedule_getD block (show s < 64 by omega), schedule_getD block hs]
  rw [schedule_getD block h, schedule, List.getD_append_right _ _ _ _ (by simp), length_schedule,
    Nat.sub_self, List.getD_cons_zero]
  split
  · rfl
  · rw [hearlier _ (by omega), hearlier _ (by omega), hearlier _ (by omega), hearlier _ (by omega)]

/-- One round, with its constant and its word. -/
def round (s : State) (k w : Word) : State :=
  let t1 := s.h + bigSigma1 s.e + ch s.e s.f s.g + k + w
  let t2 := bigSigma0 s.a + maj s.a s.b s.c
  { a := t1 + t2, b := s.a, c := s.b, d := s.c, e := s.d + t1, f := s.e, g := s.f, h := s.g }

def compress (s : State) (block : Bytes) : State :=
  s + (List.range 64).foldl (fun v t => round v (k t) ((schedule block 64).getD t 0)) s

def wordBytes (w : Word) : Bytes := toBytes 4 w.toNat

def State.bytes (s : State) : Bytes :=
  wordBytes s.a ++ wordBytes s.b ++ wordBytes s.c ++ wordBytes s.d ++ wordBytes s.e ++
    wordBytes s.f ++ wordBytes s.g ++ wordBytes s.h

/-- The digest of a message. -/
def digest (message : Bytes) : Bytes := ((blocks (pad message)).foldl compress init).bytes

end Sha2
