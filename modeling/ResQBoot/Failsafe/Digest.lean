import ResQBoot.Lib.Fields
import ResQBoot.Lib.Js
import ResQBoot.Lib.Sha256

/-!
# The digest that the page shows

The function `sha256` of `submit.js`. Each of its operations on signed numbers is the one of FIPS 180-4 on their bits,
and the sums, which are cut to 32 bits at the end only, are exact.
-/

namespace ResQBoot.Failsafe

variable {W : List Int32} {n : Nat}

open Js Sha256

def sha256K : List Int32 := [
  0x428a2f98, 0x71374491, 0xb5c0fbcf, 0xe9b5dba5, 0x3956c25b, 0x59f111f1, 0x923f82a4, 0xab1c5ed5, 0xd807aa98,
  0x12835b01, 0x243185be, 0x550c7dc3, 0x72be5d74, 0x80deb1fe, 0x9bdc06a7, 0xc19bf174, 0xe49b69c1, 0xefbe4786,
  0x0fc19dc6, 0x240ca1cc, 0x2de92c6f, 0x4a7484aa, 0x5cb0a9dc, 0x76f988da, 0x983e5152, 0xa831c66d, 0xb00327c8,
  0xbf597fc7, 0xc6e00bf3, 0xd5a79147, 0x06ca6351, 0x14292967, 0x27b70a85, 0x2e1b2138, 0x4d2c6dfc, 0x53380d13,
  0x650a7354, 0x766a0abb, 0x81c2c92e, 0x92722c85, 0xa2bfe8a1, 0xa81a664b, 0xc24b8b70, 0xc76c51a3, 0xd192e819,
  0xd6990624, 0xf40e3585, 0x106aa070, 0x19a4c116, 0x1e376c08, 0x2748774c, 0x34b0bcb5, 0x391c0cb3, 0x4ed8aa4a,
  0x5b9cca4f, 0x682e6ff3, 0x748f82ee, 0x78a5636f, 0x84c87814, 0x8cc70208, 0x90befffa, 0xa4506ceb, 0xbef9a3f7,
  0xc67178f2].map Int32.ofInt

def rr (v : Int32) (n : Nat) : Int32 := bitOr (ushr v n) (shl v (32 - n))

def extend (W : List Int32) (t : Nat) : List Int32 :=
  let x := W.getD (t - 15) 0
  let y := W.getD (t - 2) 0
  let s0 := bitXor (bitXor (rr x 7) (rr x 18)) (ushr x 3)
  let s1 := bitXor (bitXor (rr y 17) (rr y 19)) (ushr y 10)
  W.set t (bitOr (add (add (add (W.getD (t - 16) 0) s0) (W.getD (t - 7) 0)) s1) 0)

def mix (W : List Int32) (v : Eight Int32) (t : Nat) : Eight Int32 :=
  let S1 := bitXor (bitXor (rr v.e 6) (rr v.e 11)) (rr v.e 25)
  let ch := bitXor (bitAnd v.e v.f) (bitAnd (bitNot v.e) v.g)
  let t1 := bitOr (add (add (add (add v.h S1) ch) (sha256K.getD t 0)) (W.getD t 0)) 0
  let S0 := bitXor (bitXor (rr v.a 2) (rr v.a 13)) (rr v.a 22)
  let maj := bitXor (bitXor (bitAnd v.a v.b) (bitAnd v.a v.c)) (bitAnd v.b v.c)
  let t2 := bitOr (add S0 maj) 0
  ⟨bitOr (add t1 t2) 0, v.a, v.b, v.c, bitOr (add v.d t1) 0, v.e, v.f, v.g⟩

def digestBlock (padded : Bytes) (st : Eight Int32 × List Int32) (i : Nat) : Eight Int32 × List Int32 :=
  let W := (List.range 16).foldl (fun W t => W.set t (.ofBitVec (word padded (64 * i + t * 4)))) st.2
  let W := (List.range' 16 48).foldl extend W
  (st.1.zipWith (fun x y => bitOr (add x y) 0) ((List.range 64).foldl (mix W) st.1), W)

def byteAt (x : Int) (n : Nat) : UInt8 := UInt8.ofNat (bitAnd (ushr x n) 0xff).toInt.toNat

def padded (msg : Bytes) : Bytes :=
  let len : Int := msg.length
  let bh := ushr len 29
  let bl := ushr (shl len 3) 0
  let padLen := (bitAnd (add (add len 9) 63) (bitNot 63)).toInt.toNat
  let padded := patch (patch (List.replicate padLen 0) 0 msg) msg.length [0x80]
  patch padded (padLen - 8) [byteAt bh 24, byteAt bh 16, byteAt bh 8, byteAt bh 0,
    byteAt bl 24, byteAt bl 16, byteAt bl 8, byteAt bl 0]

def initialH : Eight Int32 := (⟨0x6a09e667, 0xbb67ae85, 0x3c6ef372, 0xa54ff53a,
  0x510e527f, 0x9b05688c, 0x1f83d9ab, 0x5be0cd19⟩ : Eight Int).map Int32.ofInt

def hexWord (x : Int32) : List Char :=
  let text := List.replicate 8 '0' ++ Nat.toDigits 16 (ushr x 0).toNat
  text.drop (text.length - 8)

def sha256 (msg : Bytes) : List Char :=
  let p := padded msg
  let H := ((List.range ((p.length + 63) / 64)).foldl (digestBlock p) (initialH, List.replicate 64 0)).1
  H.toList.flatMap hexWord

/-! ### The operations -/

lemma sha256K_bits : sha256K.map Int32.toBitVec = constants := by decide +kernel

lemma initialH_bits : initialH.map Int32.toBitVec = initial := by decide +kernel

lemma sha256K_getD (t : Nat) : (sha256K.getD t 0).toBitVec = constants.getD t 0 := by
  rw [← sha256K_bits]
  exact (List.getD_map ..).symm

@[simp] lemma rr_bits (v : Int32) (n : Nat) : (rr v n).toBitVec = rotr n v.toBitVec := by simp [rr, rotr]

lemma getD_set {t : Nat} (inside : t < W.length) (v : Int32) (i : Nat) :
    (W.set t v).getD i 0 = if i = t then v else W.getD i 0 := by
  by_cases same : i = t
  · simp [List.getD_eq_getElem?_getD, same, inside]
  · simp [List.getD_eq_getElem?_getD, same, Ne.symm same]

lemma extend_bits {t : Nat} (inside : t < W.length) : ((extend W t).getD t 0).toBitVec =
    sigma1 (W.getD (t - 2) 0).toBitVec + (W.getD (t - 7) 0).toBitVec + sigma0 (W.getD (t - 15) 0).toBitVec +
      (W.getD (t - 16) 0).toBitVec := by
  simp only [extend]
  rw [getD_set inside, if_pos rfl]
  generalize s0 : bitXor (bitXor (rr (W.getD (t - 15) 0) 7) _) _ = x
  generalize s1 : bitXor (bitXor (rr (W.getD (t - 2) 0) 17) _) _ = y
  obtain ⟨first, small₁⟩ := add_small (small_coe (W.getD (t - 16) 0)) x (by decide)
  obtain ⟨second, small₂⟩ := add_small small₁ (W.getD (t - 7) 0) (by decide)
  rw [cut_add small₂ y (by decide), second, first, ← s0, ← s1]
  simp only [toBitVec_bitXor, bits_coe, bits_ushr, rr_bits, sigma0, sigma1]
  ac_rfl

lemma mix_bits (W : List Int32) (v : Eight Int32) (t : Nat) : (mix W v t).map Int32.toBitVec =
    Sha256.round (constants.getD t 0) (W.getD t 0).toBitVec (v.map Int32.toBitVec) := by
  simp only [mix, Sha256.round, Eight.map]
  generalize S1 : bitXor (bitXor (rr v.e 6) (rr v.e 11)) (rr v.e 25) = x
  generalize choice : bitXor (bitAnd v.e v.f) (bitAnd (bitNot v.e) v.g) = y
  generalize S0 : bitXor (bitXor (rr v.a 2) (rr v.a 13)) (rr v.a 22) = z
  generalize majority : bitXor (bitXor (bitAnd v.a v.b) (bitAnd v.a v.c)) (bitAnd v.b v.c) = u
  obtain ⟨first, small₁⟩ := add_small (small_coe v.h) x (by decide)
  obtain ⟨second, small₂⟩ := add_small small₁ y (by decide)
  obtain ⟨third, small₃⟩ := add_small small₂ (sha256K.getD t 0) (by decide)
  have t1 := cut_add small₃ (W.getD t 0) (by decide)
  have t2 := cut_add (small_coe z) u (by decide)
  rw [third, second, first, sha256K_getD] at t1
  rw [cut_add (small_coe _) (bitOr (add z u) 0) (by decide), cut_add (small_coe v.d) _ (by decide), bits_coe, bits_coe,
    t1, t2, ← S1, ← choice, ← S0, ← majority]
  simp only [toBitVec_bitXor, toBitVec_bitAnd, toBitVec_bitNot, bits_coe, rr_bits, bigSigma0, bigSigma1, ch, maj]

/-! ### The loops -/

lemma schedule_loop {m : Nat → Word} (size : W.length = 64)
    (first : ∀ t < 16, (W.getD t 0).toBitVec = m t) (le : n ≤ 48) :
    ((List.range' 16 n).foldl extend W).length = 64 ∧
      ∀ t < 16 + n, (((List.range' 16 n).foldl extend W).getD t 0).toBitVec = schedule m t := by
  induction n with
  | zero =>
    refine ⟨size, fun t lt => ?_⟩
    rw [schedule, if_pos lt]
    exact first t lt
  | succ n ih =>
    obtain ⟨length, ih⟩ := ih (by omega)
    rw [List.range'_1_concat, List.foldl_append, List.foldl_cons, List.foldl_nil]
    refine ⟨by rw [extend, List.length_set, length], fun t lt => ?_⟩
    by_cases last : t = 16 + n
    · subst last
      rw [extend_bits (by omega), schedule_ge m (by omega), ih _ (by omega), ih _ (by omega), ih _ (by omega),
        ih _ (by omega)]
    · rw [extend, getD_set (by omega), if_neg last]
      exact ih t (by omega)

lemma fill_loop (f : Nat → Int32) (le : n ≤ W.length) :
    ((List.range n).foldl (fun W t => W.set t (f t)) W).length = W.length ∧
      ∀ t < n, ((List.range n).foldl (fun W t => W.set t (f t)) W).getD t 0 = f t := by
  induction n with
  | zero => exact ⟨rfl, fun t lt => absurd lt (Nat.not_lt_zero t)⟩
  | succ n ih =>
    obtain ⟨length, ih⟩ := ih (by omega)
    rw [List.range_succ, List.foldl_append, List.foldl_cons, List.foldl_nil]
    refine ⟨by rw [List.length_set, length], fun t lt => ?_⟩
    rw [getD_set (by omega)]
    split
    · rename_i last
      rw [last]
    · exact ih t (by omega)

lemma mix_loop {m : Nat → Word} (scheduled : ∀ t < 64, (W.getD t 0).toBitVec = schedule m t)
    (v : Eight Int32) (le : n ≤ 64) : ((List.range n).foldl (mix W) v).map Int32.toBitVec =
      (List.range n).foldl (fun v t => Sha256.round (constants.getD t 0) (schedule m t) v) (v.map Int32.toBitVec) := by
  induction n with
  | zero => rfl
  | succ n ih =>
    rw [List.range_succ, List.foldl_append, List.foldl_append, List.foldl_cons, List.foldl_nil, List.foldl_cons,
      List.foldl_nil, mix_bits, ih (by omega), scheduled n (by omega)]

lemma digestBlock_bits (p : Bytes) {st : Eight Int32 × List Int32} (size : st.2.length = 64) (i : Nat) :
    (digestBlock p st i).2.length = 64 ∧ (digestBlock p st i).1.map Int32.toBitVec =
      compress (st.1.map Int32.toBitVec) fun t => word p (64 * i + 4 * t) := by
  obtain ⟨filled, first⟩ := fill_loop (fun t => .ofBitVec (word p (64 * i + t * 4))) (show 16 ≤ st.2.length by omega)
  have words : ∀ t < 16, (((List.range 16).foldl (fun W t =>
      W.set t (.ofBitVec (word p (64 * i + t * 4)))) st.2).getD t 0).toBitVec = word p (64 * i + 4 * t) := by
    intro t lt
    rw [first t lt, Nat.mul_comm t]
    exact rfl
  obtain ⟨length, scheduled⟩ := schedule_loop (m := fun t => word p (64 * i + 4 * t)) (filled.trans size) words
    (Nat.le_refl 48)
  simp only [digestBlock, compress, ← mix_loop scheduled st.1 (Nat.le_refl 64)]
  refine ⟨length, ?_⟩
  generalize List.foldl (mix _) st.1 (List.range 64) = v
  simp only [Eight.zipWith, Eight.map, cut_add (small_coe _) _ (show 1 < 1024 by decide), bits_coe]

lemma hexWord_eq (x : Int32) : hexWord x = hexDigits 8 x.toBitVec.toNat := by
  have number : (ushr x 0).toNat = x.toBitVec.toNat := by
    rw [ushr, bits_coe, BitVec.ushiftRight_zero, Int.toNat_natCast]
  have lt : x.toBitVec.toNat < 16 ^ 8 := x.toBitVec.isLt
  rw [hexWord, number, ← hexDigits_eq (by decide) lt]
  have short := (Nat.length_toDigits_le_iff (b := 16) (k := 8) (by decide) (by decide)).mpr lt
  simp only [List.length_append, List.length_replicate, Nat.add_sub_cancel_left]
  rw [List.drop_append_of_le_length (by simpa using short), List.drop_replicate]

/-! ### The padding -/

lemma byteAt_eq {x : Nat} (n : Nat) (lt : x < 2 ^ 32) : byteAt x n = UInt8.ofNat (x / 2 ^ n) := by
  have shifted : x / 2 ^ n < 2 ^ 32 := Nat.lt_of_le_of_lt (Nat.div_le_self _ _) lt
  have low : x / 2 ^ n &&& (bits 0xff).toNat = x / 2 ^ n % 256 := Nat.and_two_pow_sub_one_eq_mod _ 8
  rw [byteAt, ushr_nat lt, toNat_bitAnd shifted (by rw [low]; omega), low]
  exact UInt8.ofNat_mod_size

lemma lengthBytes_eq (lt : n < 2 ^ 31) :
    [byteAt (ushr n 29) 24, byteAt (ushr n 29) 16, byteAt (ushr n 29) 8, byteAt (ushr n 29) 0,
      byteAt (ushr (shl n 3) 0) 24, byteAt (ushr (shl n 3) 0) 16, byteAt (ushr (shl n 3) 0) 8,
      byteAt (ushr (shl n 3) 0) 0] =
    (List.range 8).map fun i => UInt8.ofNat (8 * n / 2 ^ (8 * (7 - i))) := by
  have high : ushr n 29 = (n / 2 ^ 29 : Nat) := ushr_nat (by omega) 29
  have low : ushr (shl n 3) 0 = (8 * n % 2 ^ 32 : Nat) := by
    rw [ushr, bits_coe, toBitVec_shl, BitVec.ushiftRight_zero, BitVec.toNat_shiftLeft, toNat_bits (by omega),
      Nat.shiftLeft_eq, Nat.mul_comm]
  have same {a b : Nat} (eq : a % 256 = b % 256) : UInt8.ofNat a = UInt8.ofNat b := by
    rw [← UInt8.toNat_inj, UInt8.toNat_ofNat', UInt8.toNat_ofNat']
    exact eq
  simp only [high, low, byteAt_eq _ (show n / 2 ^ 29 < 2 ^ 32 by omega),
    byteAt_eq _ (show 8 * n % 2 ^ 32 < 2 ^ 32 by omega), show List.range 8 = [0, 1, 2, 3, 4, 5, 6, 7] from rfl,
    List.map_cons, List.map_nil, List.cons.injEq, and_true]
  refine ⟨?_, ?_, ?_, ?_, ?_, ?_, ?_, ?_⟩ <;> exact same (by omega)

lemma padLen_eq (lt : n < 2 ^ 31 - 128) :
    (bitAnd (add (add n 9) 63) (bitNot 63)).toInt.toNat = (n + 72) / 64 * 64 := by
  have sum : add (add n 9) 63 = (n + 72 : Nat) := by
    rw [show add n 9 = (n + 9 : Nat) from add_nat (y := 9) (by omega)]
    exact add_nat (y := 63) (by omega)
  have mask : n + 72 &&& (bits (bitNot 63)).toNat = (n + 72) / 64 * 64 := by
    have cut := and_high (n + 72) 6 (by decide)
    rw [Nat.mod_eq_of_lt (by omega)] at cut
    exact cut
  rw [sum, toNat_bitAnd (by omega) (by rw [mask]; omega), mask]

lemma patch_mid (a : Bytes) {b v : Bytes} (c : Bytes) (same : b.length = v.length) :
    patch (a ++ (b ++ c)) a.length v = a ++ (v ++ c) := by
  rw [patch, List.take_left, ← List.drop_drop, List.drop_left, List.drop_left' same, List.append_assoc]

lemma padded_eq (msg : Bytes) (lt : msg.length < 2 ^ 31 - 128) : padded msg = pad msg := by
  simp only [padded, pad, padLen_eq lt, lengthBytes_eq (show msg.length < 2 ^ 31 by omega)]
  generalize size : (119 - msg.length % 64) % 64 = z
  generalize length : (List.range 8).map (fun i => UInt8.ofNat (8 * msg.length / 2 ^ (8 * (7 - i)))) = v
  have eight : (List.replicate 8 (0 : UInt8)).length = v.length := by rw [← length, List.length_map]; rfl
  have zeros : List.replicate ((msg.length + 72) / 64 * 64) (0 : UInt8) =
      List.replicate msg.length 0 ++ ([0] ++ (List.replicate z 0 ++ List.replicate 8 0)) := by
    rw [show ([0] : Bytes) = List.replicate 1 0 from rfl, List.replicate_append_replicate,
      List.replicate_append_replicate, List.replicate_append_replicate]
    congr 1
    omega
  have last : (msg.length + 72) / 64 * 64 - 8 = (msg ++ [0x80] ++ List.replicate z 0).length := by
    simp only [List.length_append, List.length_singleton, List.length_replicate]
    omega
  have start := patch_mid [] ([0] ++ (List.replicate z 0 ++ List.replicate 8 0))
    (show (List.replicate msg.length (0 : UInt8)).length = msg.length from List.length_replicate)
  have mark := patch_mid msg (b := [0]) (v := [0x80]) (List.replicate z 0 ++ List.replicate 8 0) rfl
  have tail := patch_mid (msg ++ [0x80] ++ List.replicate z 0) [] eight
  rw [List.append_nil, List.append_nil] at tail
  rw [zeros, last, ← tail]
  congr 1
  rw [List.append_assoc, List.append_assoc, ← mark]
  exact congrArg (patch · msg.length [0x80]) start

/-- For every message of less than 2³¹ - 128 bytes the page shows its digest. -/
theorem sha256_correct (msg : Bytes) (lt : msg.length < 2 ^ 31 - 128) : sha256 msg = hex msg := by
  have blocks : ((pad msg).length + 63) / 64 = (pad msg).length / 64 := by
    simp only [pad, List.length_append, List.length_singleton, List.length_replicate, List.length_map, List.length_range]
    omega
  have loop (is : List Nat) (st : Eight Int32 × List Int32) (size : st.2.length = 64) :
      (is.foldl (digestBlock (pad msg)) st).1.map Int32.toBitVec =
        is.foldl (fun h i => compress h fun t => word (pad msg) (64 * i + 4 * t)) (st.1.map Int32.toBitVec) := by
    induction is generalizing st with
    | nil => rfl
    | cons i is ih =>
      obtain ⟨length, block⟩ := digestBlock_bits (pad msg) size i
      rw [List.foldl_cons, List.foldl_cons, ih _ length, block]
  have final := loop (List.range ((pad msg).length / 64)) (initialH, List.replicate 64 0) List.length_replicate
  rw [initialH_bits] at final
  rw [sha256, hex, Sha256.hash, ← final, padded_eq msg lt, blocks]
  simp only [Eight.toList, Eight.map, List.flatMap_cons, List.flatMap_nil, hexWord_eq]

/-- The digest of the text `abc`. -/
theorem sha256_correct_abc :
    hex [97, 98, 99] = "ba7816bf8f01cfea414140de5dae2223b00361a396177a9cb410ff61f20015ad".toList :=
  (sha256_correct [97, 98, 99] (by decide)).symm.trans (by decide +kernel)

end ResQBoot.Failsafe
