import ResQBoot.Lib.Bytes

/-!
# CRC-32, bit by bit and by table

The register step is linear over exclusive or (`step_xor`), and shifting out zero bits is only a shift; from these two
facts `byTable_eq` says that the two forms agree.
-/

namespace ResQBoot.Crc32

/-- The register. -/
abbrev Reg := BitVec 32

def poly : Reg := 0xEDB88320#32

def step (c : Reg) : Reg := (c >>> 1) ^^^ (poly &&& -(c &&& 1#32))

def steps : Nat → Reg → Reg
  | 0, c => c
  | n + 1, c => steps n (step c)

def wide (b : UInt8) : Reg := b.toBitVec.setWidth 32

def byte (c : Reg) (b : UInt8) : Reg := steps 8 (c ^^^ wide b)

def byBits (c : Reg) (bs : Bytes) : Reg := bs.foldl byte c

def table (i : Reg) : Reg := steps 8 i

def tableStep (c x : Reg) : Reg := table ((c ^^^ x) &&& 0xFF#32) ^^^ (c >>> 8)

def word (a b c d : UInt8) : Reg :=
  wide a ^^^ ((wide b ^^^ ((wide c ^^^ (wide d <<< 8)) <<< 8)) <<< 8)

def byWords : Bytes → Reg → Reg
  | a :: b :: c :: d :: rest, crc =>
    let crc := crc ^^^ word a b c d
    let crc := tableStep crc 0
    let crc := tableStep crc 0
    let crc := tableStep crc 0
    byWords rest (tableStep crc 0)
  | rest, crc => rest.foldl (fun crc x => tableStep crc (wide x)) crc

def byTable (skew : Nat) (c : Reg) (bs : Bytes) : Reg :=
  let lead := (4 - skew) % 4
  byWords (bs.drop lead) ((bs.take lead).foldl (fun crc x => tableStep crc (wide x)) c)

lemma step_eq (c : Reg) : step c = (c >>> 1) ^^^ if c.getLsbD 0 then poly else 0#32 := by
  have mask : -(c &&& 1#32) = if c.getLsbD 0 then BitVec.allOnes 32 else 0#32 := by
    rw [BitVec.and_one_eq_setWidth_ofBool_getLsbD]
    cases c.getLsbD 0 <;> rfl
  rw [step, mask]
  split
  · rw [BitVec.and_allOnes]
  · rw [BitVec.and_zero]

lemma step_xor (x y : Reg) : step (x ^^^ y) = step x ^^^ step y := by
  have poly_poly : poly ^^^ poly = 0#32 := BitVec.xor_self
  simp only [step_eq, BitVec.getLsbD_xor, BitVec.ushiftRight_xor_distrib]
  cases x.getLsbD 0 <;> cases y.getLsbD 0
  · simp
  · simp [BitVec.xor_assoc]
  · simp only [Bool.xor_false, if_true, Bool.false_eq_true, if_false, BitVec.xor_zero]
    rw [BitVec.xor_assoc, BitVec.xor_assoc, BitVec.xor_comm (y >>> 1)]
  · simp only [Bool.bne_true, Bool.not_true, Bool.false_eq_true, if_false, if_true, BitVec.xor_zero]
    rw [BitVec.xor_assoc, BitVec.xor_comm poly, BitVec.xor_assoc, poly_poly, BitVec.xor_zero]

lemma steps_xor (n : Nat) (x y : Reg) : steps n (x ^^^ y) = steps n x ^^^ steps n y := by
  induction n generalizing x y with
  | zero => rfl
  | succ n ih => rw [steps, step_xor, ih]; rfl

lemma steps_shift : ∀ {n : Nat} {x : Reg}, (∀ i, i < n → x.getLsbD i = false) → steps n x = x >>> n := by
  intro n
  induction n with
  | zero =>
    intro x _
    exact (BitVec.ushiftRight_zero x).symm
  | succ n ih =>
    intro x low
    have one : step x = x >>> 1 := by
      rw [step_eq, low 0 (by omega)]
      simp
    have rest : ∀ i, i < n → (x >>> 1).getLsbD i = false := by
      intro i lt
      rw [BitVec.getLsbD_ushiftRight]
      exact low (1 + i) (by omega)
    rw [steps, one, ih rest, ← BitVec.shiftRight_add, Nat.add_comm]

lemma wide_bit (b : UInt8) {i : Nat} (high : 8 ≤ i) : (wide b).getLsbD i = false := by
  simp [wide, BitVec.getLsbD_of_ge _ _ high]

lemma tableStep_eq (c : Reg) {x : Reg} (small : ∀ i, 8 ≤ i → x.getLsbD i = false) :
    tableStep c x = steps 8 (c ^^^ x) := by
  have mask : ∀ i, (0xFF#32).getLsbD i = decide (i < 8) := by
    intro i
    by_cases lt : i < 32
    · revert i
      decide
    · rw [BitVec.getLsbD_of_ge _ _ (by omega)]
      symm
      simp
      omega
  have split : c ^^^ x = ((c ^^^ x) &&& 0xFF#32) ^^^ ((c ^^^ x) &&& ~~~(0xFF#32)) := by
    apply BitVec.eq_of_getLsbD_eq
    intro i lt
    simp only [BitVec.getLsbD_xor, BitVec.getLsbD_and, BitVec.getLsbD_not, mask, lt, decide_true]
    by_cases low : i < 8 <;> simp [low]
  have high : steps 8 ((c ^^^ x) &&& ~~~(0xFF#32)) = c >>> 8 := by
    rw [steps_shift]
    · apply BitVec.eq_of_getLsbD_eq
      intro i lt
      simp only [BitVec.getLsbD_ushiftRight, BitVec.getLsbD_and, BitVec.getLsbD_xor,
        BitVec.getLsbD_not, mask, small (8 + i) (by omega), Bool.xor_false]
      by_cases inside : 8 + i < 32
      · simp [inside]
      · simp [BitVec.getLsbD_of_ge c (8 + i) (by omega)]
    · intro i lt
      simp only [BitVec.getLsbD_and, BitVec.getLsbD_not, mask, lt, decide_true, Bool.not_true, Bool.and_false]
  rw [tableStep, table, split, steps_xor, high, ← split]

lemma tableStep_wide (c : Reg) (b : UInt8) : tableStep c (wide b) = byte c b :=
  tableStep_eq c fun _ => wide_bit b

lemma steps_above (c : Reg) {x y : Reg} (fits : ∀ i, 24 ≤ i → y.getLsbD i = false) :
    steps 8 (c ^^^ (x ^^^ (y <<< 8))) = steps 8 (c ^^^ x) ^^^ y := by
  have above : steps 8 (y <<< 8) = y := by
    rw [steps_shift]
    · apply BitVec.eq_of_getLsbD_eq
      intro i lt
      rw [BitVec.getLsbD_ushiftRight, BitVec.getLsbD_shiftLeft]
      by_cases inside : 8 + i < 32
      · simp [inside]
      · rw [fits i (by omega)]
        simp [inside]
    · intro i lt
      simp [BitVec.getLsbD_shiftLeft, lt]
  rw [← BitVec.xor_assoc, steps_xor, above]

lemma tableStep_word (crc : Reg) (a b c d : UInt8) :
    tableStep (tableStep (tableStep (tableStep (crc ^^^ word a b c d) 0) 0) 0) 0 =
      byte (byte (byte (byte crc a) b) c) d := by
  have zero : ∀ r : Reg, tableStep r 0 = steps 8 r := by
    intro r
    rw [tableStep_eq r (by simp)]
    simp
  have small : ∀ {n : Nat} {r : Reg}, (∀ i, n ≤ i → r.getLsbD i = false) →
      ∀ i, n + 8 ≤ i → (r <<< 8).getLsbD i = false := by
    intro n r low i le
    simp [BitVec.getLsbD_shiftLeft, low (i - 8) (by omega)]
  have two : ∀ i, 16 ≤ i → (wide c ^^^ (wide d <<< 8)).getLsbD i = false := by
    intro i le
    rw [BitVec.getLsbD_xor, wide_bit c (by omega), small (fun _ => wide_bit d) i le]
    rfl
  have three : ∀ i, 24 ≤ i → (wide b ^^^ ((wide c ^^^ (wide d <<< 8)) <<< 8)).getLsbD i = false := by
    intro i le
    rw [BitVec.getLsbD_xor, wide_bit b (by omega), small two i le]
    rfl
  simp only [zero, word]
  rw [steps_above crc three, steps_above _ (fun i le => two i (by omega)),
    steps_above _ (fun i le => wide_bit d (by omega))]
  rfl

lemma byWords_eq : ∀ (bs : Bytes) (c : Reg), byWords bs c = byBits c bs
  | [], _ => rfl
  | [a], c => by simp [byWords, byBits, tableStep_wide]
  | [a, b], c => by simp [byWords, byBits, tableStep_wide]
  | [a, b, x], c => by simp [byWords, byBits, tableStep_wide]
  | a :: b :: x :: y :: rest, c => by
    simp only [byWords, byBits, List.foldl_cons]
    rw [tableStep_word, byWords_eq rest]
    rfl

lemma byTable_eq (skew : Nat) (c : Reg) (bs : Bytes) : byTable skew c bs = byBits c bs := by
  have lead : ∀ l : Bytes, l.foldl (fun crc x => tableStep crc (wide x)) c = byBits c l := by
    intro l
    simp only [tableStep_wide]
    rfl
  rw [byTable, byWords_eq, lead, byBits, byBits, byBits, ← List.foldl_append, List.take_append_drop]

end ResQBoot.Crc32
