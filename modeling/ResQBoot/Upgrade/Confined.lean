import ResQBoot.Lib.Checked
import ResQBoot.Upgrade.Image

/-!
# What the sysupgrade parser reads

`parse_sysupgrade` as a checked run over the image: every byte is read with its bounds, and addresses and sizes have the
widths of the source.
-/

namespace ResQBoot.Upgrade

def ptr (n : Nat) : Nat := n % 2 ^ 32

def Parts.zero : Parts := ⟨0, 0, 0, 0⟩

def Parts.choose (p : Parts) (name : Bytes) (data fsize : Nat) : Parts :=
  if 0 < fsize ∧ p.kernelData = 0 ∧ tarIsKernelName name then
    { p with kernelData := data, kernelSize := fsize % 2 ^ 32 }
  else if 0 < fsize ∧ p.rootfsData = 0 ∧ tarIsRootfsName name then
    { p with rootfsData := data, rootfsSize := fsize % 2 ^ 32 }
  else p

def tarRun (b : Buffer) (stop : Nat) : Nat → Nat → Parts → Checked (Parts × Bool)
  | 0, _, p => return (p, false)
  | entries + 1, pos, p => do
    if stop ≤ pos ∨ stop - pos < 512 then return (p, false)
    else if (← b.peek pos 1) = [0] then return (p, false)
    else if (← b.peek (ptr (pos + 257)) 5) ≠ bytes "ustar" then return (p, false)
    else
      let name ← b.peek pos 100
      let field ← b.peek (ptr (pos + 124)) 12
      let fsize := (tarParseSize field).getD (2 ^ 64 - 1)
      let data := ptr (pos + 512)
      if fsize = 2 ^ 64 - 1 ∨ stop < data ∨ stop - data < fsize then return (p, true)
      else
        let padded := (fsize + 511) % 2 ^ 64 / 512 * 512
        if stop - data < padded then return (p, true)
        else tarRun b stop entries (ptr (data + ptr padded)) (p.choose (cstr name) data fsize)

def hsqsRun (b : Buffer) (headerOff : Nat) : Nat → Nat → Checked (Parts × Bool)
  | 0, _ => return (.zero, false)
  | passes + 1, i => do
    if b.size < i + 4 then return (.zero, false)
    else if leNat (← b.peek (ptr (b.addr + i)) 4) = magicHsqs then
      if b.size < i + 48 then return (.zero, true)
      else
        let bytesUsed := leNat (← b.peek (ptr (ptr (b.addr + i) + 40)) 8)
        if bytesUsed = 0 ∨ b.size - i < bytesUsed then
          return (⟨ptr (b.addr + headerOff), i - headerOff, ptr (b.addr + i), 0⟩, true)
        else return (⟨ptr (b.addr + headerOff), i - headerOff, ptr (b.addr + i), bytesUsed % 2 ^ 32⟩, false)
    else hsqsRun b headerOff passes (← Checked.cast 31 (i + 4))

def headerOffRun (b : Buffer) : Checked Nat := do
  if 262 ≤ b.size then
    if (← b.peek (ptr (b.addr + 257)) 5) = bytes "ustar" then return 0 else return 10
  else return 10

def membersRun (b : Buffer) (headerOff : Nat) : Checked (Parts × Bool) := do
  if (← b.peek (ptr (b.addr + headerOff + 257)) 5) = bytes "ustar" then
    tarRun b (ptr (b.addr + b.size)) 32 (ptr (b.addr + headerOff)) .zero
  else if (← b.peek (ptr (b.addr + 257)) 5) = bytes "ustar" then
    tarRun b (ptr (b.addr + b.size)) 32 (ptr (b.addr + headerOff)) .zero
  else hsqsRun b headerOff b.size headerOff

def Parts.checked (found : Parts × Bool) : Parts :=
  if found.2 ∨ found.1.kernelData = 0 ∨ found.1.kernelSize = 0 ∨ found.1.rootfsData = 0 ∨ found.1.rootfsSize = 0 then .zero
  else found.1

def parseSysupgradeRun (b : Buffer) : Checked Parts := do
  if b.addr = 0 ∨ b.size < 512 then return .zero
  else
    let headerOff ← headerOffRun b
    if b.size < headerOff + 512 then return .zero
    else return .checked (← membersRun b headerOff)

/-! ## The members -/

def Members.fields (p : Members) : Parts :=
  ⟨(p.kernel.map Prod.fst).getD 0, (p.kernel.map Prod.snd).getD 0, (p.rootfs.map Prod.fst).getD 0,
    (p.rootfs.map Prod.snd).getD 0⟩

structure Members.Placed (p : Members) : Prop where
  kernel : ∀ part, p.kernel = some part → part.1 ≠ 0
  rootfs : ∀ part, p.rootfs = some part → part.1 ≠ 0

section Members

variable {p : Members} {data fsize : Nat}

lemma Members.Placed.empty : Members.Placed {} := ⟨by rintro _ ⟨⟩, by rintro _ ⟨⟩⟩

lemma Members.Placed.kernel_null (placed : p.Placed) : p.fields.kernelData = 0 ↔ p.kernel = none := by
  cases eq : p.kernel with
  | none => simp [fields, eq]
  | some part => simpa [fields, eq] using placed.kernel part eq

lemma Members.Placed.rootfs_null (placed : p.Placed) : p.fields.rootfsData = 0 ↔ p.rootfs = none := by
  cases eq : p.rootfs with
  | none => simp [fields, eq]
  | some part => simpa [fields, eq] using placed.rootfs part eq

lemma Members.Placed.add (placed : p.Placed) (name : Bytes) (here : data ≠ 0) : (p.add name data fsize).Placed := by
  rw [Members.add]
  split
  · refine ⟨?_, placed.rootfs⟩
    rintro _ ⟨⟩
    exact here
  · split
    · refine ⟨placed.kernel, ?_⟩
      rintro _ ⟨⟩
      exact here
    · exact placed

lemma Members.Placed.choose (placed : p.Placed) (name : Bytes) (small : fsize < 2 ^ 32) :
    p.fields.choose name data fsize = (p.add name data fsize).fields := by
  simp only [Parts.choose, Members.add, placed.kernel_null, placed.rootfs_null, Nat.mod_eq_of_lt small]
  split
  · rfl
  · split <;> rfl

end Members

/-! ## The loops -/

section Loops

variable {b : Buffer}

lemma ptr_eq {n : Nat} (lt : n < 2 ^ 32) : ptr n = n := Nat.mod_eq_of_lt lt

def Leaves (run : Checked (Parts × Bool)) : Option Members → Prop
  | none => ∃ p, run = .ok (p, true)
  | some q => run = .ok (q.fields, false) ∧ q.Placed

lemma read_byte (m : Mem) (a : Nat) : m.read a 1 = [m a] := rfl

lemma tarRun_leaves (fits : b.addr + b.size < 2 ^ 32) (entries : Nat) {pos : Nat} (above : b.addr ≤ pos) {p : Members}
    (placed : p.Placed) :
    Leaves (tarRun b (b.addr + b.size) entries pos p.fields) (tarLoop b.ram (b.addr + b.size) entries pos p) := by
  induction entries generalizing pos p with
  | zero => exact ⟨rfl, placed⟩
  | succ entries ih =>
    rw [tarRun, tarLoop, isUstar]
    by_cases short : b.addr + b.size < pos + 512
    · rw [if_pos (by omega), if_pos (.inl short)]
      exact ⟨rfl, placed⟩
    rw [if_neg (by omega), Buffer.peek_ok (by omega), Checked.ok_bind, read_byte]
    by_cases last : b.ram pos = 0
    · rw [if_pos (by rw [last]), if_pos (.inr (.inl last))]
      exact ⟨rfl, placed⟩
    rw [if_neg fun eq => last (List.cons.inj eq).1, ptr_eq (by omega), Buffer.peek_ok (by omega), Checked.ok_bind]
    by_cases other : b.ram.read (pos + 257) 5 = bytes "ustar"
    · rw [if_neg (not_not_intro other), if_neg (by simp [short, last, other]), Buffer.peek_ok (by omega), Checked.ok_bind,
        ptr_eq (by omega), Buffer.peek_ok (by omega), Checked.ok_bind, ptr_eq (by omega)]
      dsimp only
      cases size : tarParseSize (b.ram.read (pos + 124) 12) with
      | none =>
        rw [Option.getD_none, if_pos (.inl rfl)]
        exact ⟨_, rfl⟩
      | some fsize =>
        dsimp only
        rw [Option.getD_some]
        have le : fsize ≤ roundUp fsize 512 := le_roundUp (by decide)
        by_cases long : b.addr + b.size < pos + 512 + roundUp fsize 512
        · rw [if_pos long]
          split
          · exact ⟨_, rfl⟩
          · rename_i inside
            rw [if_pos (by rw [roundUp] at long; omega)]
            exact ⟨_, rfl⟩
        · have padded : (fsize + 511) % 2 ^ 64 / 512 * 512 = roundUp fsize 512 := by
            rw [roundUp] at long ⊢
            omega
          rw [if_neg long, if_neg (by omega), padded, if_neg (by omega), ptr_eq (by omega : roundUp fsize 512 < 2 ^ 32),
            ptr_eq (by omega), placed.choose _ (by omega)]
          exact ih (by omega) (placed.add _ (by omega))
    · rw [if_pos other, if_pos (.inr (.inr (by simp [other])))]
      exact ⟨rfl, placed⟩

def hsqsAt (m : Mem) (base headerOff size k : Nat) : Option Members :=
  if size < headerOff + 4 * k + 48 then none
  else
    let bytesUsed := leNat (m.read (base + (headerOff + 4 * k) + 40) 8)
    if bytesUsed = 0 ∨ size - (headerOff + 4 * k) < bytesUsed then none
    else some { kernel := some (base + headerOff, headerOff + 4 * k - headerOff), rootfs := some (base + (headerOff + 4 * k), bytesUsed) }

lemma hsqsScan_eq (m : Mem) (base headerOff size : Nat) : hsqsScan m base headerOff size =
    ((List.range' 0 ((size - headerOff) / 4)).find? fun k => u32At m (base + headerOff + 4 * k) = magicHsqs).elim (some {})
      (hsqsAt m base headerOff size) := by
  rw [hsqsScan, List.range_eq_range']
  cases (List.range' 0 ((size - headerOff) / 4)).find? fun k => u32At m (base + headerOff + 4 * k) = magicHsqs <;> rfl

lemma hsqsRun_leaves (fits : b.addr + b.size ≤ 2 ^ 32) (some_ : b.addr ≠ 0) (small : b.size < 2 ^ 31) {h words k n : Nat}
    (all : k + words = (b.size - h) / 4) (enough : words < n) : Leaves (hsqsRun b h n (h + 4 * k))
      (((List.range' k words).find? fun k => u32At b.ram (b.addr + h + 4 * k) = magicHsqs).elim (some {})
        (hsqsAt b.ram b.addr h b.size)) := by
  induction words generalizing k n with
  | zero =>
    obtain ⟨n, rfl⟩ := Nat.exists_eq_add_one_of_ne_zero (by omega : n ≠ 0)
    rw [hsqsRun, if_pos (by omega)]
    exact ⟨rfl, .empty⟩
  | succ words ih =>
    obtain ⟨n, rfl⟩ := Nat.exists_eq_add_one_of_ne_zero (by omega : n ≠ 0)
    have word : b.addr + h + 4 * k = b.addr + (h + 4 * k) := Nat.add_assoc _ _ _
    rw [hsqsRun, if_neg (by omega), ptr_eq (by omega), Buffer.peek_ok (by omega), Checked.ok_bind, List.range'_succ,
      List.find?_cons, word, u32At]
    by_cases here : leNat (b.ram.read (b.addr + (h + 4 * k)) 4) = magicHsqs
    · rw [if_pos here, decide_eq_true here]
      dsimp only [Option.elim_some]
      rw [hsqsAt]
      by_cases cut : b.size < h + 4 * k + 48
      · rw [if_pos cut, if_pos cut]
        exact ⟨_, rfl⟩
      rw [if_neg cut, if_neg cut, ptr_eq (by omega), Buffer.peek_ok (by omega), Checked.ok_bind]
      dsimp only
      generalize leNat (b.ram.read (b.addr + (h + 4 * k) + 40) 8) = bytesUsed
      split
      · exact ⟨_, rfl⟩
      rename_i used
      rw [ptr_eq (by omega), Nat.mod_eq_of_lt (by omega)]
      refine ⟨rfl, ?_, ?_⟩
      · rintro _ ⟨⟩
        exact fun zero => some_ (by omega)
      · rintro _ ⟨⟩
        exact fun zero => some_ (by omega)
    · rw [if_neg here, decide_eq_false here, Checked.cast_ok (by omega), Checked.ok_bind]
      exact ih (by omega) (by omega)

end Loops

/-! ## The parser -/

section Parser

variable {b : Buffer}

lemma Members.Placed.checked {q : Members} (placed : q.Placed) : Parts.checked (q.fields, false) = q.parts.getD .zero := by
  rw [Parts.checked, Members.parts]
  cases kernel : q.kernel with
  | none => simp [placed.kernel_null, kernel]
  | some k =>
    cases rootfs : q.rootfs with
    | none => simp [placed.rootfs_null, rootfs]
    | some r =>
      have fields : q.fields = ⟨k.1, k.2, r.1, r.2⟩ := by simp [Members.fields, kernel, rootfs]
      have nulls : k.1 ≠ 0 ∧ r.1 ≠ 0 := ⟨placed.kernel k kernel, placed.rootfs r rootfs⟩
      rw [fields]
      dsimp only
      by_cases empty : k.2 = 0 ∨ r.2 = 0
      · rw [if_pos (by omega), if_pos empty]
        rfl
      · rw [if_neg (by simp only [Bool.false_eq_true, false_or]; omega), if_neg empty]
        rfl

lemma Leaves.checked {run : Checked (Parts × Bool)} {found : Option Members} (leaves : Leaves run found) :
    (do return Parts.checked (← run)) = (.ok ((found.bind Members.parts).getD .zero) : Checked Parts) := by
  cases found with
  | none =>
    obtain ⟨p, rfl⟩ := leaves
    rfl
  | some q =>
    obtain ⟨rfl, placed⟩ := leaves
    exact congrArg Except.ok placed.checked

section

variable (fits : b.addr + b.size ≤ 2 ^ 32)
include fits

lemma headerOffRun_eq (whole : 512 ≤ b.size) :
    headerOffRun b = .ok (if isUstar b.ram b.addr then 0 else 10) := by
  rw [headerOffRun, if_pos (by omega), ptr_eq (by omega), Buffer.peek_ok (by omega), Checked.ok_bind, isUstar]
  by_cases tar : b.ram.read (b.addr + 257) 5 = bytes "ustar"
  · rw [if_pos tar, decide_eq_true tar]
    rfl
  · rw [if_neg tar, decide_eq_false tar]
    rfl

lemma membersRun_eq {h : Nat} (whole : h + 512 ≤ b.size) : membersRun b h =
      if isUstar b.ram (b.addr + h) || isUstar b.ram b.addr then
        tarRun b (ptr (b.addr + b.size)) 32 (b.addr + h) (Members.fields {})
      else hsqsRun b h b.size h := by
  rw [membersRun, ptr_eq (by omega), Buffer.peek_ok (by omega), Checked.ok_bind, isUstar]
  by_cases tar : b.ram.read (b.addr + h + 257) 5 = bytes "ustar"
  · rw [if_pos tar, decide_eq_true tar, Bool.true_or, if_pos rfl, ptr_eq (by omega : b.addr + h < 2 ^ 32)]
    rfl
  rw [if_neg tar, decide_eq_false tar, Bool.false_or, ptr_eq (by omega : b.addr + 257 < 2 ^ 32),
    Buffer.peek_ok (by omega), Checked.ok_bind, isUstar]
  by_cases base : b.ram.read (b.addr + 257) 5 = bytes "ustar"
  · rw [if_pos base, decide_eq_true base, if_pos rfl, ptr_eq (by omega : b.addr + h < 2 ^ 32)]
    rfl
  · rw [if_neg base, decide_eq_false base, if_neg Bool.false_ne_true]

lemma parseSysupgradeRun_result (some_ : b.addr ≠ 0) (small : b.size < 2 ^ 31) :
    ∃ p, parseSysupgradeRun b = .ok p ∧ (p = .zero ∨ parseSysupgrade b.ram b.addr b.size = some p) ∧
      (b.addr + b.size < 2 ^ 32 → p = (parseSysupgrade b.ram b.addr b.size).getD .zero) := by
  have done {o : Option Parts} {x : Checked Parts} (eq : x = .ok (o.getD .zero)) :
      ∃ p, x = .ok p ∧ (p = .zero ∨ o = some p) ∧ (b.addr + b.size < 2 ^ 32 → p = o.getD .zero) := by
    refine ⟨_, eq, ?_, fun _ => rfl⟩
    cases o with
    | none => exact .inl rfl
    | some p => exact .inr rfl
  rw [parseSysupgradeRun, parseSysupgrade]
  by_cases short : b.size < 512
  · rw [if_pos (.inr short), if_pos short]
    exact done rfl
  rw [if_neg (by omega), if_neg short, headerOffRun_eq fits (by omega), Checked.ok_bind]
  dsimp only
  generalize (if isUstar b.ram b.addr then 0 else 10) = h
  by_cases cut : b.size < h + 512
  · rw [if_pos cut, if_pos cut]
    exact done rfl
  rw [if_neg cut, if_neg cut, membersRun_eq fits (by omega)]
  by_cases tar : (isUstar b.ram (b.addr + h) || isUstar b.ram b.addr) = true
  · rw [if_pos tar, if_pos tar]
    rcases Nat.lt_or_eq_of_le fits with inside | top
    · rw [ptr_eq inside]
      exact done (tarRun_leaves inside 32 (Nat.le_add_right _ _) .empty).checked
    · have stop : ptr (b.addr + b.size) = 0 := by rw [top]; rfl
      rw [stop]
      exact ⟨.zero, rfl, .inl rfl, fun lt => absurd top (Nat.ne_of_lt lt)⟩
  · have scan := (hsqsRun_leaves fits some_ small (h := h) (k := 0) (Nat.zero_add _) (by omega : _ < b.size)).checked
    rw [← hsqsScan_eq] at scan
    rw [if_neg tar, if_neg tar]
    exact done scan

end

end Parser

/-- The parser reads bytes of its buffer only, and returns two parts of it that are not empty and do not overlap, or
nothing. -/
theorem parse_sysupgrade_confined (b : Buffer) (small : b.size < 2 ^ 31) (fits : b.addr + b.size ≤ 2 ^ 32) :
    ∃ p, parseSysupgradeRun b = .ok p ∧ (p = .zero ∨
      (0 < p.kernelSize ∧ 0 < p.rootfsSize) ∧ InImage b.addr b.size (p.kernelData, p.kernelSize) ∧
        InImage b.addr b.size (p.rootfsData, p.rootfsSize) ∧
        Apart (p.kernelData, p.kernelSize) (p.rootfsData, p.rootfsSize)) := by
  by_cases null : b.addr = 0
  · refine ⟨.zero, ?_, .inl rfl⟩
    rw [parseSysupgradeRun, if_pos (.inl null)]
    rfl
  · obtain ⟨p, run, zero | parsed, -⟩ := parseSysupgradeRun_result fits null small
    · exact ⟨p, run, .inl zero⟩
    · exact ⟨p, run, .inr (parseSysupgrade_placed parsed)⟩

def squashImage : Buffer where
  ram := (Mem.write (fun _ => 0) 0x4B00000e (bytes "hsqs")).write 0x4B000036 [48]
  addr := 0x4B000000
  size := 600

theorem parse_sysupgrade_squash : ∃ p, parseSysupgradeRun squashImage = .ok p ∧ p = ⟨0x4B00000a, 4, 0x4B00000e, 48⟩ ∧
    Apart (p.kernelData, p.kernelSize) (p.rootfsData, p.rootfsSize) := by
  have run : parseSysupgradeRun squashImage = .ok ⟨0x4B00000a, 4, 0x4B00000e, 48⟩ := by rfl
  obtain ⟨p, again, zero | ⟨-, -, -, apart⟩⟩ := parse_sysupgrade_confined squashImage (by decide) (by decide)
  · rw [zero, run] at again
    exact absurd (Except.ok.inj again) (by decide)
  · exact ⟨p, again, (Except.ok.inj (run.symm.trans again)).symm, apart⟩

end ResQBoot.Upgrade
