import ResQBoot.Lib.Probe
import ResQBoot.Upgrade.Scope

/-!
# RAM behind the upload

`check_fw_type_ex` probes fixed offsets, which may lie behind a short upload. The commands do not depend on what is left
there, except where a probe is cut by the end of the upload.
-/

namespace ResQBoot.Upgrade

open Flash
open Failsafe (UpgradeType)

/-! ## Command interpreters that behave alike -/

structure Shell (σ : Type) where
  exec : List Word → σ → Bool × σ
  canReplace : String → Nat → σ → Bool
  ram : σ → Mem

variable {σ σ' : Type}

def Shell.answer (sh : Shell σ) : Query → σ → Bool × σ
  | .line words, e => sh.exec words e
  | .readBack name addr scratch size, e =>
    let (ok, e) := sh.exec [.flashread name scratch size] e
    (ok && decide ((sh.ram e).read addr size = (sh.ram e).read scratch size), e)
  | .canReplace name size, e => (sh.canReplace name size e, e)

def Shell.commands (sh : Shell σ) (d : Talk) (e : σ) : List Bytes := (d.asked sh.answer e).filterMap Query.text

structure Alike (addr size : Nat) (sh : Shell σ) (sh' : Shell σ') (R : σ → σ' → Prop) : Prop where
  exec : ∀ words e e', R e e' → (sh.exec words e).1 = (sh'.exec words e').1 ∧
    R (sh.exec words e).2 (sh'.exec words e').2
  canReplace : ∀ name n e e', R e e' → sh.canReplace name n e = sh'.canReplace name n e'
  upload : ∀ e e', R e e' → ∀ x, addr ≤ x → x < addr + size → sh.ram e x = sh'.ram e' x
  fetched : ∀ name scratch n e e', R e e' → (sh.exec [.flashread name scratch n] e).1 = true →
    ∀ x, scratch ≤ x → x < scratch + n → sh.ram (sh.exec [.flashread name scratch n] e).2 x =
      sh'.ram (sh'.exec [.flashread name scratch n] e').2 x

def ReadsBack (addr size : Nat) : Query → Prop
  | .readBack _ addr' _ size' => addr' = addr ∧ size' = size
  | _ => True

variable {addr size : Nat}

lemma Alike.answer {sh : Shell σ} {sh' : Shell σ'} {R : σ → σ' → Prop} (alike : Alike addr size sh sh' R)
    (q : Query) (e : σ) (e' : σ') (back : ReadsBack addr size q) (related : R e e') :
    (sh.answer q e).1 = (sh'.answer q e').1 ∧ R (sh.answer q e).2 (sh'.answer q e').2 := by
  cases q with
  | line words => exact alike.exec words e e' related
  | canReplace name n => exact ⟨alike.canReplace name n e e' related, related⟩
  | readBack name a scratch n =>
    obtain ⟨rfl, rfl⟩ := back
    obtain ⟨result, next⟩ := alike.exec [.flashread name scratch n] e e' related
    refine ⟨?_, next⟩
    simp only [Shell.answer]
    rw [← result]
    cases ok : (sh.exec [.flashread name scratch n] e).1 with
    | false => rfl
    | true =>
      rw [Mem.read_congr (alike.upload _ _ next), Mem.read_congr (alike.fetched name scratch n e e' related ok)]

lemma Alike.commands {sh : Shell σ} {sh' : Shell σ'} {R : σ → σ' → Prop}
    (alike : Alike addr size sh sh' R) {d : Talk} (back : d.Asks (ReadsBack addr size)) {e : σ} {e' : σ'}
    (related : R e e') : sh.commands d e = sh'.commands d e' := by
  rw [Shell.commands, Shell.commands, (Dialog.asked_alike alike.answer back related).1]

namespace Host

variable (h : Host) {n size : Nat} {m m' : Mem}

lemma readsBack_upgrade (type : UpgradeType) : (h.doHttpUpgrade size type m).Asks (ReadsBack h.uploadAddr size) := by
  refine (h.careful_upgrade type).asks fun q may => ?_
  cases q with
  | readBack name addr scratch n => exact may.2
  | line words | canReplace name n => trivial

/-! ## What the probes see -/

def Known (n size a : Nat) : Prop := h.uploadAddr ≤ a ∧ a < h.uploadAddr + max n size

instance : DecidablePred (h.Known n size) := fun a => by
  unfold Known
  infer_instance

variable {oneLine : Bool} {bs : Bytes} {h : Host} {a kb kb' x : Nat} {kernel root : Nat × Nat} {type : UpgradeType}

lemma checkFwType_congr (same : ∀ x, a ≤ x → x < a + 0x4004 → m x = m' x) : checkFwType m a = checkFwType m' a := by
  have word (i : Nat) (le : i ≤ 0x4000) : u32At m (a + i) = u32At m' (a + i) :=
    u32At_congr fun x _ _ => same x (by omega) (by omega)
  have flas := word 0x5c (by decide)
  have first := word 0 (by decide)
  have last := word 0x4000 (by decide)
  have mbr : m.read (a + 0x1fe) 2 = m'.read (a + 0x1fe) 2 := Mem.read_congr fun x _ _ => same x (by omega) (by omega)
  have text : m.read a 10 = m'.read a 10 := Mem.read_congr fun x _ _ => same x (by omega) (by omega)
  rw [Nat.add_zero] at first
  rw [checkFwType, checkFwType, flas, first, last, mbr, text]

lemma agree_type (prefilled : 0x4004 ≤ n) (agree : Mem.Agree (h.Known n size) m m') :
    checkFwType m h.uploadAddr = checkFwType m' h.uploadAddr :=
  checkFwType_congr fun x _ _ => agree x ⟨by omega, by omega⟩

lemma agree_upload (agree : Mem.Agree (h.Known n size) m m') :
    ∀ x, h.uploadAddr ≤ x → x < h.uploadAddr + size → m x = m' x :=
  fun x _ _ => agree x ⟨by omega, by omega⟩

lemma u32At_eq_iff {v : Nat} (small : v < 2 ^ 32) : u32At m a = v ↔ m.read a (toLe 4 v).length = toLe 4 v := by
  have width : v < 256 ^ (m.read a 4).length := by rwa [Mem.length_read]
  rw [u32At, leNat_eq_iff width, Mem.length_read, length_toLe]

/-! ### The kernel of a FIT image -/

def hlosKb (m : Mem) (address : Nat) : Nat :=
  (hlosSizesKb.find? fun kb => u32At m (address + kb * 1024) = magicHsqs).getD 16384

lemma mem_hlosSizesKb : kb ∈ hlosSizesKb ↔ ∃ i < 29, kb = 2048 + i * 512 := by
  simp [hlosSizesKb, eq_comm]

lemma hlosSizesKb_step (mem : kb ∈ hlosSizesKb) (mem' : kb' ∈ hlosSizesKb) (lt : kb < kb') : kb + 512 ≤ kb' := by
  obtain ⟨i, -, rfl⟩ := mem_hlosSizesKb.mp mem
  obtain ⟨j, -, rfl⟩ := mem_hlosSizesKb.mp mem'
  omega

structure First (m : Mem) (address kb : Nat) : Prop where
  mem : kb ∈ hlosSizesKb
  before : ∀ kb' ∈ hlosSizesKb, kb' < kb → u32At m (address + kb' * 1024) ≠ magicHsqs
  here : kb ≠ 16384 → u32At m (address + kb * 1024) = magicHsqs

lemma first_hlosKb (m : Mem) (address : Nat) : First m address (hlosKb m address) := by
  rw [hlosKb]
  cases found : hlosSizesKb.find? fun kb => u32At m (address + kb * 1024) = magicHsqs with
  | none =>
    rw [List.find?_eq_none] at found
    simp only [decide_eq_true_eq] at found
    exact ⟨by decide, fun kb mem _ => found kb mem, fun ne => absurd rfl ne⟩
  | some kb =>
    rw [Option.getD_some]
    obtain ⟨here, before, after, split, none⟩ := List.find?_eq_some_iff_append.mp found
    refine ⟨List.mem_of_find?_eq_some found, fun kb' mem lt => ?_, fun _ => by simpa using here⟩
    -- the sizes increase, so a smaller one stands in front
    have sorted : (before ++ kb :: after).Pairwise (· < ·) := by
      rw [← split]
      decide
    rw [split, List.mem_append, List.mem_cons] at mem
    rcases mem with mem | rfl | mem
    · simpa using none kb' mem
    · exact absurd lt (Nat.lt_irrefl _)
    · have above := (List.pairwise_cons.mp (List.pairwise_append.mp sorted).2.1).1 kb' mem
      omega

lemma First.unique {address : Nat} (first : First m address kb) (first' : First m address kb') : kb = kb' := by
  have last {k : Nat} (mem : k ∈ hlosSizesKb) : k ≤ 16384 := by
    obtain ⟨i, lt, rfl⟩ := mem_hlosSizesKb.mp mem
    omega
  have top := last first.mem
  have top' := last first'.mem
  rcases Nat.lt_trichotomy kb kb' with lt | eq | lt
  · exact absurd (first.here (by omega)) (first'.before kb first.mem lt)
  · exact eq
  · exact absurd (first'.here (by omega)) (first.before kb' first'.mem lt)

/-! ## The commands -/

def hsqs : Bytes := toLe 4 magicHsqs
def fitMagic : Bytes := toLe 4 0xedfe0dd0
def flasMagic : Bytes := toLe 4 0x73616c46

def FitSettled (n size : Nat) (m : Mem) : Prop :=
  ∀ kb ∈ hlosSizesKb, kb < 16384 → kb * 1024 < size →
    (∀ kb' ∈ hlosSizesKb, kb' < kb → Mem.Differs (h.Known n size) m (h.uploadAddr + kb' * 1024) hsqs) →
    Mem.Open (h.Known n size) m (h.uploadAddr + kb * 1024) hsqs →
    ¬ h.Passes (h.uploadAddr, kb * 1024) (h.uploadAddr + kb * 1024, size - kb * 1024)

def BootKnown (n size a : Nat) : Prop := h.Known n size a ∨ h.ramBootAddr ≤ a ∧ a < h.ramBootAddr + size

instance : DecidablePred (h.BootKnown n size) := fun a => by
  unfold BootKnown
  infer_instance

def BootSettled (n size : Nat) (m : Mem) : Prop :=
  Mem.Differs (h.BootKnown n size) m h.ramBootAddr fitMagic ∨
  Mem.Certain (h.BootKnown n size) m (h.ramBootAddr + 0x5c) flasMagic ∨
  Mem.Certain (h.BootKnown n size) m h.ramBootAddr fitMagic ∧
    Mem.Differs (h.BootKnown n size) m (h.ramBootAddr + 0x5c) flasMagic

def Settled (n size : Nat) (type : UpgradeType) (m : Mem) : Prop :=
  match type with
  | .firmware => h.onEmmc = true → checkFwType m h.uploadAddr = some .fit → h.FitSettled n size m
  | .initramfs => h.BootSettled n size (h.moved size m)
  | _ => True

def StaleIgnored (n size : Nat) (type : UpgradeType) (m : Mem) : Prop :=
  ∀ m', Mem.Agree (h.Known n size) m m' →
    ∀ (σ σ' : Type) (sh : Shell σ) (sh' : Shell σ') (R : σ → σ' → Prop), Alike h.uploadAddr size sh sh' R →
      ∀ e e', R e e' → sh.ram e = m → sh'.ram e' = m' →
        sh.commands (h.doHttpUpgrade size type m) e = sh'.commands (h.doHttpUpgrade size type m') e'

lemma emmcParts_refused (refused : ¬ h.Passes kernel root) : h.emmcParts oneLine kernel root = .done false := by
  rw [emmcParts]
  split
  · rfl
  split
  · rfl
  · rename_i known fits
    rw [not_or] at known fits
    exact absurd ⟨known, Nat.not_lt.mp fits.1, Nat.not_lt.mp fits.2⟩ refused

def fitParts (size kb : Nat) : Talk :=
  if size ≤ kb * 1024 then .done false
  else h.emmcParts true (h.uploadAddr, kb * 1024) (h.uploadAddr + kb * 1024, size - kb * 1024)

lemma emmcImage_fit (fit : checkFwType m h.uploadAddr = some .fit) (first : First m h.uploadAddr kb) :
    h.emmcImage size m = h.fitParts size kb := by
  have hlosSize : fwHlosSize m h.uploadAddr = kb * 1024 := by
    rw [first.unique (first_hlosKb m h.uploadAddr), fwHlosSize, hlosKb]
  rw [emmcImage, fit, fitParts, hlosSize]

lemma matches_iff : u32At m a = magicHsqs ↔ m.read a hsqs.length = hsqs := u32At_eq_iff (by decide)

lemma fitParts_of_lt (agree : Mem.Agree (h.Known n size) m m') (first : First m h.uploadAddr kb)
    (first' : First m' h.uploadAddr kb') (lt : kb < kb') (settled : h.FitSettled n size m) :
    h.fitParts size kb = .done false ∧ h.fitParts size kb' = .done false := by
  have small : kb < 16384 := by
    obtain ⟨i, below, rfl⟩ := mem_hlosSizesKb.mp first'.mem
    omega
  have step := hlosSizesKb_step first.mem first'.mem lt
  rw [fitParts, fitParts]
  by_cases short : size ≤ kb * 1024
  · have short' : size ≤ kb' * 1024 := Nat.le_trans short (Nat.mul_le_mul_right 1024 (Nat.le_of_lt lt))
    exact ⟨if_pos short, if_pos short'⟩
  have here := matches_iff.mp (first.here (by omega))
  have gone := mt matches_iff.mpr (first'.before kb first.mem lt)
  have isOpen := Mem.open_of_disagree agree here gone
  have length : hsqs.length = 4 := length_toLe 4 magicHsqs
  -- the probe is cut by the end of the upload
  have cut : size < kb * 1024 + 4 := by
    by_contra inside
    exact isOpen.2 fun i lt => ⟨by omega, by omega⟩
  have before (k : Nat) (mem : k ∈ hlosSizesKb) (below : k < kb) :
      Mem.Differs (h.Known n size) m (h.uploadAddr + k * 1024) hsqs := by
    have step := hlosSizesKb_step mem first.mem below
    have covered : Mem.Covered (h.Known n size) (h.uploadAddr + k * 1024) hsqs.length :=
      fun i lt => ⟨by omega, by omega⟩
    exact covered.differs (mt matches_iff.mpr (first.before k mem below))
  have short' : size ≤ kb' * 1024 := by omega
  rw [if_neg short, h.emmcParts_refused (settled kb first.mem small (by omega) before isOpen)]
  exact ⟨rfl, if_pos short'⟩

lemma FitSettled.congr (settled : h.FitSettled n size m) (agree : Mem.Agree (h.Known n size) m m') :
    h.FitSettled n size m' := by
  intro kb mem small inside before isOpen
  exact settled kb mem small inside (fun kb' mem' lt => agree.differs.mpr (before kb' mem' lt))
    (agree.isOpen.mpr isOpen)

lemma emmcImage_congr (prefilled : 0x4004 ≤ n) (agree : Mem.Agree (h.Known n size) m m')
    (settled : checkFwType m h.uploadAddr = some .fit → h.FitSettled n size m) :
    h.emmcImage size m = h.emmcImage size m' := by
  have type := h.agree_type prefilled agree
  by_cases fit : checkFwType m h.uploadAddr = some .fit
  · have first := first_hlosKb m h.uploadAddr
    have first' := first_hlosKb m' h.uploadAddr
    rw [h.emmcImage_fit fit first, h.emmcImage_fit (type.symm.trans fit) first']
    rcases Nat.lt_trichotomy (hlosKb m h.uploadAddr) (hlosKb m' h.uploadAddr) with lt | eq | lt
    · obtain ⟨refused, refused'⟩ := h.fitParts_of_lt agree first first' lt (settled fit)
      rw [refused, refused']
    · rw [eq]
    · obtain ⟨refused', refused⟩ := h.fitParts_of_lt agree.symm first' first lt ((settled fit).congr agree)
      rw [refused, refused']
  · rw [emmcImage, emmcImage, ← type, ← parseSysupgrade_congr (h.agree_upload agree)]
    cases eq : checkFwType m h.uploadAddr with
    | none => rfl
    | some t =>
      cases t
      case fit => exact absurd eq fit
      all_goals rfl

lemma firmware_congr (prefilled : 0x4004 ≤ n) (agree : Mem.Agree (h.Known n size) m m')
    (settled : h.Settled n size .firmware m) : h.doFirmwareUpgrade size m = h.doFirmwareUpgrade size m' := by
  have type := h.agree_type prefilled agree
  have parts := parseSysupgrade_congr (h.agree_upload agree)
  by_cases emmc : h.onEmmc = true
  · rw [h.doFirmwareUpgrade_emmc emmc, h.doFirmwareUpgrade_emmc emmc, emmcUpgrade, emmcUpgrade,
      h.emmcImage_congr prefilled agree (settled emmc)]
  simp only [Setup.onEmmc, Bool.or_eq_true, decide_eq_true_eq, not_or] at emmc
  simp only [doFirmwareUpgrade, nandUpgrade, norUpgrade, spiNandUpgrade, ubiVolumes, ← type, ← parts]
  split
  case h_1 _ eq => exact absurd eq emmc.1
  case h_2 _ eq => exact absurd eq emmc.2
  all_goals rfl

/-! ### The type of an initramfs -/

lemma moved_inside (lt : x < size) : h.moved size m (h.ramBootAddr + x) = m (h.uploadAddr + x) := by
  have here : h.ramBootAddr ≤ h.ramBootAddr + x ∧ h.ramBootAddr + x < h.ramBootAddr + (m.read h.uploadAddr size).length := by
    rw [Mem.length_read]
    omega
  rw [moved, Mem.write, if_pos here, Nat.add_sub_cancel_left]
  simp [Mem.read, lt]

lemma moved_outside (out : ¬ (h.ramBootAddr ≤ x ∧ x < h.ramBootAddr + size)) : h.moved size m x = m x := by
  rw [moved, Mem.write_outside]
  rw [Mem.length_read]
  omega

lemma agree_moved (agree : Mem.Agree (h.Known n size) m m') :
    Mem.Agree (h.BootKnown n size) (h.moved size m) (h.moved size m') := by
  intro x known
  by_cases inside : h.ramBootAddr ≤ x ∧ x < h.ramBootAddr + size
  · obtain ⟨i, rfl⟩ := Nat.exists_eq_add_of_le inside.1
    have lt : i < size := by omega
    rw [h.moved_inside lt, h.moved_inside lt, h.agree_upload agree _ (Nat.le_add_right _ _) (by omega)]
  · rw [h.moved_outside inside, h.moved_outside inside, agree x (known.resolve_right inside)]

lemma checkFwType_fit_iff : checkFwType m a = some .fit ↔
    m.read (a + 0x5c) flasMagic.length ≠ flasMagic ∧ m.read a fitMagic.length = fitMagic := by
  have flas : u32At m (a + 0x5c) = 0x73616c46 ↔ m.read (a + 0x5c) flasMagic.length = flasMagic := u32At_eq_iff (by decide)
  have fit : u32At m a = 0xedfe0dd0 ↔ m.read a fitMagic.length = fitMagic := u32At_eq_iff (by decide)
  rw [Ne, ← flas, ← fit, checkFwType]
  split
  · simp_all
  rename_i noFlas
  split
  · rename_i ubi
    simp [ubi]
  split
  · simp_all
  · rename_i noFit
    simp only [noFit, and_false, iff_false]
    repeat' split
    all_goals decide

lemma initramfs_congr (agree : Mem.Agree (h.Known n size) m m') (settled : h.Settled n size .initramfs m) :
    h.doInitramfsBoot (h.moved size m) = h.doInitramfsBoot (h.moved size m') := by
  have moved := h.agree_moved agree
  have fit : checkFwType (h.moved size m) h.ramBootAddr = some .fit ↔
      checkFwType (h.moved size m') h.ramBootAddr = some .fit := by
    rw [checkFwType_fit_iff, checkFwType_fit_iff]
    rcases settled with differs | certain | ⟨certain, differs⟩
    · exact iff_of_false (fun fit => differs.read_ne .refl fit.2) (fun fit => differs.read_ne moved fit.2)
    · exact iff_of_false (fun fit => fit.1 (certain.read_eq .refl)) (fun fit => fit.1 (certain.read_eq moved))
    · exact iff_of_true ⟨differs.read_ne .refl, certain.read_eq .refl⟩ ⟨differs.read_ne moved, certain.read_eq moved⟩
  simp only [doInitramfsBoot, Ne, fit]

lemma upgrade_congr (prefilled : 0x4004 ≤ n) (agree : Mem.Agree (h.Known n size) m m')
    (settled : h.Settled n size type m) : h.doHttpUpgrade size type m = h.doHttpUpgrade size type m' := by
  have same := h.agree_type prefilled agree
  cases type
  case firmware => exact h.firmware_congr prefilled agree settled
  case initramfs => exact h.initramfs_congr agree settled
  all_goals
    simp only [doHttpUpgrade, doUbootUpgrade, doArtUpgrade, doImgUpgrade, doCdtUpgrade, doMibibUpgrade,
      doPtableUpgrade, doGptUpgrade, same]

/-! ### Runs that differ -/

def refuser : Shell Mem where
  exec _ e := (false, e)
  canReplace _ _ _ := false
  ram e := e

lemma refuser_alike (addr size : Nat) :
    Alike addr size refuser refuser fun m m' => ∀ x, addr ≤ x → x < addr + size → m x = m' x where
  exec _ _ _ related := ⟨rfl, related⟩
  canReplace _ _ _ _ _ := rfl
  upload _ _ related := related
  fetched _ _ _ _ _ _ ok := by cases ok

lemma commands_ask (sh : Shell σ) (words : List Word) (next : Bool → Talk) (e : σ) :
    sh.commands (.ask (.line words) next) e ≠ [] := by
  simp [Shell.commands, Dialog.asked, Query.text]

lemma StaleIgnored.refuser (ignored : h.StaleIgnored n size type m) (agree : Mem.Agree (h.Known n size) m m') :
    Host.refuser.commands (h.doHttpUpgrade size type m) m = Host.refuser.commands (h.doHttpUpgrade size type m') m' :=
  ignored m' agree _ _ _ _ _ (refuser_alike h.uploadAddr size) m m' (h.agree_upload agree) rfl rfl

lemma not_ignored {m₁ m₂ : Mem} (agree₁ : Mem.Agree (h.Known n size) m m₁) (agree₂ : Mem.Agree (h.Known n size) m m₂)
    (asks : ∃ words next, h.doHttpUpgrade size type m₁ = .ask (.line words) next)
    (refuses : h.doHttpUpgrade size type m₂ = .done false) : ¬ h.StaleIgnored n size type m := by
  intro ignored
  obtain ⟨words, next, asks⟩ := asks
  have same := (ignored.refuser agree₁).symm.trans (ignored.refuser agree₂)
  rw [asks, refuses] at same
  exact commands_ask Host.refuser words next m₁ same

lemma emmcParts_passes (passes : h.Passes kernel root) : h.emmcParts oneLine kernel root =
      flashPrimary oneLine kernel root (h.flashBackup oneLine kernel root (.done true)) := by
  rw [Passes, hlosName] at passes
  obtain ⟨⟨hlos, rootfs⟩, fits⟩ := passes
  rw [emmcParts, if_neg (not_or.mpr ⟨hlos, rootfs⟩), if_neg (not_or.mpr ⟨Nat.not_lt.mpr fits.1, Nat.not_lt.mpr fits.2⟩)]

lemma fitSettled_of_ignored (prefilled : 0x4004 ≤ n) (emmc : h.onEmmc = true)
    (fit : checkFwType m h.uploadAddr = some .fit) (ignored : h.StaleIgnored n size .firmware m) :
    h.FitSettled n size m := by
  intro kb mem small inside before isOpen passes
  let m₁ := Mem.patched (h.Known n size) m (h.uploadAddr + kb * 1024) hsqs
  let m₂ := Mem.spoiled (h.Known n size) m (h.uploadAddr + kb * 1024) hsqs
  have agree₁ : Mem.Agree (h.Known n size) m m₁ := Mem.agree_patched
  have agree₂ : Mem.Agree (h.Known n size) m m₂ := Mem.agree_spoiled
  have first₁ : First m₁ h.uploadAddr kb := by
    refine ⟨mem, fun kb' mem' lt => ?_, fun _ => matches_iff.mpr (Mem.read_patched isOpen.1)⟩
    exact mt matches_iff.mp ((before kb' mem' lt).read_ne agree₁)
  have first₂ := first_hlosKb m₂ h.uploadAddr
  have later : kb < hlosKb m₂ h.uploadAddr := by
    have none : u32At m₂ (h.uploadAddr + kb * 1024) ≠ magicHsqs := mt matches_iff.mp (Mem.read_spoiled isOpen.2)
    rcases Nat.lt_trichotomy kb (hlosKb m₂ h.uploadAddr) with lt | eq | lt
    · exact lt
    · exact absurd (eq ▸ first₂.here (by omega)) none
    · exact absurd (first₂.here (by omega)) (mt matches_iff.mp ((before _ first₂.mem lt).read_ne agree₂))
  have step := hlosSizesKb_step mem first₂.mem later
  have cut : size < kb * 1024 + 4 := by
    have length : hsqs.length = 4 := length_toLe 4 magicHsqs
    by_contra inside
    exact isOpen.2 fun i lt => ⟨by omega, by omega⟩
  have asks : ∃ words next, h.doHttpUpgrade size .firmware m₁ = .ask (.line words) next := by
    have fit₁ := (h.agree_type prefilled agree₁).symm.trans fit
    rw [doHttpUpgrade, h.doFirmwareUpgrade_emmc emmc, emmcUpgrade, h.emmcImage_fit fit₁ first₁, fitParts,
      if_neg (Nat.not_le.mpr inside), h.emmcParts_passes passes]
    exact ⟨_, _, rfl⟩
  have refuses : h.doHttpUpgrade size .firmware m₂ = .done false := by
    have fit₂ := (h.agree_type prefilled agree₂).symm.trans fit
    have short : size ≤ hlosKb m₂ h.uploadAddr * 1024 := by omega
    rw [doHttpUpgrade, h.doFirmwareUpgrade_emmc emmc, emmcUpgrade, h.emmcImage_fit fit₂ first₂, fitParts, if_pos short]
    rfl
  exact h.not_ignored agree₁ agree₂ asks refuses ignored

lemma moved_patched : h.moved size (Mem.patched (h.BootKnown n size) m a bs) =
    Mem.patched (h.BootKnown n size) (h.moved size m) a bs := by
  funext x
  by_cases inside : h.ramBootAddr ≤ x ∧ x < h.ramBootAddr + size
  · rw [← Mem.agree_patched x (.inr inside)]
    obtain ⟨i, rfl⟩ := Nat.exists_eq_add_of_le inside.1
    have lt : i < size := by omega
    have upload : h.Known n size (h.uploadAddr + i) := ⟨by omega, by omega⟩
    rw [h.moved_inside lt, h.moved_inside lt, ← Mem.agree_patched _ (.inl upload)]
  · rw [h.moved_outside inside, Mem.patched, Mem.patched, h.moved_outside inside, Mem.write, Mem.write,
      h.moved_outside inside]

lemma known_patched : Mem.Agree (h.Known n size) m (Mem.patched (h.BootKnown n size) m a bs) :=
  fun x known => Mem.agree_patched x (.inl known)

lemma bootSettled_of_ignored (ignored : h.StaleIgnored n size .initramfs m) :
    h.BootSettled n size (h.moved size m) := by
  by_contra unsettled
  rw [BootSettled, not_or, not_or] at unsettled
  obtain ⟨same, uncertain, rest⟩ := unsettled
  have lengths : flasMagic.length = 4 ∧ fitMagic.length = 4 := ⟨length_toLe 4 _, length_toLe 4 _⟩
  -- a FIT image: no "Flas", and the magic number completed
  let m₀ := Mem.spoiled (h.BootKnown n size) m (h.ramBootAddr + 0x5c) flasMagic
  let m₁ := Mem.patched (h.BootKnown n size) m₀ h.ramBootAddr fitMagic
  have agree₁ : Mem.Agree (h.Known n size) m m₁ := fun x known =>
    (h.known_patched x known).trans (h.known_patched x known)
  have fit : checkFwType (h.moved size m₁) h.ramBootAddr = some .fit := by
    have agree₀ : Mem.Agree (h.BootKnown n size) (h.moved size m) (h.moved size m₀) := h.agree_moved h.known_patched
    have moved₀ : h.moved size m₀ = Mem.spoiled (h.BootKnown n size) (h.moved size m) (h.ramBootAddr + 0x5c) flasMagic :=
      h.moved_patched
    rw [checkFwType_fit_iff, h.moved_patched]
    refine ⟨?_, Mem.read_patched (mt agree₀.differs.mpr same)⟩
    rw [Mem.read_patched_outside (by omega)]
    by_cases covered : Mem.Covered (h.BootKnown n size) (h.ramBootAddr + 0x5c) flasMagic.length
    · have differs : Mem.Differs (h.BootKnown n size) (h.moved size m) (h.ramBootAddr + 0x5c) flasMagic := by
        by_contra same
        exact uncertain ⟨same, covered⟩
      exact differs.read_ne agree₀
    · rw [moved₀]
      exact Mem.read_spoiled covered
  -- no FIT image: the magic number spoiled if it can be, or else "Flas" completed
  obtain ⟨m₂, agree₂, noFit⟩ : ∃ m₂, Mem.Agree (h.Known n size) m m₂ ∧
      checkFwType (h.moved size m₂) h.ramBootAddr ≠ some .fit := by
    by_cases covered : Mem.Covered (h.BootKnown n size) h.ramBootAddr fitMagic.length
    · have sameFlas : ¬ Mem.Differs (h.BootKnown n size) (h.moved size m) (h.ramBootAddr + 0x5c) flasMagic :=
        fun differs => rest ⟨⟨same, covered⟩, differs⟩
      refine ⟨Mem.patched (h.BootKnown n size) m (h.ramBootAddr + 0x5c) flasMagic, h.known_patched, ?_⟩
      rw [Ne, checkFwType_fit_iff, h.moved_patched]
      exact fun fit => fit.1 (Mem.read_patched sameFlas)
    · refine ⟨Mem.spoiled (h.BootKnown n size) m h.ramBootAddr fitMagic, h.known_patched, ?_⟩
      have moved : h.moved size (Mem.spoiled (h.BootKnown n size) m h.ramBootAddr fitMagic) =
          Mem.spoiled (h.BootKnown n size) (h.moved size m) h.ramBootAddr fitMagic := h.moved_patched
      rw [Ne, checkFwType_fit_iff, moved]
      exact fun fit => Mem.read_spoiled covered fit.2
  have asks : ∃ words next, h.doHttpUpgrade size .initramfs m₁ = .ask (.line words) next := by
    rw [doHttpUpgrade, doInitramfsBoot, if_neg (not_not.mpr fit)]
    exact ⟨_, _, rfl⟩
  have refuses : h.doHttpUpgrade size .initramfs m₂ = .done false := by
    rw [doHttpUpgrade, doInitramfsBoot, if_pos noFit]
  exact h.not_ignored agree₁ agree₂ asks refuses ignored

/-- What is left in RAM behind the upload is ignored exactly if it does not complete a probe that decides. -/
theorem stale_ignored_iff (h : Host) (n size : Nat) (type : UpgradeType) (m : Mem) (prefilled : 0x4004 ≤ n) :
    h.StaleIgnored n size type m ↔ h.Settled n size type m := by
  constructor
  · intro ignored
    cases type
    case firmware => exact fun emmc fit => h.fitSettled_of_ignored prefilled emmc fit ignored
    case initramfs => exact h.bootSettled_of_ignored ignored
    all_goals trivial
  · intro settled m' agree σ σ' sh sh' R alike e e' related _ _
    rw [h.upgrade_congr prefilled agree settled]
    exact alike.commands (h.readsBack_upgrade type) related

end Host

theorem stale_ignored_tar : complete.StaleIgnored 0x4004 0x800 .firmware tarUploaded.world.ram := by
  refine (Host.stale_ignored_iff complete 0x4004 0x800 .firmware tarUploaded.world.ram (Nat.le_refl _)).mpr ?_
  intro _ fit
  rw [show complete.uploadAddr = 0x4B000000 from rfl, tarUploaded_type] at fit
  cases fit

def fitHost : Host := largeHost [some ⟨hlosName, 64, 4159⟩, some ⟨rootfsName, 4160, 4160⟩]

def cutUpload (behind : UInt8) : Mem :=
  (Mem.write (fun _ => 0) 0x4B000000 Host.fitMagic).write 0x4B200000 (bytes "hsq" ++ [behind])

lemma cutUpload_agree : Mem.Agree (fitHost.Known 0x80000 0x200003) (cutUpload 0x73) (cutUpload 0) := by
  rintro x ⟨-, below⟩
  replace below : x < 0x4B200003 := below
  by_cases lt : x < 0x4B200000
  · rw [cutUpload, cutUpload, Mem.write_outside (.inl lt), Mem.write_outside (.inl lt)]
  · obtain ⟨i, rfl⟩ := Nat.exists_eq_add_of_le (Nat.not_lt.mp lt)
    have small : i = 0 ∨ i = 1 ∨ i = 2 := by omega
    rcases small with rfl | rfl | rfl <;> rfl

/-- A byte that was left in RAM completes "hsqs", and the image is flashed in place of being refused. -/
theorem stale_completes_hsqs :
    let commands := fun m => Host.refuser.commands (fitHost.doHttpUpgrade 0x200003 .firmware m) m
    commands (cutUpload 0x73) = [bytes "flash 0:HLOS 0x4b000000 0x200000 && flash rootfs 0x4b200000 0x3"] ∧
    commands (cutUpload 0) = [] ∧ ¬ fitHost.StaleIgnored 0x80000 0x200003 .firmware (cutUpload 0x73) := by
  intro commands
  have flashed : commands (cutUpload 0x73) =
      [bytes "flash 0:HLOS 0x4b000000 0x200000 && flash rootfs 0x4b200000 0x3"] := by decide
  have refused : commands (cutUpload 0) = [] := by decide
  refine ⟨flashed, refused, fun ignored => ?_⟩
  have same : commands (cutUpload 0x73) = commands (cutUpload 0) := ignored.refuser cutUpload_agree
  rw [flashed, refused] at same
  cases same

end ResQBoot.Upgrade
