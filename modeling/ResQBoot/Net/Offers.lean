import ResQBoot.Net.Acks

/-!
# The address behind an OFFER

While no lease runs out the two loops of `dhcpd_alloc_ip` find an address whenever the pool has a free one. The dispatcher
also offers when nothing has been found, and after a lease has lapsed.
-/

namespace ResQBoot.Net

variable {i : Fin maxLeases}

/-! ### The leases that have not run out -/

/-- The lease is in use and has not run out at the reading `now`. -/
def Live (now : UInt32) (l : Lease) : Prop :=
  l.used = true ∧ ¬ (l.leaseTime ≠ 0 ∧ now - l.leaseStart > l.leaseTime)

instance (now : UInt32) (l : Lease) : Decidable (Live now l) := inferInstanceAs (Decidable (_ ∧ _))

/-- No lease of the table runs out between the readings of the clock. -/
def Steady (clock : Nat → UInt32) (now : UInt32) (t : Leases) : Prop :=
  ∀ n i, Live (clock n) (t i) ↔ Live now (t i)

/-- The lease as `dhcpd_expire_leases` leaves it. -/
def current (now : UInt32) (l : Lease) : Lease := if Live now l then l else { l with used := false }

section Still

variable {clock : Nat → UInt32} {now : UInt32} {cfg : SvrCfg} {mac : Bytes} {ip a : UInt32} {s s' : Dhcpd} {n : Nat}
  {t t' : Leases}

lemma current_live {l : Lease} (alive : Live now l) : current now l = l := if_pos alive

lemma current_unused {l : Lease} (unused : l.used = false) : current now l = l := by
  rw [current, if_neg (by simp [Live, unused]), ← unused]

lemma current_used (l : Lease) : (current now l).used = true ↔ Live now l := by
  rw [current]
  split
  · rename_i alive
    exact ⟨fun _ => alive, And.left⟩
  · rename_i dead
    exact ⟨fun used => absurd used Bool.false_ne_true, fun alive => absurd alive dead⟩

lemma current_ipAddr (l : Lease) : (current now l).ipAddr = l.ipAddr := by
  rw [current]
  split <;> rfl

lemma current_current (l : Lease) : current now (current now l) = current now l := by
  by_cases alive : Live now l
  · rw [current_live alive, current_live alive]
  · exact current_unused (by rw [current, if_neg alive])

lemma expireOne_still (s : Dhcpd) (i : Fin maxLeases) (steady : ∀ n, Live (clock n) (s.leases i) ↔ Live now (s.leases i)) :
    (expireOne clock s i).leases = Function.update s.leases i (current now (s.leases i)) := by
  have same (eq : current now (s.leases i) = s.leases i) :
      s.leases = Function.update s.leases i (current now (s.leases i)) := by
    rw [eq, Function.update_eq_self]
  rw [expireOne]
  split
  · rename_i timed
    simp only [Bool.and_eq_true, decide_eq_true_eq] at timed
    by_cases late : (getTimer clock (s.leases i).leaseStart s).1 > (s.leases i).leaseTime
    · have dead : ¬ Live now (s.leases i) := fun alive => ((steady s.ticks).mpr alive).2 ⟨timed.2, late⟩
      simp only [late, if_true, current, if_neg dead]
      rfl
    · simp only [late, if_false]
      exact same (current_live ((steady s.ticks).mp ⟨timed.1, fun both => late both.2⟩))
  · rename_i untimed
    simp only [Bool.and_eq_true, decide_eq_true_eq] at untimed
    cases used : (s.leases i).used with
    | false => exact same (current_unused used)
    | true => exact same (current_live ⟨used, fun both => untimed ⟨used, both.1⟩⟩)

/-- The table as `dhcpd_expire_leases` leaves it. -/
def live (now : UInt32) (t : Leases) : Leases := fun i => current now (t i)

lemma live_live (t : Leases) : live now (live now t) = live now t := funext fun _ => current_current _

lemma Live.of_live (i : Fin maxLeases) : Live now (live now t i) ↔ Live now (t i) := by
  rw [← current_used, live, current_current, current_used]

lemma Steady.live (steady : Steady clock now t) : Steady clock now (live now t) := by
  intro n i
  rw [Live.of_live]
  by_cases alive : Live now (t i)
  · rw [ResQBoot.Net.live, current_live alive]
    exact steady n i
  · refine iff_of_false (fun other => ?_) alive
    exact alive ((current_used _).mp other.1)

lemma dhcpdExpireLeases_still (steady : Steady clock now s.leases) :
    (dhcpdExpireLeases clock s).leases = live now s.leases := by
  have fold : ∀ (slots : List (Fin maxLeases)) (s : Dhcpd) (j : Fin maxLeases),
      Steady clock now s.leases → (slots.foldl (expireOne clock) s).leases j =
        if j ∈ slots then current now (s.leases j) else s.leases j := by
    intro slots
    induction slots with
    | nil => exact fun s j _ => (if_neg List.not_mem_nil).symm
    | cons i slots ih =>
      intro s j steady
      have next := expireOne_still s i (steady · i)
      have steady' : Steady clock now (expireOne clock s i).leases := by
        intro n k
        rw [next]
        by_cases same : k = i
        · subst same
          rw [Function.update_self]
          exact steady.live n k
        · rw [Function.update_of_ne same]
          exact steady n k
      rw [List.foldl_cons, ih _ j steady', next]
      by_cases same : j = i
      · subst same
        simp [current_current]
      · simp [same]
  delta dhcpdExpireLeases
  funext j
  rw [fold _ s j steady, if_pos (List.mem_finRange j)]
  rfl

/-- The table after some of the passes over it. -/
structure Aged (clock : Nat → UInt32) (now : UInt32) (t t' : Leases) : Prop where
  steady : Steady clock now t'
  same : live now t' = live now t

lemma Aged.refl (steady : Steady clock now t) : Aged clock now t t := ⟨steady, rfl⟩

lemma Aged.trans {t'' : Leases} (aged : Aged clock now t t') (later : Aged clock now t' t'') : Aged clock now t t'' :=
  ⟨later.steady, later.same.trans aged.same⟩

lemma Aged.live_iff (aged : Aged clock now t t') (i : Fin maxLeases) : Live now (t' i) ↔ Live now (t i) := by
  rw [← current_used, ← current_used, show current now (t' i) = current now (t i) from congrFun aged.same i]

lemma Aged.slot (aged : Aged clock now t t') (alive : Live now (t i)) : t' i = t i := by
  have eq := congrFun aged.same i
  rwa [live, live, current_live alive, current_live ((aged.live_iff i).mpr alive)] at eq

lemma dhcpdExpireLeases_aged (steady : Steady clock now s.leases) :
    Aged clock now s.leases (dhcpdExpireLeases clock s).leases := by
  rw [dhcpdExpireLeases_still steady]
  exact ⟨steady.live, live_live _⟩

lemma fewer_live (t : Leases) : Fewer t (live now t) := fun i used => current_live ((current_used (t i)).mp used)

lemma noIp_live : NoIp (live now t) ip ↔ ∀ i, Live now (t i) → (t i).ipAddr ≠ ip := by
  refine forall_congr' fun i => ?_
  rw [live, current_used, current_ipAddr]

/-! ### The search -/

section

variable (steady : Steady clock now s.leases)
include steady

lemma dhcpdIpIsAllocated_still {b : Bool}
    (test : dhcpdIpIsAllocated clock ip s = (b, s')) :
    Aged clock now s.leases s'.leases ∧ (b = true ↔ ¬ NoIp (live now s.leases) ip) := by
  have table := dhcpdExpireLeases_still steady
  obtain ⟨rfl, rfl⟩ := Prod.mk.inj test
  refine ⟨dhcpdExpireLeases_aged steady, ?_⟩
  simp [table, NoIp]

lemma findRandomIp_still {attempt : UInt32} :
    Aged clock now s.leases (findRandomIp clock cfg mac n attempt s).2.leases := by
  induction n generalizing attempt s with
  | zero => exact .refl steady
  | succ n ih =>
    simp only [findRandomIp, getTimer]
    split <;> rename_i s₁ test
    · exact (dhcpdIpIsAllocated_still (s := ⟨s.leases, s.ticks + 1⟩) steady test).1
    · have aged := (dhcpdIpIsAllocated_still (s := ⟨s.leases, s.ticks + 1⟩) steady test).1
      exact aged.trans (ih aged.steady)

lemma findLinearIp_still {currentIp : UInt32} :
    Aged clock now s.leases (findLinearIp clock cfg n currentIp s).2.leases := by
  induction n generalizing currentIp s with
  | zero => exact .refl steady
  | succ n ih =>
    rw [findLinearIp]
    split <;> rename_i s₁ test
    · exact (dhcpdIpIsAllocated_still steady test).1
    · have aged := (dhcpdIpIsAllocated_still steady test).1
      exact aged.trans (ih aged.steady)

lemma findLinearIp_none {currentIp : UInt32}
    (last : currentIp.toNat + n = cfg.endIp.toNat) (none : (findLinearIp clock cfg (n + 1) currentIp s).1 = none)
    (from_here : currentIp ≤ ip) (pool : ip ≤ cfg.endIp) : ¬ NoIp (live now s.leases) ip := by
  induction n generalizing currentIp s with
  | zero =>
    rw [findLinearIp] at none
    split at none
    · cases none
    rename_i s₁ test
    obtain rfl : currentIp = ip := by
      rw [UInt32.le_iff_toNat_le] at from_here pool
      exact UInt32.toNat_inj.mp (by omega)
    exact (dhcpdIpIsAllocated_still steady test).2.mp rfl
  | succ n ih =>
    rw [findLinearIp] at none
    split at none
    · cases none
    rename_i s₁ test
    obtain ⟨aged, taken⟩ := dhcpdIpIsAllocated_still steady test
    have high := cfg.endIp.toNat_lt
    have one : (1 : UInt32).toNat = 1 := rfl
    have next : (currentIp + 1).toNat = currentIp.toNat + 1 := by
      rw [UInt32.toNat_add, one, Nat.mod_eq_of_lt (by omega)]
    by_cases here : currentIp = ip
    · subst here
      exact taken.mp rfl
    rw [if_pos (UInt32.lt_iff_toNat_lt.mpr (by omega))] at none
    rw [← aged.same]
    refine ih aged.steady (by omega) none ?_
    have := mt UInt32.toNat_inj.mp here
    rw [UInt32.le_iff_toNat_le] at from_here ⊢
    omega

lemma dhcpdTryAllocateIp_still :
    (dhcpdTryAllocateIp clock mac ip s).1 = .ok a ↔ a = ip ∧ ∃ i, ¬ Live now (s.leases i) := by
  rw [dhcpdTryAllocateIp, dhcpdGetAvailableLeaseSlot]
  simp only [dhcpdExpireLeases_still steady]
  cases search : (List.finRange maxLeases).find? fun i => !(live now s.leases i).used with
  | some i =>
    have unused := List.find?_some search
    have dead : ¬ Live now (s.leases i) := by
      rw [← current_used]
      simpa [live] using unused
    exact ⟨fun same => ⟨(Except.ok.inj same).symm, i, dead⟩, fun ok => by rw [ok.1]⟩
  | none =>
    refine ⟨fun same => (by cases same), ?_⟩
    rintro ⟨-, i, dead⟩
    have used := find_none search i
    rw [← current_used] at dead
    exact absurd (by simpa [live] using used) dead

end

lemma poolSize (order : cfg.startIp ≤ cfg.endIp) (small : cfg.endIp.toNat - cfg.startIp.toNat + 1 < 2 ^ 31) :
    (cfg.endIp - cfg.startIp + 1).toNat = cfg.endIp.toNat - cfg.startIp.toNat + 1 := by
  have one : (1 : UInt32).toNat = 1 := rfl
  rw [UInt32.toNat_add, UInt32.toNat_sub_of_le _ _ order, one]
  exact Nat.mod_eq_of_lt (by omega)

lemma poolSize_int (order : cfg.startIp ≤ cfg.endIp) (small : cfg.endIp.toNat - cfg.startIp.toNat + 1 < 2 ^ 31) :
    (cfg.endIp - cfg.startIp + 1).toInt32.toInt.toNat = cfg.endIp.toNat - cfg.startIp.toNat + 1 := by
  have size := poolSize order small
  have low : 2 * (cfg.endIp - cfg.startIp + 1).toBitVec.toNat < 2 ^ 32 := by
    rw [UInt32.toNat_toBitVec]
    omega
  rw [← size]
  change (cfg.endIp - cfg.startIp + 1).toBitVec.toInt.toNat = _
  rw [BitVec.toInt_eq_toNat_of_lt low]
  rfl

/-- The allocation succeeds exactly if a slot and an address of the pool are free, and gives such an address. -/
def Allocates (now : UInt32) (cfg : SvrCfg) (t : Leases) (r : Except DhcpdErr UInt32) : Prop :=
  ((∃ a, r = .ok a) ↔ (∃ i, ¬ Live now (t i)) ∧ ∃ ip, dhcpdIpInPool cfg ip = true ∧ NoIp (live now t) ip) ∧
    ∀ a, r = .ok a → dhcpdIpInPool cfg a = true ∧ NoIp (live now t) a

lemma dhcpdTryAllocateIp_allocates (aged : Aged clock now t s.leases)
    (free : NoIp s.leases ip) (pool : cfg.startIp ≤ ip ∧ ip ≤ cfg.endIp) :
    Allocates now cfg t (dhcpdTryAllocateIp clock mac ip s).1 := by
  have inPool : dhcpdIpInPool cfg ip = true := by simpa [dhcpdIpInPool] using pool
  have free' : NoIp (live now t) ip := by
    rw [← aged.same]
    exact free.fewer (fewer_live _)
  constructor
  · constructor
    · rintro ⟨a, ok⟩
      obtain ⟨rfl, i, dead⟩ := (dhcpdTryAllocateIp_still aged.steady).mp ok
      exact ⟨⟨i, mt (aged.live_iff i).mpr dead⟩, a, inPool, free'⟩
    · rintro ⟨⟨i, dead⟩, -⟩
      exact ⟨ip, (dhcpdTryAllocateIp_still aged.steady).mpr ⟨rfl, i, mt (aged.live_iff i).mp dead⟩⟩
  · intro a ok
    obtain ⟨rfl, -⟩ := (dhcpdTryAllocateIp_still aged.steady).mp ok
    exact ⟨inPool, free'⟩

lemma dhcpdAllocIp_new (order : cfg.startIp ≤ cfg.endIp)
    (small : cfg.endIp.toNat - cfg.startIp.toNat + 1 < 2 ^ 31) (steady : Steady clock now s.leases)
    (new : NoMac s.leases mac) : Allocates now cfg s.leases (dhcpdAllocIp clock cfg mac s).1 := by
  have search : ((List.finRange maxLeases).find? fun i => (s.leases i).used && (s.leases i).macAddr = mac) = none := by
    rw [List.find?_eq_none]
    intro i _
    simpa using new i
  simp only [dhcpdAllocIp, search]
  generalize (if cfg.endIp - cfg.startIp + 1 < 100 then _ else 100 : Nat) = attempts
  cases random : findRandomIp clock cfg mac attempts 0 s with
  | mk o s₁ =>
    have aged : Aged clock now s.leases s₁.leases := by
      rw [show s₁ = _ from (congrArg Prod.snd random).symm]
      exact findRandomIp_still steady
    cases o with
    | some ip =>
      obtain ⟨free, pool⟩ := (findRandomIp_spec random).2 ip rfl
      exact dhcpdTryAllocateIp_allocates aged free (pool order)
    | none =>
      simp only [poolSize_int order small]
      cases linear : findLinearIp clock cfg (cfg.endIp.toNat - cfg.startIp.toNat + 1) cfg.startIp s₁ with
      | mk o s₂ =>
        have later : Aged clock now s.leases s₂.leases := by
          rw [show s₂ = _ from (congrArg Prod.snd linear).symm]
          exact aged.trans (findLinearIp_still aged.steady)
        cases o with
        | some ip =>
          obtain ⟨free, pool⟩ := (findLinearIp_spec order ⟨UInt32.le_refl _, order⟩ linear).2 ip rfl
          exact dhcpdTryAllocateIp_allocates later free pool
        | none =>
          refine ⟨⟨?_, ?_⟩, fun a ok => (by cases ok)⟩
          · rintro ⟨a, ok⟩
            cases ok
          rintro ⟨-, ip, pool, free⟩
          rw [dhcpdIpInPool, Bool.and_eq_true, decide_eq_true_eq, decide_eq_true_eq] at pool
          rw [← aged.same] at free
          have le := UInt32.le_iff_toNat_le.mp order
          exact absurd free
            (findLinearIp_none aged.steady (by omega) (congrArg Prod.fst linear) pool.1 pool.2)

end Still

/-- With a clock that stands still and a pool of less than 2³¹ addresses, `dhcpd_alloc_ip` never divides by zero.
It succeeds exactly if the client has a used lease, or there are a slot and a pool address that no unexpired
lease takes; the result is the address of that lease, or such a pool address. -/
theorem dhcpdAllocIp_complete (now : UInt32) (cfg : SvrCfg) (mac : Bytes) (s : Dhcpd)
    (order : cfg.startIp ≤ cfg.endIp) (small : cfg.endIp.toNat - cfg.startIp.toNat + 1 < 2 ^ 31) :
    let result := (dhcpdAllocIp (fun _ => now) cfg mac s).1
    cfg.endIp - cfg.startIp + 1 ≠ 0 ∧
    ((∃ a, result = .ok a) ↔ (∃ i, (s.leases i).used = true ∧ (s.leases i).macAddr = mac) ∨
      (∃ i, ¬ Live now (s.leases i)) ∧
        ∃ ip, dhcpdIpInPool cfg ip = true ∧ ∀ i, Live now (s.leases i) → (s.leases i).ipAddr ≠ ip) ∧
    ∀ a, result = .ok a → (∃ i, (s.leases i).used = true ∧ (s.leases i).macAddr = mac ∧ (s.leases i).ipAddr = a) ∨
      dhcpdIpInPool cfg a = true ∧ ∀ i, Live now (s.leases i) → (s.leases i).ipAddr ≠ a := by
  simp only [← noIp_live]
  refine ⟨fun zero => ?_, ?_⟩
  · have size := poolSize order small
    rw [zero] at size
    cases size
  by_cases known : ∃ i, (s.leases i).used = true ∧ (s.leases i).macAddr = mac
  · obtain ⟨i, used, own⟩ := known
    cases search : (List.finRange maxLeases).find? fun i => (s.leases i).used && (s.leases i).macAddr = mac with
    | none => simpa [used, own] using find_none search i
    | some j =>
      have found := List.find?_some search
      simp only [Bool.and_eq_true, decide_eq_true_eq] at found
      simp only [dhcpdAllocIp, search, getTimer]
      refine ⟨⟨fun _ => .inl ⟨i, used, own⟩, fun _ => ⟨_, rfl⟩⟩, fun a same => .inl ⟨j, found.1, found.2, ?_⟩⟩
      exact Except.ok.inj same
  · have new : NoMac s.leases mac := fun i used own => known ⟨i, used, own⟩
    obtain ⟨succeeds, gives⟩ : Allocates now cfg s.leases _ :=
      dhcpdAllocIp_new order small (fun _ _ => Iff.rfl) new
    exact ⟨succeeds.trans (or_iff_right known).symm, fun a ok => .inr (gives a ok)⟩

/-- A table whose first `n` slots hold the first `n` addresses of the pool of 192.168.1.1. -/
def leasedTable (n : Nat) : Dhcpd :=
  ⟨fun i => ⟨decide (i.val < n), [2, 0, 0, 0, 0, i.val.toUInt8], 0xC0A80102 + i.val.toUInt32, 0, leaseHour⟩, 0⟩

/-- One slot is left, and the first 31 addresses that the search tries are taken. -/
theorem dhcpdAllocIp_complete_crowded :
    let cfg := dhcpdIpSettings 0xC0A80101 0xFFFFFF00
    ∃ a, (dhcpdAllocIp (fun _ => 0) cfg [0, 0, 0, 0, 0, 0] (leasedTable 31)).1 = .ok a := by
  refine (dhcpdAllocIp_complete 0 _ [0, 0, 0, 0, 0, 0] (leasedTable 31) (by decide) (by decide)).2.1.mpr (.inr ?_)
  exact ⟨⟨⟨31, by decide⟩, by decide⟩, 0xC0A80121, by decide, by decide⟩

/-! ### Offers -/

def OffersReal (clock : Nat → UInt32) (cfg : SvrCfg) (s : Dhcpd) (pkt : Bytes) : Prop :=
  (∀ a, (dhcpdHandler clock cfg s pkt).1 = some (.offer a) →
    dhcpdIpInPool cfg a = true ∧ Leased (receive clock cfg s pkt).leases (chaddr pkt) a) ∧
  ∀ e, (dhcpdHandleDiscover clock cfg (chaddr pkt) s).1 = .error e → ∀ a,
    (dhcpdHandler clock cfg s pkt).1 ≠ some (.offer a)

section Offers

variable {clock : Nat → UInt32} {cfg : SvrCfg} {s : Dhcpd} {pkt : Bytes}

lemma offersReal_discover (discover : IsDiscover pkt) : OffersReal clock cfg s pkt ↔
      (∃ a, (dhcpdHandleDiscover clock cfg (chaddr pkt) s).1 = .ok a ∧ dhcpdIpInPool cfg a = true) ∧
        ¬ DiscoverLapses clock (chaddr pkt) s := by
  rw [OffersReal, receive, dhcpdHandler_discover discover]
  cases result : dhcpdHandleDiscover clock cfg (chaddr pkt) s with
  | mk found s' =>
    cases found with
    | error e =>
      refine ⟨fun real => absurd rfl (real.2 e rfl _), ?_⟩
      rintro ⟨⟨a, ok, -⟩, -⟩
      cases ok
    | ok a =>
      constructor
      · intro real
        obtain ⟨pool, leased⟩ := real.1 a rfl
        refine ⟨⟨a, rfl, pool⟩, fun lapses => ?_⟩
        rcases dhcpdHandleDiscover_granted result with ⟨-, kept⟩ | ⟨none, -⟩
        · exact kept lapses
        · exact none.not_leased leased
      · rintro ⟨⟨a', same, pool⟩, kept⟩
        cases same
        refine ⟨fun b same => ?_, fun e none => (by cases none)⟩
        cases same
        rcases dhcpdHandleDiscover_granted result with ⟨leased, -⟩ | ⟨-, lapses⟩
        · exact ⟨pool, leased⟩
        · exact absurd lapses kept

/-- The first slot whose live lease the client holds. -/
def clientLease (now : UInt32) (t : Leases) (mac : Bytes) : Option (Fin maxLeases) :=
  (List.finRange maxLeases).find? fun i => decide (Live now (t i)) && (t i).macAddr = mac

/-- The live lease of the client is for an address of the pool; a client without one finds a slot and an address of the
pool that no live lease takes. -/
def CanOffer (now : UInt32) (cfg : SvrCfg) (t : Leases) (mac : Bytes) : Prop :=
  match clientLease now t mac with
  | some i => dhcpdIpInPool cfg (t i).ipAddr = true
  | none => (∃ i, ¬ Live now (t i)) ∧
      ∃ ip, dhcpdIpInPool cfg ip = true ∧ ∀ i, Live now (t i) → (t i).ipAddr ≠ ip

lemma dhcpdFindLease_still (steady : Steady clock now s.leases) :
    (dhcpdFindLease clock mac s).1 = clientLease now s.leases mac := by
  simp only [dhcpdFindLease, clientLease, dhcpdExpireLeases_still steady]
  congr 1
  funext i
  by_cases alive : Live now (s.leases i)
  · simp [live, current_live alive, alive, alive.1]
  · have dead : (current now (s.leases i)).used ≠ true := mt (current_used _).mp alive
    simp [live, alive, dead]

lemma ipTaken_own (steady : Steady clock now s.leases) (alive : Live now (s.leases i))
    (client : (s.leases i).macAddr = mac) :
    dhcpdIpIsAllocated clock (s.leases i).ipAddr s = (true, dhcpdExpireLeases clock s) ∧
      ipTaken clock (s.leases i).ipAddr mac s = (false, dhcpdExpireLeases clock (dhcpdExpireLeases clock s)) := by
  have aged := dhcpdExpireLeases_aged steady
  have later := aged.trans (dhcpdExpireLeases_aged aged.steady)
  have first : dhcpdIpIsAllocated clock (s.leases i).ipAddr s = (true, dhcpdExpireLeases clock s) := by
    refine Prod.ext (List.any_eq_true.mpr ⟨i, List.mem_finRange i, ?_⟩) rfl
    simp [aged.slot alive, alive.1]
  refine ⟨first, ?_⟩
  simp only [ipTaken, first, dhcpdIpAllocatedToMac]
  rw [List.any_eq_true.mpr ⟨i, List.mem_finRange i, by simp [later.slot alive, alive.1, client]⟩]
  rfl

lemma discover_held (cfg : SvrCfg) (steady : Steady clock now s.leases)
    (held : clientLease now s.leases mac = some i) :
    (dhcpdHandleDiscover clock cfg mac s).1 = .ok (s.leases i).ipAddr ∧ ¬ DiscoverLapses clock mac s := by
  have found := List.find?_some held
  simp only [Bool.and_eq_true, decide_eq_true_eq] at found
  have find : dhcpdFindLease clock mac s = (some i, dhcpdExpireLeases clock s) :=
    Prod.ext ((dhcpdFindLease_still steady).trans held) rfl
  have aged := dhcpdExpireLeases_aged steady
  have slot := aged.slot found.1
  have alive := (aged.live_iff i).mpr found.1
  obtain ⟨allocated, own⟩ := ipTaken_own aged.steady alive (slot.symm ▸ found.2)
  constructor
  · have later := aged.trans ((dhcpdExpireLeases_aged aged.steady).trans
      (dhcpdExpireLeases_aged (dhcpdExpireLeases_aged aged.steady).steady))
    simp only [dhcpdHandleDiscover, find, own, Bool.false_eq_true, if_false, later.slot found.1]
  · rintro ⟨j, s₁, s₂, find', free⟩
    cases find.symm.trans find'
    cases allocated.symm.trans free

lemma discover_new (small : cfg.endIp.toNat - cfg.startIp.toNat + 1 < 2 ^ 31) (steady : Steady clock now s.leases)
    (new : clientLease now s.leases mac = none) :
    ((∃ a, (dhcpdHandleDiscover clock cfg mac s).1 = .ok a ∧ dhcpdIpInPool cfg a = true) ↔
      (∃ i, ¬ Live now (s.leases i)) ∧ ∃ ip, dhcpdIpInPool cfg ip = true ∧
        ∀ i, Live now (s.leases i) → (s.leases i).ipAddr ≠ ip) ∧ ¬ DiscoverLapses clock mac s := by
  have find : dhcpdFindLease clock mac s = (none, dhcpdExpireLeases clock s) :=
    Prod.ext ((dhcpdFindLease_still steady).trans new) rfl
  refine ⟨?_, ?_⟩
  · by_cases order : cfg.startIp ≤ cfg.endIp
    · have aged := dhcpdExpireLeases_aged steady
      obtain ⟨succeeds, gives⟩ : Allocates now cfg (dhcpdExpireLeases clock s).leases _ :=
        dhcpdAllocIp_new order small aged.steady (dhcpdFindLease_none find).2
      simp only [aged.live_iff, aged.same, noIp_live] at succeeds
      simp only [dhcpdHandleDiscover, find]
      rw [← succeeds]
      exact exists_congr fun a => and_iff_left_of_imp fun ok => (gives a ok).1
    · -- An inverted pool has no address.
      have none (a : UInt32) : ¬ dhcpdIpInPool cfg a = true := by
        simp only [dhcpdIpInPool, Bool.and_eq_true, decide_eq_true_eq]
        exact fun pool => order (UInt32.le_trans pool.1 pool.2)
      simp [none]
  · rintro ⟨i, s₁, s₂, find', -⟩
    cases find.symm.trans find'

end Offers
/-- While no lease runs out, the OFFERs for a packet are real exactly if the packet is no DISCOVER, or the client holds
a live lease of an address of the pool, or it holds none and a slot and an address of the pool are free. A lease that
runs out between two readings of one DISCOVER is offered although nobody holds it. -/
theorem offers_real_iff (clock : Nat → UInt32) (cfg : SvrCfg) (s : Dhcpd) (pkt : Bytes) :
    (∀ now, Steady clock now s.leases → cfg.endIp.toNat - cfg.startIp.toNat + 1 < 2 ^ 31 →
      (OffersReal clock cfg s pkt ↔ (IsDiscover pkt → CanOffer now cfg s.leases (chaddr pkt)))) ∧
    (IsDiscover pkt → DiscoverLapses clock (chaddr pkt) s → ¬ OffersReal clock cfg s pkt) := by
  refine ⟨fun now steady small => ?_, fun discover lapses real => ((offersReal_discover discover).mp real).2 lapses⟩
  by_cases discover : IsDiscover pkt
  · simp only [discover, true_implies, offersReal_discover discover, CanOffer]
    cases held : clientLease now s.leases (chaddr pkt) with
    | some i =>
      obtain ⟨ok, kept⟩ := discover_held cfg steady held
      simp [ok, kept]
    | none =>
      obtain ⟨found, kept⟩ := discover_new small steady held
      exact (and_iff_left kept).trans found
  · have silent (a : UInt32) : (dhcpdHandler clock cfg s pkt).1 ≠ some (.offer a) :=
      fun offer => discover (dhcpdHandler_offer (Prod.ext offer rfl))
    have real : OffersReal clock cfg s pkt := ⟨fun a offer => absurd offer (silent a), fun _ _ => silent⟩
    simp [real, discover]

/-- The table is full, and the DISCOVER of a new client is answered by an OFFER of 0.0.0.0. -/
theorem offer_without_lease :
    let cfg := dhcpdIpSettings 0xC0A80101 0xFFFFFF00
    (dhcpdHandler (fun _ => 0) cfg (leasedTable 32) discoverPacket).1 = some (.offer 0) ∧ dhcpdIpInPool cfg 0 = false := by
  decide +kernel

end ResQBoot.Net
