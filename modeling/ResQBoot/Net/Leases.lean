import ResQBoot.Net.Dhcpd

/-!
# The invariant of the lease table

`Sound` is kept by every packet, whatever the clock does between two of its readings, as long as the settings give a pool
at all (`Pooled`).
-/

namespace ResQBoot.Net

variable {i : Fin maxLeases}

def Fewer (t t' : Leases) : Prop := ∀ i, (t' i).used = true → t' i = t i

lemma Fewer.refl (t : Leases) : Fewer t t := fun _ _ => rfl

variable {t t' : Leases}

lemma Fewer.trans {t'' : Leases} (h : Fewer t t') (h' : Fewer t' t'') : Fewer t t'' := by
  intro i used
  have eq := h' i used
  rw [eq] at used ⊢
  exact h i used

lemma Fewer.drop (t : Leases) (i : Fin maxLeases) {l : Lease} (unused : l.used = false) :
    Fewer t (Function.update t i l) := by
  intro j used
  by_cases same : j = i
  · subst same
    rw [Function.update_self, unused] at used
    cases used
  · exact Function.update_of_ne same _ _

def NoMac (t : Leases) (mac : Bytes) : Prop := ∀ i, (t i).used = true → (t i).macAddr ≠ mac

def NoIp (t : Leases) (ip : UInt32) : Prop := ∀ i, (t i).used = true → (t i).ipAddr ≠ ip

lemma NoMac.fewer {mac : Bytes} (none : NoMac t mac) (fewer : Fewer t t') :
    NoMac t' mac := by
  intro i used
  have eq := fewer i used
  rw [eq] at used ⊢
  exact none i used

lemma NoIp.fewer {ip : UInt32} (none : NoIp t ip) (fewer : Fewer t t') :
    NoIp t' ip := by
  intro i used
  have eq := fewer i used
  rw [eq] at used ⊢
  exact none i used

structure Sound (cfg : SvrCfg) (t : Leases) : Prop where
  ips : ∀ i j, (t i).used = true → (t j).used = true → (t i).ipAddr = (t j).ipAddr → i = j
  macs : ∀ i j, (t i).used = true → (t j).used = true → (t i).macAddr = (t j).macAddr → i = j
  pool : ∀ i, (t i).used = true → cfg.startIp ≤ (t i).ipAddr ∧ (t i).ipAddr ≤ cfg.endIp

section Table

variable {cfg : SvrCfg} {t t' : Leases}

lemma Sound.fewer (sound : Sound cfg t) (fewer : Fewer t t') : Sound cfg t' where
  ips i j hi hj eq := by
    have ei := fewer i hi
    have ej := fewer j hj
    rw [ei] at hi eq
    rw [ej] at hj eq
    exact sound.ips i j hi hj eq
  macs i j hi hj eq := by
    have ei := fewer i hi
    have ej := fewer j hj
    rw [ei] at hi eq
    rw [ej] at hj eq
    exact sound.macs i j hi hj eq
  pool i hi := by
    have ei := fewer i hi
    rw [ei] at hi ⊢
    exact sound.pool i hi

variable {l : Lease}

lemma Sound.place (sound : Sound cfg t)
    (mac : ∀ j, j ≠ i → (t j).used = true → (t j).macAddr ≠ l.macAddr)
    (ip : ∀ j, j ≠ i → (t j).used = true → (t j).ipAddr ≠ l.ipAddr)
    (pool : cfg.startIp ≤ l.ipAddr ∧ l.ipAddr ≤ cfg.endIp) :
    Sound cfg (Function.update t i l) := by
  have cases_of : ∀ j, (j = i ∧ Function.update t i l j = l) ∨ (j ≠ i ∧ Function.update t i l j = t j) := by
    intro j
    by_cases same : j = i
    · exact .inl ⟨same, by rw [same, Function.update_self]⟩
    · exact .inr ⟨same, Function.update_of_ne same _ _⟩
  constructor
  · intro j k hj hk eq
    rcases cases_of j with ⟨rfl, ej⟩ | ⟨nj, ej⟩ <;> rcases cases_of k with ⟨rfl, ek⟩ | ⟨nk, ek⟩
    · rfl
    · rw [ek] at hk
      rw [ej, ek] at eq
      exact absurd eq.symm (ip k nk hk)
    · rw [ej] at hj
      rw [ej, ek] at eq
      exact absurd eq (ip j nj hj)
    · rw [ej] at hj eq
      rw [ek] at hk eq
      exact sound.ips j k hj hk eq
  · intro j k hj hk eq
    rcases cases_of j with ⟨rfl, ej⟩ | ⟨nj, ej⟩ <;> rcases cases_of k with ⟨rfl, ek⟩ | ⟨nk, ek⟩
    · rfl
    · rw [ek] at hk
      rw [ej, ek] at eq
      exact absurd eq.symm (mac k nk hk)
    · rw [ej] at hj
      rw [ej, ek] at eq
      exact absurd eq (mac j nj hj)
    · rw [ej] at hj eq
      rw [ek] at hk eq
      exact sound.macs j k hj hk eq
  · intro j hj
    rcases cases_of j with ⟨rfl, ej⟩ | ⟨nj, ej⟩
    · rw [ej]
      exact pool
    · rw [ej] at hj ⊢
      exact sound.pool j hj

lemma Sound.place_new (sound : Sound cfg t) (mac : NoMac t l.macAddr) (ip : NoIp t l.ipAddr)
    (pool : cfg.startIp ≤ l.ipAddr ∧ l.ipAddr ≤ cfg.endIp) :
    Sound cfg (Function.update t i l) :=
  sound.place (fun j _ => mac j) (fun j _ => ip j) pool

end Table

section Helpers

variable {clock : Nat → UInt32} {cfg : SvrCfg} {mac : Bytes} {ip : UInt32} {s s' : Dhcpd}

lemma expireOne_fewer (s : Dhcpd) (i : Fin maxLeases) : Fewer s.leases (expireOne clock s i).leases := by
  rw [expireOne]
  split
  · by_cases late : (getTimer clock (s.leases i).leaseStart s).1 > (s.leases i).leaseTime
    · simp only [late, if_true]
      exact Fewer.drop _ i rfl
    · simp only [late, if_false]
      exact Fewer.refl _
  · exact Fewer.refl _

lemma expire_fewer (slots : List (Fin maxLeases)) :
    ∀ s : Dhcpd, Fewer s.leases (slots.foldl (expireOne clock) s).leases := by
  induction slots with
  | nil => exact fun s => Fewer.refl _
  | cons i slots ih => exact fun s => (expireOne_fewer s i).trans (ih _)

lemma dhcpdExpireLeases_fewer (s : Dhcpd) : Fewer s.leases (dhcpdExpireLeases clock s).leases := by
  delta dhcpdExpireLeases
  exact expire_fewer _ s

lemma find_none {p : Fin maxLeases → Bool} (none : (List.finRange maxLeases).find? p = none)
    (i : Fin maxLeases) : p i = false := by
  simpa using List.find?_eq_none.mp none i (List.mem_finRange i)

lemma dhcpdFindLease_none (eq : dhcpdFindLease clock mac s = (none, s')) :
    Fewer s.leases s'.leases ∧ NoMac s'.leases mac := by
  obtain ⟨search, rfl⟩ := Prod.mk.inj eq
  refine ⟨dhcpdExpireLeases_fewer s, fun i used same => ?_⟩
  have := find_none search i
  simp [used, same] at this

lemma dhcpdFindLease_some (eq : dhcpdFindLease clock mac s = (some i, s')) :
    Fewer s.leases s'.leases ∧ (s'.leases i).macAddr = mac := by
  obtain ⟨search, rfl⟩ := Prod.mk.inj eq
  refine ⟨dhcpdExpireLeases_fewer s, ?_⟩
  have := List.find?_some search
  simp only [Bool.and_eq_true, decide_eq_true_eq] at this
  exact this.2

variable {b taken : Bool} {pkt : Bytes} {n : Nat} {o : Option UInt32}

lemma dhcpdIpIsAllocated_fewer (eq : dhcpdIpIsAllocated clock ip s = (b, s')) : Fewer s.leases s'.leases := by
  obtain ⟨-, rfl⟩ := Prod.mk.inj eq
  exact dhcpdExpireLeases_fewer s

lemma dhcpdIpIsAllocated_false (eq : dhcpdIpIsAllocated clock ip s = (false, s')) : NoIp s'.leases ip := by
  obtain ⟨search, rfl⟩ := Prod.mk.inj eq
  intro i used same
  have := List.any_eq_false.mp search i (List.mem_finRange i)
  simp [used, same] at this

lemma dhcpdIpAllocatedToMac_fewer (eq : dhcpdIpAllocatedToMac clock ip mac s = (b, s')) : Fewer s.leases s'.leases := by
  obtain ⟨-, rfl⟩ := Prod.mk.inj eq
  exact dhcpdExpireLeases_fewer s

lemma dhcpdIpAllocatedToMac_true (eq : dhcpdIpAllocatedToMac clock ip mac s = (true, s')) :
    ∃ i, (s'.leases i).used = true ∧ (s'.leases i).ipAddr = ip ∧ (s'.leases i).macAddr = mac := by
  obtain ⟨search, rfl⟩ := Prod.mk.inj eq
  obtain ⟨i, -, found⟩ := List.any_eq_true.mp search
  simp only [Bool.and_eq_true, decide_eq_true_eq] at found
  exact ⟨i, found.1.1, found.1.2, found.2⟩

lemma dhcpdGetAvailableLeaseSlot_fewer {o : Option (Fin maxLeases)}
    (eq : dhcpdGetAvailableLeaseSlot clock s = (o, s')) : Fewer s.leases s'.leases := by
  obtain ⟨-, rfl⟩ := Prod.mk.inj eq
  exact dhcpdExpireLeases_fewer s

section

variable (sound : Sound cfg s.leases) (new : NoMac s.leases mac) (free : NoIp s.leases ip) (pool : cfg.startIp ≤ ip ∧ ip ≤ cfg.endIp)
include sound new free pool

lemma dhcpdCreateLease_sound :
    Sound cfg (dhcpdCreateLease clock mac ip i s).leases := by
  exact sound.place_new (l := ⟨true, mac, ip, (getTimer clock 0 s).1, leaseHour⟩) new free pool

lemma dhcpdTryAllocateIp_sound :
    Sound cfg (dhcpdTryAllocateIp clock mac ip s).2.leases := by
  rw [dhcpdTryAllocateIp]
  split
  · rename_i i s₁ eq
    have fewer := dhcpdGetAvailableLeaseSlot_fewer eq
    exact dhcpdCreateLease_sound (sound.fewer fewer) (new.fewer fewer) (free.fewer fewer) pool
  · rename_i s₁ eq
    exact sound.fewer (dhcpdGetAvailableLeaseSlot_fewer eq)

end

def Pooled (cfg : SvrCfg) : Prop := cfg.startIp ≤ cfg.endIp ∨ cfg.endIp - cfg.startIp + 1 = 0

instance (cfg : SvrCfg) : Decidable (Pooled cfg) := inferInstanceAs (Decidable (_ ∨ _))

lemma randomIp_inPool (order : cfg.startIp ≤ cfg.endIp) (seed : UInt32) :
    cfg.startIp ≤ cfg.startIp + seed % (cfg.endIp - cfg.startIp + 1) ∧
      cfg.startIp + seed % (cfg.endIp - cfg.startIp + 1) ≤ cfg.endIp := by
  have le := UInt32.le_iff_toNat_le.mp order
  have lo := cfg.startIp.toNat_lt
  have hi := cfg.endIp.toNat_lt
  have sub : (cfg.endIp - cfg.startIp).toNat = cfg.endIp.toNat - cfg.startIp.toNat :=
    UInt32.toNat_sub_of_le _ _ order
  have one : (1 : UInt32).toNat = 1 := rfl
  rw [UInt32.le_iff_toNat_le, UInt32.le_iff_toNat_le, UInt32.toNat_add, UInt32.toNat_mod, UInt32.toNat_add, sub, one]
  by_cases whole : cfg.endIp.toNat - cfg.startIp.toNat + 1 = 2 ^ 32
  · -- The pool is the whole address space.
    have := (cfg.startIp.toNat + seed.toNat % ((cfg.endIp.toNat - cfg.startIp.toNat + 1) % 2 ^ 32)).mod_lt
      (Nat.two_pow_pos 32)
    omega
  · rw [Nat.mod_eq_of_lt (a := cfg.endIp.toNat - cfg.startIp.toNat + 1) (by omega)]
    have := Nat.mod_lt seed.toNat (show 0 < cfg.endIp.toNat - cfg.startIp.toNat + 1 by omega)
    rw [Nat.mod_eq_of_lt (by omega)]
    omega

lemma findRandomIp_spec {attempt : UInt32} : ∀ {s : Dhcpd}, findRandomIp clock cfg mac n attempt s = (o, s') →
      Fewer s.leases s'.leases ∧ ∀ ip, o = some ip → NoIp s'.leases ip ∧
        (cfg.startIp ≤ cfg.endIp → cfg.startIp ≤ ip ∧ ip ≤ cfg.endIp) := by
  induction n generalizing attempt with
  | zero =>
    intro s eq
    obtain ⟨rfl, rfl⟩ := Prod.mk.inj eq
    exact ⟨Fewer.refl _, by rintro _ ⟨⟩⟩
  | succ n ih =>
    intro s eq
    simp only [findRandomIp, getTimer] at eq
    split at eq
    · rename_i s₁ test
      obtain ⟨rfl, rfl⟩ := Prod.mk.inj eq
      have fewer := dhcpdIpIsAllocated_fewer test
      refine ⟨fewer, ?_⟩
      rintro _ ⟨⟩
      exact ⟨dhcpdIpIsAllocated_false test, fun order => randomIp_inPool order _⟩
    · rename_i s₁ test
      have fewer := dhcpdIpIsAllocated_fewer test
      obtain ⟨fewer', found⟩ := ih eq
      exact ⟨fewer.trans fewer', found⟩

lemma findLinearIp_spec (order : cfg.startIp ≤ cfg.endIp) :
    ∀ {currentIp : UInt32} {s : Dhcpd}, cfg.startIp ≤ currentIp ∧ currentIp ≤ cfg.endIp →
      findLinearIp clock cfg n currentIp s = (o, s') →
      Fewer s.leases s'.leases ∧ ∀ ip, o = some ip → NoIp s'.leases ip ∧ cfg.startIp ≤ ip ∧ ip ≤ cfg.endIp := by
  induction n with
  | zero =>
    intro currentIp s _ eq
    obtain ⟨rfl, rfl⟩ := Prod.mk.inj eq
    exact ⟨Fewer.refl _, by rintro _ ⟨⟩⟩
  | succ n ih =>
    intro currentIp s pool eq
    rw [findLinearIp] at eq
    split at eq
    · rename_i s₁ test
      obtain ⟨rfl, rfl⟩ := Prod.mk.inj eq
      refine ⟨dhcpdIpIsAllocated_fewer test, ?_⟩
      rintro _ ⟨⟩
      exact ⟨dhcpdIpIsAllocated_false test, pool⟩
    · rename_i s₁ test
      have next : cfg.startIp ≤ (if currentIp < cfg.endIp then currentIp + 1 else cfg.startIp) ∧
          (if currentIp < cfg.endIp then currentIp + 1 else cfg.startIp) ≤ cfg.endIp := by
        split
        · rename_i lt
          have hi := cfg.endIp.toNat_lt
          have one : (1 : UInt32).toNat = 1 := rfl
          simp only [UInt32.le_iff_toNat_le, UInt32.lt_iff_toNat_lt, UInt32.toNat_add, one] at pool lt ⊢
          omega
        · exact ⟨UInt32.le_refl _, order⟩
      obtain ⟨fewer, found⟩ := ih next eq
      exact ⟨(dhcpdIpIsAllocated_fewer test).trans fewer, found⟩

lemma refresh_sound {start : UInt32} (sound : Sound cfg s.leases)
    (used : (s.leases i).used = true) :
    Sound cfg (Function.update s.leases i { s.leases i with leaseStart := start }) :=
  sound.place (fun j other hj same => other (sound.macs j i hj used same))
    (fun j other hj same => other (sound.ips j i hj used same)) (sound.pool i used)

lemma dhcpdAllocIp_sound (pooled : Pooled cfg) (sound : Sound cfg s.leases) :
    Sound cfg (dhcpdAllocIp clock cfg mac s).2.leases := by
  rw [dhcpdAllocIp]
  split
  · rename_i i search
    have found := List.find?_some search
    simp only [Bool.and_eq_true, decide_eq_true_eq] at found
    exact refresh_sound sound found.1
  · rename_i search
    have new : NoMac s.leases mac := by
      intro i used same
      have := find_none search i
      simp [used, same] at this
    rcases pooled with order | empty
    · simp only
      split
      · rename_i ip s₁ random
        obtain ⟨fewer, found⟩ := findRandomIp_spec random
        obtain ⟨free, pool⟩ := found ip rfl
        exact dhcpdTryAllocateIp_sound (sound.fewer fewer) (new.fewer fewer) free (pool order)
      · rename_i s₁ random
        have fewer := (findRandomIp_spec random).1
        split
        · rename_i ip s₂ linear
          obtain ⟨fewer', found⟩ := findLinearIp_spec order ⟨UInt32.le_refl _, order⟩ linear
          obtain ⟨free, pool⟩ := found ip rfl
          have both := fewer.trans fewer'
          exact dhcpdTryAllocateIp_sound (sound.fewer both) (new.fewer both) free pool
        · rename_i s₂ linear
          exact sound.fewer (fewer.trans (findLinearIp_spec order ⟨UInt32.le_refl _, order⟩ linear).1)
    · -- Neither loop is entered.
      simp only [empty]
      exact sound

def Available (t : Leases) (mac : Bytes) (ip : UInt32) : Prop :=
  ∀ j, (t j).used = true → (t j).ipAddr = ip → (t j).macAddr = mac

lemma available_of_own (sound : Sound cfg s.leases)
    (own : ∃ i, (s.leases i).used = true ∧ (s.leases i).ipAddr = ip ∧ (s.leases i).macAddr = mac) :
    Available s.leases mac ip := by
  obtain ⟨i, used, same, client⟩ := own
  intro j hj eq
  obtain rfl := sound.ips j i hj used (eq.trans same.symm)
  exact client

lemma ipTaken_fewer (look : ipTaken clock ip mac s = (taken, s')) : Fewer s.leases s'.leases := by
  rw [ipTaken] at look
  split at look
  · rename_i s₁ test
    generalize check : dhcpdIpAllocatedToMac clock ip mac s₁ = result at look
    obtain ⟨-, rfl⟩ := Prod.mk.inj look
    exact (dhcpdIpIsAllocated_fewer test).trans (dhcpdIpAllocatedToMac_fewer check)
  · rename_i s₁ test
    obtain ⟨-, rfl⟩ := Prod.mk.inj look
    exact dhcpdIpIsAllocated_fewer test

lemma ipTaken_false (look : ipTaken clock ip mac s = (false, s')) : dhcpdIpIsAllocated clock ip s = (false, s') ∨
      ∃ i, (s'.leases i).used = true ∧ (s'.leases i).ipAddr = ip ∧ (s'.leases i).macAddr = mac := by
  rw [ipTaken] at look
  split at look
  · rename_i s₁ test
    generalize check : dhcpdIpAllocatedToMac clock ip mac s₁ = result at look
    obtain ⟨own, s₂⟩ := result
    obtain ⟨same, rfl⟩ := Prod.mk.inj look
    obtain rfl : own = true := by simpa using same
    exact .inr (dhcpdIpAllocatedToMac_true check)
  · rename_i s₁ test
    obtain ⟨-, rfl⟩ := Prod.mk.inj look
    exact .inl test

lemma ipTaken_spec (sound : Sound cfg s.leases) (look : ipTaken clock ip mac s = (taken, s')) :
    Fewer s.leases s'.leases ∧ (taken = false → Available s'.leases mac ip) := by
  have fewer := ipTaken_fewer look
  refine ⟨fewer, ?_⟩
  rintro rfl
  rcases ipTaken_false look with free | own
  · exact fun j used eq => absurd eq (dhcpdIpIsAllocated_false free j used)
  · exact available_of_own (sound.fewer fewer) own

lemma dhcpdProcessLease_sound (pooled : Pooled cfg) (sound : Sound cfg s.leases)
    (pool : cfg.startIp ≤ ip ∧ ip ≤ cfg.endIp) :
    Sound cfg (dhcpdProcessLease clock cfg mac ip s).2.leases := by
  rw [dhcpdProcessLease]
  generalize find : dhcpdFindLease clock mac s = result
  obtain ⟨lease, s₁⟩ := result
  have fewer₁ : Fewer s.leases s₁.leases := by
    cases lease with
    | none => exact (dhcpdFindLease_none find).1
    | some i => exact (dhcpdFindLease_some find).1
  have sound₁ := sound.fewer fewer₁
  simp only
  generalize look : ipTaken clock ip mac s₁ = result
  obtain ⟨taken, s₂⟩ := result
  have known := ipTaken_spec sound₁ look
  have sound₂ := sound₁.fewer known.1
  cases taken with
  | true => exact dhcpdAllocIp_sound pooled sound₂
  | false =>
    have available := known.2 rfl
    cases lease with
    | some i =>
      have client := (dhcpdFindLease_some find).2
      simp only [getTimer, Bool.false_eq_true, if_false]
      cases used : (s₂.leases i).used with
      | false => exact sound₂.fewer (Fewer.drop _ i rfl)
      | true =>
        rw [← known.1 i used] at client
        refine sound₂.place (fun j other hj same => other (sound₂.macs j i hj used same)) ?_ pool
        intro j other hj same
        exact other (sound₂.macs j i hj used ((available j hj same).trans client.symm))
    | none =>
      have new := (dhcpdFindLease_none find).2.fewer known.1
      have free : NoIp s₂.leases ip := fun j hj same => new j hj (available j hj same)
      simp only [Bool.false_eq_true, if_false]
      split
      · rename_i s₃ slot
        exact sound₂.fewer (dhcpdGetAvailableLeaseSlot_fewer slot)
      · rename_i i s₃ slot
        have fewer := dhcpdGetAvailableLeaseSlot_fewer slot
        exact dhcpdCreateLease_sound (sound₂.fewer fewer) (new.fewer fewer) (free.fewer fewer) pool

lemma dhcpdHandleDiscover_sound (pooled : Pooled cfg) (sound : Sound cfg s.leases) :
    Sound cfg (dhcpdHandleDiscover clock cfg mac s).2.leases := by
  rw [dhcpdHandleDiscover]
  split
  · rename_i s₁ find
    exact dhcpdAllocIp_sound pooled (sound.fewer (dhcpdFindLease_none find).1)
  rename_i i s₁ find
  have sound₁ := sound.fewer (dhcpdFindLease_some find).1
  simp only
  generalize look : ipTaken clock (s₁.leases i).ipAddr mac s₁ = result
  obtain ⟨taken, s₂⟩ := result
  have sound₂ := sound₁.fewer (ipTaken_spec sound₁ look).1
  cases taken with
  | true => exact dhcpdAllocIp_sound pooled (sound₂.fewer (Fewer.drop _ i rfl))
  | false => exact sound₂

lemma dhcpdValidateRequest_pool (ok : dhcpdValidateRequest cfg ip = .ok ()) : cfg.startIp ≤ ip ∧ ip ≤ cfg.endIp := by
  rw [dhcpdValidateRequest] at ok
  split at ok
  · cases ok
  · split at ok
    · cases ok
    · rename_i pool
      simpa [dhcpdIpInPool] using pool

section

variable (pooled : Pooled cfg) (sound : Sound cfg s.leases)
include pooled sound

lemma requestBody_sound :
    Sound cfg (requestBody clock cfg pkt s).2.leases := by
  rw [requestBody]
  split
  · have alloc : Sound cfg (dhcpdAllocIp clock cfg (chaddr pkt) s).2.leases :=
      dhcpdAllocIp_sound pooled sound
    split <;> rename_i eq <;> rw [eq] at alloc <;> exact alloc
  rename_i ip option
  split
  · exact sound
  · rename_i valid
    have lease : Sound cfg (dhcpdProcessLease clock cfg (chaddr pkt) (be32 ip) s).2.leases :=
      dhcpdProcessLease_sound pooled sound (dhcpdValidateRequest_pool valid)
    split <;> rename_i eq <;> rw [eq] at lease <;> exact lease

lemma dhcpdHandleRequest_sound :
    Sound cfg (dhcpdHandleRequest clock cfg pkt s).2.leases := by
  rw [dhcpdHandleRequest]
  split
  · split
    · exact sound
    · exact requestBody_sound pooled sound
  · exact requestBody_sound pooled sound
  · exact sound

lemma receive_sound (pkt : Bytes) :
    Sound cfg (receive clock cfg s pkt).leases := by
  rw [receive, dhcpdHandler]
  split
  · split
    · have discover : Sound cfg (dhcpdHandleDiscover clock cfg (chaddr pkt) s).2.leases :=
        dhcpdHandleDiscover_sound pooled sound
      split <;> rename_i eq <;> rw [eq] at discover <;> exact discover
    · exact dhcpdHandleRequest_sound pooled sound
    · exact sound
  · exact sound

end

lemma receive_run_sound (pooled : Pooled cfg) (pkts : List Bytes) :
    ∀ s : Dhcpd, Sound cfg s.leases → Sound cfg (runAll (receive clock cfg) s pkts).leases := by
  induction pkts with
  | nil => exact fun s sound => sound
  | cons pkt pkts ih => exact fun s sound => ih _ (receive_sound pooled sound pkt)

end Helpers

lemma dhcpdInitServer_sound (cfg : SvrCfg) : Sound cfg dhcpdInitServer.leases where
  ips _ _ used := by cases used
  macs _ _ used := by cases used
  pool _ used := by cases used

/-! ## A pool that is upside down -/

lemma expire_unused {clock : Nat → UInt32} {s : Dhcpd} (unused : ∀ i, (s.leases i).used = false) :
    dhcpdExpireLeases clock s = s := by
  have fold : ∀ slots : List (Fin maxLeases), slots.foldl (expireOne clock) s = s := by
    intro slots
    induction slots with
    | nil => rfl
    | cons i slots ih =>
      have one : expireOne clock s i = s := by simp [expireOne, unused i]
      rw [List.foldl_cons, one, ih]
  delta dhcpdExpireLeases
  exact fold _

section Unused

variable {clock : Nat → UInt32} {cfg : SvrCfg} {s : Dhcpd}

lemma find_unused (unused : ∀ i, (s.leases i).used = false) (p : Fin maxLeases → Bool) :
    ((List.finRange maxLeases).find? fun i => (s.leases i).used && p i) = none := by
  rw [List.find?_eq_none]
  intro i _
  simp [unused i]

lemma ipIsAllocated_unused (unused : ∀ i, (s.leases i).used = false) (ip : UInt32) :
    dhcpdIpIsAllocated clock ip s = (false, s) := by
  rw [dhcpdIpIsAllocated, expire_unused unused, Prod.mk.injEq]
  refine ⟨List.any_eq_false.mpr fun i _ => ?_, rfl⟩
  simp [unused i]

lemma slot_unused (clock : Nat → UInt32) (unused : ∀ i, (s.leases i).used = false) :
    ∃ i, dhcpdGetAvailableLeaseSlot clock s = (some i, s) := by
  rw [dhcpdGetAvailableLeaseSlot, expire_unused unused]
  cases search : (List.finRange maxLeases).find? fun i => !(s.leases i).used with
  | some i => exact ⟨i, rfl⟩
  | none =>
    have := find_none search ⟨0, by decide⟩
    simp [unused] at this

lemma allocIp_unused (clock : Nat → UInt32) (unused : ∀ i, (s.leases i).used = false) (mac : Bytes)
    (enters : cfg.endIp - cfg.startIp + 1 ≠ 0) :
    ∃ i, ((dhcpdAllocIp clock cfg mac s).2.leases i).used = true := by
  obtain ⟨n, attempts⟩ : ∃ n, (if cfg.endIp - cfg.startIp + 1 < 100 then
      (cfg.endIp - cfg.startIp + 1).toNat else 100) = n + 1 := by
    refine Nat.exists_eq_succ_of_ne_zero ?_
    split
    · exact fun zero => enters (UInt32.toNat_inj.mp zero)
    · decide
  have unused' : ∀ i, ((getTimer clock 0 s).2.leases i).used = false := unused
  obtain ⟨i, slot⟩ := slot_unused clock unused'
  refine ⟨i, ?_⟩
  simp only [dhcpdAllocIp, find_unused unused, attempts, findRandomIp, ipIsAllocated_unused unused',
    dhcpdTryAllocateIp, slot]
  simp [dhcpdCreateLease, Dhcpd.set]

end Unused

def discoverPacket : Bytes :=
  [1, 1, 6, 0] ++ List.replicate 232 0 ++ dhcpMagicCookie ++ [53, 1, 1]

lemma discover_leases (clock : Nat → UInt32) {cfg : SvrCfg} (enters : cfg.endIp - cfg.startIp + 1 ≠ 0) :
    ∃ i, ((receive clock cfg dhcpdInitServer discoverPacket).leases i).used = true := by
  have unused : ∀ i, (dhcpdInitServer.leases i).used = false := fun _ => rfl
  have kind : dhcpdParseOption discoverPacket 53 1 = .ok [1] := by decide +kernel
  have find : dhcpdFindLease clock (chaddr discoverPacket) dhcpdInitServer = (none, dhcpdInitServer) := by
    rw [dhcpdFindLease, expire_unused unused, find_unused unused]
  obtain ⟨i, used⟩ := allocIp_unused clock unused (chaddr discoverPacket) enters
  refine ⟨i, ?_⟩
  rw [receive, dhcpdHandler, if_pos (by decide +kernel), kind]
  simp only [dhcpdHandleDiscover, find]
  split <;> rename_i eq <;> rw [eq] at used <;> exact used

/-- Over every clock and every sequence of packets the lease table is sound, exactly when the settings
give a pool. -/
theorem leases_sound_iff (ipAddr netmask : UInt32) :
    (∀ (clock : Nat → UInt32) (pkts : List Bytes),
      Sound (dhcpdIpSettings ipAddr netmask)
        (runAll (receive clock (dhcpdIpSettings ipAddr netmask)) dhcpdInitServer pkts).leases) ↔
      Pooled (dhcpdIpSettings ipAddr netmask) := by
  generalize dhcpdIpSettings ipAddr netmask = cfg
  constructor
  · intro sound
    by_contra upside
    rw [Pooled, not_or] at upside
    obtain ⟨i, used⟩ := discover_leases (fun _ => 0) upside.2
    have after := sound (fun _ => 0) [discoverPacket]
    rw [runAll, List.foldl_cons, List.foldl_nil] at after
    have pool := after.pool i used
    exact upside.1 (UInt32.le_trans pool.1 pool.2)
  · intro pooled clock pkts
    exact receive_run_sound pooled pkts _ (dhcpdInitServer_sound cfg)

/-- With the netmask 255.255.255.255 the pool runs from 192.168.1.2 down to 192.168.1.0, and the first
DISCOVER is offered 192.168.1.2, which is above its end. -/
theorem lease_outside_pool :
    let cfg := dhcpdIpSettings 0xC0A80101 0xFFFFFFFF
    let l := (receive (fun _ => 0) cfg dhcpdInitServer discoverPacket).leases ⟨0, by decide⟩
    l.used = true ∧ l.ipAddr = 0xC0A80102 ∧ cfg.endIp = 0xC0A80100 := by
  decide +kernel

end ResQBoot.Net
