import ResQBoot.Net.Leases

/-!
# The lease behind an ACK

A client that gets an ACK has a used lease of the address, unless `dhcpd_process_lease` found its lease and the next pass
over the table dropped it (`Lapses`).
-/

namespace ResQBoot.Net

variable {pkt : Bytes}

def Leased (t : Leases) (mac : Bytes) (ip : UInt32) : Prop :=
  ∃ i, (t i).used = true ∧ (t i).macAddr = mac ∧ (t i).ipAddr = ip

def Lapses (clock : Nat → UInt32) (mac : Bytes) (ip : UInt32) (s : Dhcpd) : Prop :=
  ∃ i s₁ s₂, dhcpdFindLease clock mac s = (some i, s₁) ∧
    dhcpdIpIsAllocated clock ip s₁ = (false, s₂) ∧ (s₂.leases i).used = false

def DiscoverLapses (clock : Nat → UInt32) (mac : Bytes) (s : Dhcpd) : Prop :=
  ∃ i s₁ s₂, dhcpdFindLease clock mac s = (some i, s₁) ∧
    dhcpdIpIsAllocated clock (s₁.leases i).ipAddr s₁ = (false, s₂)

def IsDiscover (pkt : Bytes) : Prop :=
  pkt.getD 0 0 = 1 ∧ pkt.getD 1 0 = 1 ∧ pkt.getD 2 0 = 6 ∧ dhcpdParseOption pkt 53 1 = .ok [1]

def offered : Except DhcpdErr UInt32 → UInt32
  | .ok a => a
  | .error _ => 0

def RequestLapses (clock : Nat → UInt32) (pkt : Bytes) (s : Dhcpd) : Prop :=
  ∃ ip, dhcpdParseOption pkt 50 4 = .ok ip ∧ Lapses clock (chaddr pkt) (be32 ip) s

def Grants (r : Option Reply) (ip : UInt32) : Prop :=
  r = some (.ack ip) ∨ r = some (.offer ip) ∧ ip ≠ 0

section Backing

variable {clock : Nat → UInt32} {cfg : SvrCfg} {mac : Bytes} {ip a : UInt32} {s s' : Dhcpd}

lemma Leased.set {i : Fin maxLeases} {l : Lease} (used : l.used = true) :
    Leased (s.set i l).leases l.macAddr l.ipAddr := by
  have slot : (s.set i l).leases i = l := Function.update_self _ _ _
  exact ⟨i, by rw [slot, used], by rw [slot], by rw [slot]⟩

lemma NoIp.not_leased {t : Leases} (none : NoIp t ip) : ¬ Leased t mac ip := by
  rintro ⟨i, used, -, same⟩
  exact none i used same

lemma Sound.one_client {t : Leases} {mac' : Bytes} (sound : Sound cfg t) (held : Leased t mac ip)
    (held' : Leased t mac' ip) : mac = mac' := by
  obtain ⟨i, used, rfl, same⟩ := held
  obtain ⟨j, used', rfl, same'⟩ := held'
  rw [sound.ips i j used used' (same.trans same'.symm)]

lemma dhcpdTryAllocateIp_leased (ok : dhcpdTryAllocateIp clock mac ip s = (.ok a, s')) : Leased s'.leases mac a := by
  rw [dhcpdTryAllocateIp] at ok
  split at ok
  · rename_i i s₁ slot
    obtain ⟨same, rfl⟩ := Prod.mk.inj ok
    obtain rfl := Except.ok.inj same
    exact Leased.set (l := ⟨true, mac, ip, (getTimer clock 0 s₁).1, leaseHour⟩) rfl
  · cases (Prod.mk.inj ok).1

lemma dhcpdAllocIp_leased (ok : dhcpdAllocIp clock cfg mac s = (.ok a, s')) : Leased s'.leases mac a := by
  rw [dhcpdAllocIp] at ok
  split at ok
  · -- The client has a lease, which is refreshed.
    rename_i i search
    have found := List.find?_some search
    simp only [Bool.and_eq_true, decide_eq_true_eq] at found
    obtain ⟨same, rfl⟩ := Prod.mk.inj ok
    obtain rfl := Except.ok.inj same
    have held : Leased _ (s.leases i).macAddr (s.leases i).ipAddr :=
      Leased.set (s := s) (i := i) (l := { s.leases i with leaseStart := (getTimer clock 0 s).1 }) found.1
    rw [found.2] at held
    exact held
  · simp only at ok
    split at ok
    · exact dhcpdTryAllocateIp_leased ok
    · split at ok
      · exact dhcpdTryAllocateIp_leased ok
      · cases (Prod.mk.inj ok).1

lemma Leased.move {i : Fin maxLeases} {now : UInt32} (client : (s.leases i).used = true → (s.leases i).macAddr = mac)
    (own : (s.leases i).used = true ∨ Leased s.leases mac ip) :
    Leased (s.set i { s.leases i with ipAddr := ip, leaseStart := now, leaseTime := leaseHour }).leases
      mac ip := by
  cases used : (s.leases i).used with
  | true =>
    have held := Leased.set (s := s) (i := i)
      (l := { s.leases i with ipAddr := ip, leaseStart := now, leaseTime := leaseHour }) used
    rw [client used] at held
    exact held
  | false =>
    obtain ⟨j, usedj, macj, ipj⟩ := own.resolve_left (by rw [used]; exact Bool.false_ne_true)
    have other : j ≠ i := by
      rintro rfl
      rw [used] at usedj
      cases usedj
    have slot : (s.set i { s.leases i with ipAddr := ip, leaseStart := now, leaseTime := leaseHour }).leases j =
        s.leases j := Function.update_of_ne other _ _
    exact ⟨j, by rw [slot, usedj], by rw [slot, macj], by rw [slot, ipj]⟩

lemma dhcpdProcessLease_leased (ok : dhcpdProcessLease clock cfg mac ip s = (.ok a, s'))
    (kept : ¬ Lapses clock mac ip s) : Leased s'.leases mac a := by
  rw [dhcpdProcessLease] at ok
  generalize find : dhcpdFindLease clock mac s = result at ok
  obtain ⟨lease, s₁⟩ := result
  simp only at ok
  generalize look : ipTaken clock ip mac s₁ = result at ok
  obtain ⟨taken, s₂⟩ := result
  cases taken with
  | true => exact dhcpdAllocIp_leased ok
  | false =>
    simp only [Bool.false_eq_true, if_false] at ok
    cases lease with
    | some i =>
      obtain ⟨same, rfl⟩ := Prod.mk.inj ok
      obtain rfl := Except.ok.inj same
      refine Leased.move (s := (getTimer clock 0 s₂).2) (i := i) ?_ ?_
      · intro used
        have client := (dhcpdFindLease_some find).2
        rw [← ipTaken_fewer look i used] at client
        exact client
      · rcases ipTaken_false look with free | held
        · left
          change (s₂.leases i).used = true
          by_contra unused
          exact kept ⟨i, s₁, s₂, find, free, by simpa using unused⟩
        · obtain ⟨j, used, same, client⟩ := held
          exact .inr ⟨j, used, client, same⟩
    | none =>
      simp only at ok
      split at ok
      · cases (Prod.mk.inj ok).1
      · rename_i i s₃ slot
        obtain ⟨same, rfl⟩ := Prod.mk.inj ok
        obtain rfl := Except.ok.inj same
        exact Leased.set (l := ⟨true, mac, ip, (getTimer clock 0 s₃).1, leaseHour⟩) rfl

lemma dhcpdProcessLease_lapsed (ok : dhcpdProcessLease clock cfg mac ip s = (.ok a, s'))
    (lapses : Lapses clock mac ip s) : NoIp s'.leases a := by
  obtain ⟨i, s₁, s₂, find, free, unused⟩ := lapses
  have none := dhcpdIpIsAllocated_false free
  simp only [dhcpdProcessLease, find, ipTaken, free, Bool.false_eq_true, if_false] at ok
  obtain ⟨same, rfl⟩ := Prod.mk.inj ok
  obtain rfl := Except.ok.inj same
  refine none.fewer (Fewer.drop _ i ?_)
  exact unused

lemma requestBody_ack (ack : requestBody clock cfg pkt s = (some (.ack a), s')) :
    (∃ e, dhcpdParseOption pkt 50 4 = .error e ∧ dhcpdAllocIp clock cfg (chaddr pkt) s = (.ok a, s')) ∨
      ∃ ip, dhcpdParseOption pkt 50 4 = .ok ip ∧
        dhcpdProcessLease clock cfg (chaddr pkt) (be32 ip) s = (.ok a, s') := by
  rw [requestBody] at ack
  split at ack
  · rename_i e option
    split at ack
    · rename_i yiaddr s₁ alloc
      obtain ⟨same, rfl⟩ := Prod.mk.inj ack
      cases same
      exact .inl ⟨e, option, alloc⟩
    · cases (Prod.mk.inj ack).1
  · rename_i ip option
    split at ack
    · cases (Prod.mk.inj ack).1
    split at ack
    · rename_i yiaddr s₁ process
      obtain ⟨same, rfl⟩ := Prod.mk.inj ack
      cases same
      exact .inr ⟨ip, option, process⟩
    · cases (Prod.mk.inj ack).1

lemma dhcpdHandler_ack (ack : dhcpdHandler clock cfg s pkt = (some (.ack a), s')) :
    requestBody clock cfg pkt s = (some (.ack a), s') := by
  rw [dhcpdHandler] at ack
  split at ack
  · split at ack
    · split at ack <;> cases (Prod.mk.inj ack).1
    · rw [dhcpdHandleRequest] at ack
      split at ack
      · split at ack
        · cases (Prod.mk.inj ack).1
        · exact ack
      · exact ack
      · cases (Prod.mk.inj ack).1
    · cases (Prod.mk.inj ack).1
  · cases (Prod.mk.inj ack).1

lemma dhcpdParseOption_ok {v : Bytes} {code : UInt8} {n : Nat} (ok : dhcpdParseOption pkt code n = .ok v) :
    vendOff + 4 ≤ pkt.length ∧ (pkt.drop vendOff).take 4 = dhcpMagicCookie := by
  rw [dhcpdParseOption] at ok
  split at ok
  · cases ok
  rename_i long
  split at ok
  · cases ok
  · rename_i cookie
    exact ⟨Nat.not_lt.mp long, not_not.mp cookie⟩

lemma dhcpdHandler_discover (discover : IsDiscover pkt) :
    dhcpdHandler clock cfg s pkt = (some (.offer (offered (dhcpdHandleDiscover clock cfg (chaddr pkt) s).1)),
      (dhcpdHandleDiscover clock cfg (chaddr pkt) s).2) := by
  obtain ⟨op, htype, hlen, kind⟩ := discover
  obtain ⟨long, cookie⟩ := dhcpdParseOption_ok kind
  rw [dhcpdHandler, if_pos ⟨by omega, op, htype, hlen, long, cookie⟩, kind]
  simp only
  split <;> rename_i result <;> rw [result] <;> rfl

lemma dhcpdHandler_offer (offer : dhcpdHandler clock cfg s pkt = (some (.offer a), s')) :
    IsDiscover pkt := by
  rw [dhcpdHandler] at offer
  split at offer
  · rename_i header
    split at offer
    · rename_i kind
      exact ⟨header.2.1, header.2.2.1, header.2.2.2.1, kind⟩
    · rw [dhcpdHandleRequest] at offer
      -- A REQUEST is answered by an ACK or a NAK.
      have none : ∀ s', requestBody clock cfg pkt s ≠ (some (.offer a), s') := by
        intro s' eq
        rw [requestBody] at eq
        split at eq
        · split at eq <;> cases (Prod.mk.inj eq).1
        · split at eq
          · cases (Prod.mk.inj eq).1
          · split at eq <;> cases (Prod.mk.inj eq).1
      split at offer
      · split at offer
        · cases (Prod.mk.inj offer).1
        · exact absurd offer (none _)
      · exact absurd offer (none _)
      · cases (Prod.mk.inj offer).1
    · cases (Prod.mk.inj offer).1
  · cases (Prod.mk.inj offer).1

lemma expireOne_ipAddr (s : Dhcpd) (i j : Fin maxLeases) :
    ((expireOne clock s i).leases j).ipAddr = (s.leases j).ipAddr := by
  rw [expireOne]
  split
  · by_cases late : (getTimer clock (s.leases i).leaseStart s).1 > (s.leases i).leaseTime
    · simp only [late, if_true]
      by_cases same : j = i
      · subst same
        simp [Dhcpd.set]
      · simp [Dhcpd.set, same, getTimer]
    · simp only [late, if_false]
      rfl
  · rfl

lemma dhcpdExpireLeases_ipAddr (s : Dhcpd) (j : Fin maxLeases) :
    ((dhcpdExpireLeases clock s).leases j).ipAddr = (s.leases j).ipAddr := by
  have fold : ∀ (slots : List (Fin maxLeases)) (s : Dhcpd),
      ((slots.foldl (expireOne clock) s).leases j).ipAddr = (s.leases j).ipAddr := by
    intro slots
    induction slots with
    | nil => exact fun s => rfl
    | cons i slots ih => exact fun s => (ih _).trans (expireOne_ipAddr s i j)
  delta dhcpdExpireLeases
  exact fold _ s

lemma ipTaken_ipAddr {taken : Bool} (look : ipTaken clock ip mac s = (taken, s')) (j : Fin maxLeases) :
    (s'.leases j).ipAddr = (s.leases j).ipAddr := by
  rw [ipTaken] at look
  split at look
  · rename_i s₁ test
    obtain ⟨-, rfl⟩ := Prod.mk.inj test
    obtain ⟨-, rfl⟩ := Prod.mk.inj look
    exact (dhcpdExpireLeases_ipAddr _ j).trans (dhcpdExpireLeases_ipAddr _ j)
  · rename_i s₁ test
    obtain ⟨-, rfl⟩ := Prod.mk.inj test
    obtain ⟨-, rfl⟩ := Prod.mk.inj look
    exact dhcpdExpireLeases_ipAddr _ j

lemma dhcpdHandleDiscover_granted (ok : dhcpdHandleDiscover clock cfg mac s = (.ok a, s')) :
    Leased s'.leases mac a ∧ ¬ DiscoverLapses clock mac s ∨ NoIp s'.leases a ∧ DiscoverLapses clock mac s := by
  rw [dhcpdHandleDiscover] at ok
  split at ok
  · rename_i s₁ find
    refine .inl ⟨dhcpdAllocIp_leased ok, ?_⟩
    rintro ⟨i, s₁', s₂, find', -⟩
    cases find.symm.trans find'
  · rename_i i s₁ find
    simp only at ok
    generalize look : ipTaken clock (s₁.leases i).ipAddr mac s₁ = result at ok
    obtain ⟨taken, s₂⟩ := result
    -- A lease that lapses is not looked for a second time.
    have lapsed : DiscoverLapses clock mac s → taken = false ∧ NoIp s₂.leases (s₁.leases i).ipAddr := by
      rintro ⟨i', s₁', s₂', find', free⟩
      cases find.symm.trans find'
      simp only [ipTaken, free] at look
      cases look
      exact ⟨rfl, dhcpdIpIsAllocated_false free⟩
    cases taken with
    | true => exact .inl ⟨dhcpdAllocIp_leased ok, fun lapses => absurd (lapsed lapses).1 (by decide)⟩
    | false =>
      obtain ⟨same, rfl⟩ := Prod.mk.inj ok
      obtain rfl := Except.ok.inj same
      rw [ipTaken_ipAddr look i]
      rcases ipTaken_false look with free | ⟨j, used, same, client⟩
      · exact .inr ⟨dhcpdIpIsAllocated_false free, i, s₁, s₂, find, free⟩
      · exact .inl ⟨⟨j, used, client, same⟩, fun lapses => (lapsed lapses).2 j used same⟩

lemma ack_leased (ack : dhcpdHandler clock cfg s pkt = (some (.ack a), s'))
    (kept : ¬ RequestLapses clock pkt s) : Leased s'.leases (chaddr pkt) a := by
  rcases requestBody_ack (dhcpdHandler_ack ack) with ⟨e, -, alloc⟩ | ⟨ip, option, process⟩
  · exact dhcpdAllocIp_leased alloc
  · exact dhcpdProcessLease_leased process fun lapses => kept ⟨ip, option, lapses⟩

lemma ack_lapsed (ack : dhcpdHandler clock cfg s pkt = (some (.ack a), s'))
    (lapses : RequestLapses clock pkt s) : NoIp s'.leases a := by
  obtain ⟨ip, option, lapses⟩ := lapses
  rcases requestBody_ack (dhcpdHandler_ack ack) with ⟨e, missing, -⟩ | ⟨ip', option', process⟩
  · rw [missing] at option
    cases option
  · rw [option'] at option
    obtain rfl := Except.ok.inj option
    exact dhcpdProcessLease_lapsed process lapses

lemma granted {r : Option Reply} (answer : dhcpdHandler clock cfg s pkt = (r, s'))
    (grants : Grants r a) : Leased s'.leases (chaddr pkt) a ∨ NoIp s'.leases a := by
  rcases grants with rfl | ⟨rfl, real⟩
  · by_cases lapses : RequestLapses clock pkt s
    · exact .inr (ack_lapsed answer lapses)
    · exact .inl (ack_leased answer lapses)
  rw [dhcpdHandler_discover (dhcpdHandler_offer answer)] at answer
  generalize discover : dhcpdHandleDiscover clock cfg (chaddr pkt) s = result at answer
  obtain ⟨allocated, s₁⟩ := result
  cases allocated with
  | ok b =>
    cases answer
    exact (dhcpdHandleDiscover_granted discover).imp And.left And.left
  | error e =>
    cases answer
    exact absurd rfl real

end Backing

/-- An ACK leaves a used lease of its client and address in the table, exactly when the client's lease
does not lapse while the REQUEST is handled. As long as that lease is in the table, no packet of another
client is answered with the address. -/
theorem ack_backed_iff (clock : Nat → UInt32) (cfg : SvrCfg) (s : Dhcpd) (pkt : Bytes) (a : UInt32)
    (ack : (dhcpdHandler clock cfg s pkt).1 = some (.ack a)) :
    (Leased (receive clock cfg s pkt).leases (chaddr pkt) a ↔ ¬ RequestLapses clock pkt s) ∧
    (Pooled cfg → Sound cfg s.leases → ∀ (pkts : List Bytes) (pkt' : Bytes), chaddr pkt' ≠ chaddr pkt →
      let s' := runAll (receive clock cfg) (receive clock cfg s pkt) pkts
      Leased (receive clock cfg s' pkt').leases (chaddr pkt) a →
        ¬ Grants (dhcpdHandler clock cfg s' pkt').1 a) := by
  have answer : dhcpdHandler clock cfg s pkt = (some (.ack a), receive clock cfg s pkt) :=
    Prod.ext ack rfl
  refine ⟨⟨?_, ack_leased answer⟩, ?_⟩
  · intro held lapses
    exact (ack_lapsed answer lapses).not_leased held
  intro pooled sound pkts pkt' other s' held grants
  have sound' : Sound cfg (receive clock cfg s' pkt').leases :=
    receive_sound pooled (receive_run_sound pooled pkts _ (receive_sound pooled sound pkt)) pkt'
  rcases granted (s := s') (Prod.ext rfl rfl) grants with held' | none
  · exact other (sound'.one_client held' held)
  · exact none.not_leased held

def requestPacket : Bytes :=
  [1, 1, 6, 0] ++ List.replicate 232 0 ++ dhcpMagicCookie ++ [53, 1, 3, 50, 4, 192, 168, 1, 50]

/-- A client without a lease gets one with its ACK. -/
theorem ack_backed_new_client :
    let cfg := dhcpdIpSettings 0xC0A80101 0xFFFFFF00
    Leased (receive (fun _ => 0) cfg dhcpdInitServer requestPacket).leases (chaddr requestPacket)
      0xC0A80132 := by
  refine (ack_backed_iff (fun _ => 0) _ dhcpdInitServer requestPacket 0xC0A80132 (by decide +kernel)).1.mpr ?_
  rintro ⟨ip, option, i, s₁, s₂, find, -⟩
  have unused : ∀ i, (dhcpdInitServer.leases i).used = false := fun _ => rfl
  rw [dhcpdFindLease, expire_unused unused, find_unused unused] at find
  cases (Prod.mk.inj find).1

def hourClock (n : Nat) : UInt32 :=
  if n < 2 then 0 else if n < 3 then 3600 * 1000 else 3600 * 1000 + 1

/-- A client with a lease asks for another address an hour later. The first pass over the table comes
just in time and the second one a millisecond later, and the client gets an ACK without a lease. -/
theorem ack_without_lease :
    let clock := hourClock
    let cfg := dhcpdIpSettings 0xC0A80101 0xFFFFFF00
    let s := receive clock cfg dhcpdInitServer discoverPacket
    (∀ n, clock n ≤ clock (n + 1)) ∧
      (dhcpdHandler clock cfg s requestPacket).1 = some (.ack 0xC0A80132) ∧
      ∀ i, ((receive clock cfg s requestPacket).leases i).used = false := by
  refine ⟨fun n => ?_, by decide +kernel, by decide +kernel⟩
  simp only [hourClock]
  split_ifs <;> first | decide | omega

end ResQBoot.Net
