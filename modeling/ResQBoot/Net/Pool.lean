import ResQBoot.Lib.Fields
import ResQBoot.Net.Dhcpd

/-!
# The address pool

The pool of `dhcpd_ip_settings` starts behind the server and is cut at the end of the subnet. If nothing is left of it it
is taken from the first addresses of the subnet, where the server may be.
-/

namespace ResQBoot.Net

def maskOf (p : Nat) : UInt32 := UInt32.ofNat (2 ^ 32 - 2 ^ (32 - p))

def networkAddr (ip mask : UInt32) : UInt32 := ip &&& mask

def broadcastAddr (ip mask : UInt32) : UInt32 := networkAddr ip mask ||| ~~~mask

def IsHost (ip mask a : UInt32) : Prop :=
  networkAddr a mask = networkAddr ip mask ∧ a ≠ networkAddr ip mask ∧ a ≠ broadcastAddr ip mask

def GoodPool (cfg : SvrCfg) (ip mask : UInt32) : Prop :=
  cfg.startIp ≤ cfg.endIp ∧
    ∀ a, cfg.startIp ≤ a → a ≤ cfg.endIp → IsHost ip mask a ∧ a ≠ cfg.serverIp

section Subnet

variable {p : Nat} (ip : UInt32)

lemma toNat_maskOf : (maskOf p).toNat = 2 ^ 32 - 2 ^ (32 - p) :=
  UInt32.toNat_ofNat_of_lt' (Nat.sub_lt (by decide) (Nat.two_pow_pos _))

lemma toNat_networkAddr : (networkAddr ip (maskOf p)).toNat = ip.toNat / 2 ^ (32 - p) * 2 ^ (32 - p) := by
  rw [networkAddr, UInt32.toNat_and, toNat_maskOf, and_high _ _ (by omega), Nat.mod_eq_of_lt ip.toNat_lt]

lemma toNat_broadcastAddr : (broadcastAddr ip (maskOf p)).toNat =
    (networkAddr ip (maskOf p)).toNat + (2 ^ (32 - p) - 1) := by
  have pos := Nat.two_pow_pos (32 - p)
  have rest : (~~~maskOf p).toNat = 2 ^ (32 - p) - 1 := by
    have le : 2 ^ (32 - p) ≤ 2 ^ 32 := Nat.pow_le_pow_right (by decide) (by omega)
    rw [UInt32.toNat_not, toNat_maskOf, UInt32.size]
    omega
  rw [broadcastAddr, UInt32.toNat_or, rest, toNat_networkAddr, Nat.mul_comm]
  exact (Nat.two_pow_add_eq_or_of_lt (by omega) _).symm

lemma isHost_iff (a : UInt32) : IsHost ip (maskOf p) a ↔
    (networkAddr ip (maskOf p)).toNat < a.toNat ∧ a.toNat < (broadcastAddr ip (maskOf p)).toNat := by
  have pos := Nat.two_pow_pos (32 - p)
  have same : networkAddr a (maskOf p) = networkAddr ip (maskOf p) ↔
      (networkAddr ip (maskOf p)).toNat ≤ a.toNat ∧ a.toNat ≤ (broadcastAddr ip (maskOf p)).toNat := by
    rw [← UInt32.toNat_inj, toNat_broadcastAddr, toNat_networkAddr, toNat_networkAddr,
      Nat.mul_left_inj (by omega), Nat.div_eq_iff pos]
    omega
  rw [IsHost, same, ne_eq, ne_eq, ← UInt32.toNat_inj, ← UInt32.toNat_inj]
  omega

end Subnet

lemma dhcpdIpSettings_pool {ip mask : UInt32} (above : (networkAddr ip mask).toNat < ip.toNat)
    (below : ip.toNat < (broadcastAddr ip mask).toNat) :
    let cfg := dhcpdIpSettings ip mask
    let n := (networkAddr ip mask).toNat
    let b := (broadcastAddr ip mask).toNat
    cfg.serverIp = ip ∧
    (ip.toNat + 100 < 2 ^ 32 ∧ ip.toNat + 1 < b ∧
        cfg.startIp.toNat = ip.toNat + 1 ∧ cfg.endIp.toNat = min (ip.toNat + 100) (b - 1) ∨
      ¬ (ip.toNat + 100 < 2 ^ 32 ∧ ip.toNat + 1 < b) ∧ cfg.startIp.toNat = n + 1 ∧
        cfg.endIp.toNat = if n + 11 < 2 ^ 32 then min (n + 11) (b - 1) else n + 11 - 2 ^ 32) := by
  have high := (broadcastAddr ip mask).toNat_lt
  have first : (networkAddr ip mask + 1).toNat = (networkAddr ip mask).toNat + 1 := by
    rw [UInt32.toNat_add]
    exact Nat.mod_eq_of_lt (show _ + 1 < _ by omega)
  have second : (ip + 1).toNat = ip.toNat + 1 := by
    rw [UInt32.toNat_add]
    exact Nat.mod_eq_of_lt (show _ + 1 < _ by omega)
  have hundredth : (ip + 100).toNat = (ip.toNat + 100) % 2 ^ 32 := UInt32.toNat_add ..
  have eleventh : (networkAddr ip mask + 1 + 10).toNat = ((networkAddr ip mask).toNat + 11) % 2 ^ 32 := by
    rw [UInt32.toNat_add, first]
    rfl
  have last : (broadcastAddr ip mask - 1).toNat = (broadcastAddr ip mask).toNat - 1 :=
    UInt32.toNat_sub_of_le _ _ (UInt32.le_iff_toNat_le.mpr (show 1 ≤ _ by omega))
  have lowest : ip &&& mask = networkAddr ip mask := rfl
  have highest : networkAddr ip mask ||| ~~~mask = broadcastAddr ip mask := rfl
  simp only [dhcpdIpSettings, lowest, highest]
  generalize networkAddr ip mask = net at *
  generalize broadcastAddr ip mask = bc at *
  have stop : (if (if net + 1 + 10 < bc then net + 1 + 10 else bc - 1) > bc - 1 then bc - 1 else
      if net + 1 + 10 < bc then net + 1 + 10 else bc - 1).toNat =
        if net.toNat + 11 < 2 ^ 32 then min (net.toNat + 11) (bc.toNat - 1) else net.toNat + 11 - 2 ^ 32 := by
    by_cases inside : net + 1 + 10 < bc
    · rw [if_pos inside]
      rw [UInt32.lt_iff_toNat_lt, eleventh] at inside
      rw [if_neg (by rw [gt_iff_lt, UInt32.lt_iff_toNat_lt, last, eleventh]; omega), eleventh]
      split <;> omega
    · rw [if_neg inside, if_neg (UInt32.lt_irrefl _), last]
      rw [UInt32.lt_iff_toNat_lt, eleventh] at inside
      split <;> omega
  have start : (if ip + 1 ≤ net then net + 1 else ip + 1) = ip + 1 :=
    if_neg (by rw [UInt32.le_iff_toNat_le, second]; omega)
  have final : (if ip + 100 ≥ bc then bc - 1 else ip + 100).toNat = min ((ip.toNat + 100) % 2 ^ 32) (bc.toNat - 1) := by
    split <;> rename_i past <;> rw [ge_iff_le, UInt32.le_iff_toNat_le, hundredth] at past <;> omega
  simp only [start]
  by_cases behind : ip.toNat + 100 < 2 ^ 32 ∧ ip.toNat + 1 < bc.toNat
  · rw [if_neg (by rw [gt_iff_lt, UInt32.lt_iff_toNat_lt, second, final]; omega)]
    exact ⟨rfl, .inl ⟨behind.1, behind.2, second, by rw [final]; omega⟩⟩
  · rw [if_pos (by rw [gt_iff_lt, UInt32.lt_iff_toNat_lt, second, final]; omega)]
    exact ⟨rfl, .inr ⟨behind, first, stop⟩⟩

/-- For a contiguous netmask and a host address the pool is good exactly if the server is not among the first
eleven addresses of the subnet, or the pool can start behind it. -/
theorem goodPool_iff (p : Nat) (ip : UInt32) (host : IsHost ip (maskOf p) ip) :
    GoodPool (dhcpdIpSettings ip (maskOf p)) ip (maskOf p) ↔
      (networkAddr ip (maskOf p)).toNat + 11 < ip.toNat ∨
        ip.toNat + 100 < 2 ^ 32 ∧ ip.toNat + 1 < (broadcastAddr ip (maskOf p)).toNat := by
  have high := (broadcastAddr ip (maskOf p)).toNat_lt
  rw [isHost_iff] at host
  obtain ⟨server, pool⟩ := dhcpdIpSettings_pool host.1 host.2
  simp only [GoodPool, isHost_iff, server]
  simp only [UInt32.le_iff_toNat_le, ne_eq, ← UInt32.toNat_inj]
  generalize (networkAddr ip (maskOf p)).toNat = n at *
  generalize (broadcastAddr ip (maskOf p)).toNat = b at *
  constructor
  · rintro ⟨order, hosts⟩
    by_contra bad
    rw [not_or] at bad
    rcases pool with ⟨fits, room, -⟩ | ⟨-, start, final⟩
    · exact bad.2 ⟨fits, room⟩
    rw [start, final] at hosts order
    split at hosts
    · exact (hosts ip (by omega) (by omega)).2 rfl
    · rename_i wraps
      rw [if_neg wraps] at order
      omega
  · intro good
    rcases pool with ⟨fits, room, start, final⟩ | ⟨fallback, start, final⟩
    · rw [start, final]
      exact ⟨by omega, fun a _ _ => by omega⟩
    · rw [if_pos (by omega)] at final
      rw [start, final]
      exact ⟨by omega, fun a _ _ => by omega⟩

/-- The server 192.168.1.1 in a network of 24 bits. -/
theorem goodPool_home : GoodPool (dhcpdIpSettings 0xC0A80101 (maskOf 24)) 0xC0A80101 (maskOf 24) :=
  (goodPool_iff 24 0xC0A80101 ⟨by decide, by decide, by decide⟩).mpr
    (.inr ⟨by decide, by decide⟩)

/-- The last host of a network of 30 bits: its pool of two addresses holds the server. -/
theorem server_in_pool :
    let cfg := dhcpdIpSettings 0xC0A80102 (maskOf 30)
    IsHost 0xC0A80102 (maskOf 30) 0xC0A80102 ∧ cfg.startIp = 0xC0A80101 ∧ cfg.endIp = 0xC0A80102 ∧
      cfg.serverIp = 0xC0A80102 := by
  exact ⟨⟨by decide, by decide, by decide⟩, by decide, by decide, by decide⟩

end ResQBoot.Net
