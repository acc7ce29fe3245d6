import Mathlib.Algebra.Order.Group.Nat
import ResQBoot.Lib.Numeral
import ResQBoot.Net.Fallback
import ResQBoot.Net.Leases
import ResQBoot.Net.Pool

/-!
# The recovery address

`httpd ADDR`: the address is checked by `httpd_parse_ipv4`, put into the environment as it was typed, and read again by
`string_to_ip`. Both read an octet with `simple_strtoul`.
-/

namespace ResQBoot.Net

variable {s : Bytes} {val : Nat}

def stringToIpLoop : Nat → UInt32 → Bytes → UInt32
  | 0, addr, _ => addr
  | n + 1, addr, s =>
    let r := simpleStrto 32 10 s
    stringToIpLoop n (addr <<< 8 ||| (UInt32.ofNat r.1 &&& 0xFF)) (if r.2.headD 0 ≠ 0 then r.2.tail else r.2)

def stringToIp (s : Bytes) : UInt32 := stringToIpLoop 4 0 s

def httpdMakeServerip (octets : List Nat) : Bytes :=
  let host := if octets.getD 3 0 = 1 then 2 else 1
  decimal (octets.getD 0 0) ++ 46 :: decimal (octets.getD 1 0) ++ 46 :: decimal (octets.getD 2 0) ++ 46 :: decimal host

structure Recovery where
  ipaddr : Bytes
  serverip : Bytes
  netmask : Bytes
  netHttpdIp : UInt32
  netServerIp : UInt32
  netNetmask : UInt32

def httpdSetRecoveryNetwork (ipaddr serverip : Bytes) (httpdIp : UInt32) : Recovery where
  ipaddr := ipaddr
  serverip := serverip
  netmask := bytes "255.255.255.0"
  netHttpdIp := httpdIp
  netServerIp := stringToIp serverip
  netNetmask := stringToIp (bytes "255.255.255.0")

def recoveryNetwork (arg : Option Bytes) : Option Recovery :=
  match arg with
  | some ipaddr => (httpdParseIpv4 ipaddr).map fun x =>
      httpdSetRecoveryNetwork ipaddr (httpdMakeServerip x.1) x.2
  | none => some (httpdSetRecoveryNetwork (bytes "192.168.1.1") (bytes "192.168.1.2") (stringToIp (bytes "192.168.1.1")))

def Recovery.settings (r : Recovery) : SvrCfg := dhcpdIpSettings (stringToIp r.ipaddr) (stringToIp r.netmask)

def network24 (addr : UInt32) : UInt32 := addr &&& 0xFFFFFF00

def UsableHost (addr : UInt32) : Prop := addr ≠ network24 addr ∧ addr ≠ network24 addr ||| 0xFF

/-! ## The octets -/

lemma push_toNat (addr : UInt32) (small : val ≤ 255) :
    (addr <<< 8 ||| UInt32.ofNat val).toNat = (addr.toNat * 256 + val) % 2 ^ 32 := by
  have value : (UInt32.ofNat val).toNat = val := Nat.mod_eq_of_lt (by omega)
  have shifted : (addr <<< 8).toNat = (addr.toNat % 2 ^ 24) <<< 8 := by
    rw [UInt32.toNat_shiftLeft, Nat.shiftLeft_eq, Nat.shiftLeft_eq]
    change addr.toNat * 2 ^ 8 % 2 ^ 32 = _
    omega
  rw [UInt32.toNat_or, value, shifted, ← Nat.shiftLeft_add_eq_or_of_lt (by omega), Nat.shiftLeft_eq]
  omega

lemma parseOctets_succ {n : Nat} {vs : List Nat} (parsed : parseOctets (n + 1) s = some vs) :
    ∃ val rest, simpleStrto 32 10 s = (val, rest) ∧ val ≤ 255 ∧ (n = 0 ∧ rest = [] ∧ vs = [val] ∨
      ∃ p vs', rest = 46 :: p ∧ parseOctets n p = some vs' ∧ vs = val :: vs') := by
  rw [parseOctets] at parsed
  cases read : simpleStrto 32 10 s with
  | mk val rest =>
    rw [read] at parsed
    dsimp only at parsed
    split_ifs at parsed with digit large last
    · obtain ⟨vs', later, rfl⟩ := Option.map_eq_some_iff.mp parsed
      rw [last, parseOctets] at later
      split_ifs at later with ends
      cases later
      exact ⟨val, rest, rfl, by omega, .inl ⟨last, ends, rfl⟩⟩
    · split at parsed
      · rename_i p
        obtain ⟨vs', later, rfl⟩ := Option.map_eq_some_iff.mp parsed
        exact ⟨val, 46 :: p, rfl, by omega, .inr ⟨p, vs', rfl, later, rfl⟩⟩
      · cases parsed

lemma stringToIpLoop_octet {rest : Bytes} (read : simpleStrto 32 10 s = (val, rest)) (small : val ≤ 255)
    (n : Nat) (addr : UInt32) : stringToIpLoop (n + 1) addr s =
      stringToIpLoop n (addr <<< 8 ||| UInt32.ofNat val) (if rest.headD 0 ≠ 0 then rest.tail else rest) := by
  have masked : UInt32.ofNat val &&& 0xFF = UInt32.ofNat val := by
    refine UInt32.toNat_inj.mp ?_
    have value : (UInt32.ofNat val).toNat = val := Nat.mod_eq_of_lt (by omega)
    rw [UInt32.toNat_and, value]
    exact (Nat.and_two_pow_sub_one_eq_mod val 8).trans (Nat.mod_eq_of_lt (by omega))
  rw [stringToIpLoop, read, masked]

lemma parseOctets_reads (n : Nat) : ∀ {s : Bytes} {vs : List Nat}, parseOctets (n + 1) s = some vs →
    vs.length = n + 1 ∧ (∀ v ∈ vs, v ≤ 255) ∧ ∀ addr, stringToIpLoop (n + 1) addr s = packOctets addr vs := by
  induction n with
  | zero =>
    intro s vs parsed
    obtain ⟨val, rest, read, small, ⟨-, rfl, rfl⟩ | ⟨p, vs', -, later, rfl⟩⟩ := parseOctets_succ parsed
    · refine ⟨rfl, by simpa using small, fun addr => ?_⟩
      rw [stringToIpLoop_octet read small]
      rfl
    rw [parseOctets] at later
    split_ifs at later
    cases later
    refine ⟨rfl, by simpa using small, fun addr => ?_⟩
    rw [stringToIpLoop_octet read small]
    rfl
  | succ n ih =>
    intro s vs parsed
    obtain ⟨val, rest, read, small, ⟨last, -⟩ | ⟨p, vs', rfl, later, rfl⟩⟩ := parseOctets_succ parsed
    · cases last
    · obtain ⟨len, all, same⟩ := ih later
      refine ⟨by simp [len], List.forall_mem_cons.mpr ⟨small, all⟩, fun addr => ?_⟩
      rw [stringToIpLoop_octet read small, if_pos (by simp), List.tail_cons, same]
      rfl

lemma parseOctets_printed {n : Nat} (small : val ≤ 255) :
    parseOctets 1 (decimal val) = some [val] ∧ ∀ p, parseOctets (n + 2) (decimal val ++ 46 :: p) =
      (parseOctets (n + 1) p).map (val :: ·) := by
  have digit (rest : Bytes) : ((decimal val ++ rest).head?.map isDigit).getD false = true := by
    cases eq : decimal val with
    | nil => exact absurd eq (decimal_ne_nil val)
    | cons c t => exact decimal_isDigit (n := val) (by rw [eq]; exact List.mem_cons_self)
  have value : val % 2 ^ 32 = val := Nat.mod_eq_of_lt (by omega)
  constructor
  · have read : simpleStrto 32 10 (decimal val ++ []) = (val % 2 ^ 32, []) :=
      simpleStrto_printed 32 val (by rintro c ⟨⟩)
    have digit := digit []
    rw [List.append_nil] at read digit
    rw [parseOctets, if_pos digit, read, value]
    dsimp only
    rw [if_neg (by omega)]
    rfl
  · intro p
    have read : simpleStrto 32 10 (decimal val ++ 46 :: p) = (val % 2 ^ 32, 46 :: p) :=
      simpleStrto_printed 32 val (by rintro c ⟨⟩; decide)
    rw [parseOctets, if_pos (digit _), read, value]
    dsimp only
    rw [if_neg (by omega), if_neg (by omega)]
    rfl

lemma packOctets_toNat {a b c d : Nat} (ha : a ≤ 255) (hb : b ≤ 255) (hc : c ≤ 255) (hd : d ≤ 255) :
    (packOctets 0 [a, b, c, d]).toNat = ((a * 256 + b) * 256 + c) * 256 + d := by
  have zero : (0 : UInt32).toNat = 0 := rfl
  simp only [packOctets, List.foldl_cons, List.foldl_nil]
  rw [push_toNat _ hd, push_toNat _ hc, push_toNat _ hb, push_toNat _ ha, zero]
  omega

/-! ## The network -/

lemma network24_toNat (addr : UInt32) : (network24 addr).toNat = (addr.toNat / 256) <<< 8 := by
  have mask : (0xFFFFFF00 : UInt32).toNat = (2 ^ 24 - 1) <<< 8 := rfl
  have high : addr.toNat / 256 = addr.toNat >>> 8 := (Nat.shiftRight_eq_div_pow addr.toNat 8).symm
  rw [network24, UInt32.toNat_and, mask, high]
  refine Nat.eq_of_testBit_eq fun i => ?_
  rw [Nat.testBit_and, Nat.testBit_shiftLeft, Nat.testBit_shiftLeft, Nat.testBit_shiftRight,
    Nat.testBit_two_pow_sub_one]
  by_cases low : 8 ≤ i
  · rw [Nat.add_sub_cancel' low]
    by_cases inside : i - 8 < 24
    · simp [low, inside]
    · have out : addr.toNat.testBit i = false := by
        refine Nat.testBit_lt_two_pow (Nat.lt_of_lt_of_le addr.toNat_lt (Nat.pow_le_pow_right (by decide) ?_))
        omega
      simp [out]
  · simp [low]

lemma usableHost_iff (addr : UInt32) : UsableHost addr ↔ addr.toNat % 256 ≠ 0 ∧ addr.toNat % 256 ≠ 255 := by
  have ones : (0xFF : UInt32).toNat = 255 := rfl
  have broadcast : (network24 addr ||| 0xFF).toNat = addr.toNat / 256 * 256 + 255 := by
    rw [UInt32.toNat_or, network24_toNat, ones, ← Nat.shiftLeft_add_eq_or_of_lt (by omega), Nat.shiftLeft_eq]
  rw [UsableHost, ne_eq, ne_eq, ← UInt32.toNat_inj, ← UInt32.toNat_inj, broadcast, network24_toNat, Nat.shiftLeft_eq]
  omega

lemma network24_eq_iff (a b : UInt32) : network24 a = network24 b ↔ a.toNat / 256 = b.toNat / 256 := by
  rw [← UInt32.toNat_inj, network24_toNat, network24_toNat, Nat.shiftLeft_eq, Nat.shiftLeft_eq]
  omega

/-! ## Accepted addresses -/

lemma httpdParseIpv4_spec {octets : List Nat} {addr : UInt32}
    (accepted : httpdParseIpv4 s = some (octets, addr)) :
    ∃ a b c d, octets = [a, b, c, d] ∧ a ≤ 255 ∧ b ≤ 255 ∧ c ≤ 255 ∧ 0 < d ∧ d < 255 ∧
      addr = packOctets 0 octets ∧ stringToIp s = addr := by
  obtain ⟨vs, parsed, rest⟩ := Option.bind_eq_some_iff.mp accepted
  dsimp only at rest
  split_ifs at rest with bad
  obtain ⟨rfl, rfl⟩ := Prod.mk.inj (Option.some.inj rest)
  obtain ⟨len, small, same⟩ := parseOctets_reads 3 parsed
  obtain ⟨a, b, c, d, rfl⟩ := List.length_eq_four.mp len
  simp only [List.forall_mem_cons, List.not_mem_nil, false_imp_iff, implies_true, and_true] at small
  have last : ¬ (d = 0 ∨ d = 255) := fun either => bad (.inr either)
  exact ⟨a, b, c, d, rfl, small.1, small.2.1, small.2.2.1, by omega, by omega, rfl, same 0⟩

lemma httpdParseIpv4_printed {a b c d : Nat} (ha : a ≤ 255) (hb : b ≤ 255) (hc : c ≤ 255) (pos : 0 < d) (hd : d < 255) :
    httpdParseIpv4 (decimal a ++ 46 :: decimal b ++ 46 :: decimal c ++ 46 :: decimal d) =
      some ([a, b, c, d], packOctets 0 [a, b, c, d]) := by
  have parsed : parseOctets 4 (decimal a ++ 46 :: decimal b ++ 46 :: decimal c ++ 46 :: decimal d) = some [a, b, c, d] := by
    rw [List.append_assoc, List.append_assoc, List.cons_append, List.cons_append, (parseOctets_printed ha).2,
      (parseOctets_printed hb).2, (parseOctets_printed hc).2,
      (parseOctets_printed (n := 0) (Nat.le_of_lt hd)).1]
    rfl
  have nonzero : packOctets 0 [a, b, c, d] ≠ 0 := by
    intro zero
    have value := packOctets_toNat ha hb hc (Nat.le_of_lt hd)
    rw [zero] at value
    change 0 = _ at value
    omega
  have ends : ¬ (packOctets 0 [a, b, c, d] = 0 ∨ [a, b, c, d].getD 3 0 = 0 ∨ [a, b, c, d].getD 3 0 = 255) := by
    change ¬ (packOctets 0 [a, b, c, d] = 0 ∨ d = 0 ∨ d = 255)
    rintro (zero | zero | full)
    · exact nonzero zero
    · omega
    · omega
  rw [httpdParseIpv4, parsed, Option.bind_some, if_neg ends]

lemma httpdMakeServerip_printed (a b c d : Nat) : ∃ host, httpdMakeServerip [a, b, c, d] =
    decimal a ++ 46 :: decimal b ++ 46 :: decimal c ++ 46 :: decimal host ∧ host ≠ d ∧ 0 < host ∧ host < 255 := by
  refine ⟨if d = 1 then 2 else 1, rfl, ?_⟩
  split_ifs <;> omega

section Hosts

variable {a b c d d' : Nat} (ha : a ≤ 255) (hb : b ≤ 255) (hc : c ≤ 255) (pos : 0 < d) (hd : d < 255)

include ha hb hc hd

include pos in
lemma usableHost_pack : UsableHost (packOctets 0 [a, b, c, d]) := by
  rw [usableHost_iff, packOctets_toNat ha hb hc (Nat.le_of_lt hd)]
  omega

lemma hosts_pack (hd' : d' < 255) (other : d' ≠ d) : packOctets 0 [a, b, c, d'] ≠ packOctets 0 [a, b, c, d] ∧
    network24 (packOctets 0 [a, b, c, d']) = network24 (packOctets 0 [a, b, c, d]) := by
  rw [ne_eq, ← UInt32.toNat_inj, network24_eq_iff, packOctets_toNat ha hb hc (Nat.le_of_lt hd),
    packOctets_toNat ha hb hc (Nat.le_of_lt hd')]
  omega

end Hosts

lemma accepted_hosts {octets : List Nat} {addr : UInt32} (accepted : httpdParseIpv4 s = some (octets, addr)) :
    stringToIp s = addr ∧ UsableHost addr ∧ ∃ octets' addr',
      httpdParseIpv4 (httpdMakeServerip octets) = some (octets', addr') ∧
      stringToIp (httpdMakeServerip octets) = addr' ∧ UsableHost addr' ∧ addr' ≠ addr ∧
      network24 addr' = network24 addr := by
  obtain ⟨a, b, c, d, rfl, ha, hb, hc, pos, hd, rfl, same⟩ := httpdParseIpv4_spec accepted
  obtain ⟨host, text, other, hpos, hhost⟩ := httpdMakeServerip_printed a b c d
  have printed := httpdParseIpv4_printed ha hb hc hpos hhost
  obtain ⟨-, -, -, -, -, -, -, -, -, -, -, read⟩ := httpdParseIpv4_spec printed
  rw [text]
  refine ⟨same, usableHost_pack ha hb hc pos hd, _, _, printed, read, usableHost_pack ha hb hc hpos hhost, ?_⟩
  exact hosts_pack ha hb hc hd hhost other

/-- For an address that `httpd` accepts: the DHCP server reads the same address from the environment, it is a host of
its /24 network, and the server address made from it is accepted and read as another host of that network. -/
theorem recovery_address (s : Bytes) (octets : List Nat) (addr : UInt32)
    (accepted : httpdParseIpv4 s = some (octets, addr)) :
    stringToIp s = addr ∧ UsableHost addr ∧ ∃ octets' addr',
      httpdParseIpv4 (httpdMakeServerip octets) = some (octets', addr') ∧
      stringToIp (httpdMakeServerip octets) = addr' ∧ UsableHost addr' ∧ addr' ≠ addr ∧
      network24 addr' = network24 addr :=
  accepted_hosts accepted

/-- A numeral of each kind. -/
theorem recovery_address_sample : ∃ octets addr, httpdParseIpv4 (bytes "0x0a.007.4294967296.1") = some (octets, addr) ∧
    stringToIp (bytes "0x0a.007.4294967296.1") = addr ∧ UsableHost addr := by
  obtain ⟨⟨octets, addr⟩, accepted⟩ := Option.isSome_iff_exists.mp
    (show (httpdParseIpv4 (bytes "0x0a.007.4294967296.1")).isSome = true by decide)
  have both := recovery_address _ octets addr accepted
  exact ⟨octets, addr, accepted, both.1, both.2.1⟩

lemma dhcpdIpSettings_serverIp (ipAddr netmask : UInt32) : (dhcpdIpSettings ipAddr netmask).serverIp = ipAddr := by
  unfold dhcpdIpSettings
  dsimp only
  rw [apply_ite SvrCfg.serverIp, ite_self]

lemma recoveryNetwork_settings {arg : Option Bytes} {r : Recovery} (set : recoveryNetwork arg = some r) :
    r.settings.serverIp = r.netHttpdIp ∧ UsableHost r.netHttpdIp ∧ UsableHost r.netServerIp ∧
      r.netServerIp ≠ r.netHttpdIp ∧ network24 r.netServerIp = network24 r.netHttpdIp := by
  cases arg with
  | none =>
    cases set
    refine ⟨dhcpdIpSettings_serverIp .., ?_⟩
    rw [usableHost_iff, usableHost_iff]
    decide
  | some ipaddr =>
    obtain ⟨⟨octets, addr⟩, accepted, rfl⟩ := Option.map_eq_some_iff.mp set
    obtain ⟨same, usable, -, addr', -, read, others⟩ := accepted_hosts accepted
    simp only [httpdSetRecoveryNetwork, Recovery.settings, dhcpdIpSettings_serverIp, same, read, true_and]
    exact ⟨usable, others⟩

lemma settings24_pool {ip : UInt32} (usable : UsableHost ip) :
    let cfg := dhcpdIpSettings ip (maskOf 24)
    cfg.startIp ≤ cfg.endIp ∧ ∀ a, cfg.startIp ≤ a → a ≤ cfg.endIp →
      UsableHost a ∧ a ≠ ip ∧ network24 a = network24 ip := by
  rw [usableHost_iff] at usable
  have net : (networkAddr ip (maskOf 24)).toNat = ip.toNat / 256 * 256 := toNat_networkAddr ip
  have broadcast : (broadcastAddr ip (maskOf 24)).toNat = ip.toNat / 256 * 256 + 255 := by
    rw [toNat_broadcastAddr, net]
    rfl
  have high := ip.toNat_lt
  have above : (networkAddr ip (maskOf 24)).toNat < ip.toNat := by omega
  obtain ⟨-, pool⟩ := dhcpdIpSettings_pool above (by omega)
  rw [net, broadcast] at pool
  simp only [network24_eq_iff, usableHost_iff]
  simp only [UInt32.le_iff_toNat_le, ne_eq, ← UInt32.toNat_inj]
  generalize (dhcpdIpSettings ip (maskOf 24)).startIp.toNat = first at pool ⊢
  generalize (dhcpdIpSettings ip (maskOf 24)).endIp.toNat = last at pool ⊢
  split at pool <;> exact ⟨by omega, fun a _ _ => by omega⟩

/-- On a network that `httpd` has set up, whatever arrives and whenever, no two clients hold one address, and each holds a
host address of the web server's network that is not the web server's. -/
theorem recovery_leases (arg : Option Bytes) (r : Recovery) (set : recoveryNetwork arg = some r) (clock : Nat → UInt32)
    (pkts : List Bytes) :
    let leases := (runAll (receive clock r.settings) dhcpdInitServer pkts).leases
    Sound r.settings leases ∧ ∀ i, (leases i).used = true → UsableHost (leases i).ipAddr ∧
      (leases i).ipAddr ≠ r.netHttpdIp ∧ network24 (leases i).ipAddr = network24 r.netHttpdIp := by
  obtain ⟨server, usable, -⟩ := recoveryNetwork_settings set
  have mask : r.netmask = bytes "255.255.255.0" := by
    cases arg with
    | none =>
      cases set
      rfl
    | some ipaddr =>
      obtain ⟨x, -, rfl⟩ := Option.map_eq_some_iff.mp set
      rfl
  have settings : r.settings = dhcpdIpSettings r.netHttpdIp (maskOf 24) := by
    have bits : stringToIp (bytes "255.255.255.0") = maskOf 24 := by decide
    rw [← server, Recovery.settings, dhcpdIpSettings_serverIp, mask, bits]
  obtain ⟨order, hosts⟩ := settings24_pool usable
  rw [← settings] at order hosts
  have sound : Sound r.settings (runAll (receive clock r.settings) dhcpdInitServer pkts).leases :=
    receive_run_sound (.inl order) pkts _ (dhcpdInitServer_sound r.settings)
  exact ⟨sound, fun i used => hosts _ (sound.pool i used).1 (sound.pool i used).2⟩

theorem recovery_leases_home : ∃ r, recoveryNetwork none = some r ∧
    Sound r.settings (runAll (receive (fun _ => 0) r.settings) dhcpdInitServer [discoverPacket]).leases :=
  ⟨_, rfl, (recovery_leases none _ rfl (fun _ => 0) [discoverPacket]).1⟩

end ResQBoot.Net
