import Mathlib.Algebra.Ring.Nat
import ResQBoot.Lib.Memory
import ResQBoot.Net.Leases

/-!
# From the frame to the UDP handler

`net_process_received_packet` of `net.c`. The buffer holds the frame and, behind it, whatever an earlier frame has left.
The configuration is that of the boards: no CDP, no defragmentation and no UDP checksum.
-/

namespace ResQBoot.Net

structure NetCfg where
  netIp : UInt32
  ourVlan : Nat
  nativeVlan : Nat

structure Frame where
  buf : Mem
  len : Nat
  int : len < 2 ^ 31

def Frame.bytes (f : Frame) : Bytes := f.buf.read 0 f.len

structure Datagram where
  pkt : Nat
  dport : Nat
  sip : UInt32
  sport : Nat
  len : Nat
  deriving DecidableEq, Repr

def be16 (m : Mem) (a : Nat) : Nat := (m a).toNat * 256 + (m (a + 1)).toNat

def vlanId (vlan : Nat) : Nat := if vlan = 0xFFFF then 4095 else vlan

def etherFormat (cfg : NetCfg) (buf : Mem) (len : Nat) : Option (Nat × Nat × Nat) :=
  if be16 buf 12 < 1514 then some (be16 buf 20, 22, 4095)
  else if be16 buf 12 ≠ 0x8100 then some (be16 buf 12, 14, 4095)
  else if len < 18 then none
  else if cfg.ourVlan % 4096 = 4095 then none
  else some (be16 buf 16, 18, be16 buf 14 % 4096)

def vlanAccepts (cfg : NetCfg) (vlanid : Nat) : Bool :=
  vlanId cfg.ourVlan % 4096 = 4095 ||
    (if vlanid = 4095 then vlanId cfg.nativeVlan % 4096 else vlanid) = vlanId cfg.ourVlan % 4096

def ipChecksumOk (buf : Mem) (ip : Nat) : Bool :=
  let sum := ((List.range 10).map fun i => (buf (ip + 2 * i)).toNat + 256 * (buf (ip + 2 * i + 1)).toNat).sum
  let sum := sum / 0x10000 + sum % 0x10000
  let sum := sum + sum / 0x10000
  (0xFFFF - sum % 0x10000) / 2 = 0

def ipPacket (cfg : NetCfg) (buf : Mem) (ip : Nat) (len : Int) : Option Datagram :=
  if 0 ≤ len ∧ len < 28 then none
  else if len < be16 buf (ip + 2) then none
  else if (buf ip).toNat / 16 ≠ 4 then none
  else if (buf ip).toNat % 16 > 5 then none
  else if !ipChecksumOk buf ip then none
  else
    let dstIp := be32 (buf.read (ip + 16) 4)
    if cfg.netIp ≠ 0 ∧ dstIp ≠ cfg.netIp ∧ dstIp ≠ 0xFFFFFFFF then none
    else if be16 buf (ip + 6) % 0x4000 ≠ 0 then none
    else if buf (ip + 9) ≠ 17 then none
    else
      some ⟨ip + 28, be16 buf (ip + 22), be32 (buf.read (ip + 12) 4), be16 buf (ip + 20),
        (be16 buf (ip + 24) + 2 ^ 32 - 8) % 2 ^ 32⟩

def netProcessReceivedPacket (cfg : NetCfg) (f : Frame) : Option Datagram :=
  if f.len < 14 then none
  else
    match etherFormat cfg f.buf f.len with
    | none => none
    | some (proto, ip, vlanid) =>
      if vlanAccepts cfg vlanid ∧ proto = 0x0800 then ipPacket cfg f.buf ip (f.len - ip) else none

def Frame.payload (f : Frame) (d : Datagram) : Bytes := f.buf.read d.pkt d.len

section Bounds

variable {cfg : NetCfg} {buf buf' : Mem} {len ip : Nat} {d : Datagram}

lemma be16_lt (m : Mem) (a : Nat) : be16 m a < 2 ^ 16 := by
  have hi := (m a).toNat_lt
  have lo := (m (a + 1)).toNat_lt
  rw [be16]
  omega

lemma ipPacket_some {l : Int} (ok : ipPacket cfg buf ip l = some d) :
    28 ≤ l ∧ d.pkt = ip + 28 ∧ d.len = (be16 buf (ip + 24) + 2 ^ 32 - 8) % 2 ^ 32 := by
  rw [ipPacket] at ok
  split at ok
  · cases ok
  rename_i big
  split at ok
  · cases ok
  rename_i fits
  have pos := Int.natCast_nonneg (be16 buf (ip + 2))
  simp only at ok
  split_ifs at ok
  cases ok
  exact ⟨by omega, rfl, rfl⟩

lemma netProcess_some {f : Frame} (ok : netProcessReceivedPacket cfg f = some d) :
    14 ≤ f.len ∧ ∃ ip vlanid, etherFormat cfg f.buf f.len = some (0x0800, ip, vlanid) ∧
      vlanAccepts cfg vlanid = true ∧ ipPacket cfg f.buf ip (f.len - ip) = some d := by
  rw [netProcessReceivedPacket] at ok
  split at ok
  · cases ok
  rename_i long
  split at ok
  · cases ok
  rename_i proto ip vlanid format
  split at ok
  · rename_i accepts
    obtain ⟨vlan, rfl⟩ := accepts
    exact ⟨by omega, ip, vlanid, format, vlan, ok⟩
  · cases ok

section

variable (same : ∀ x, x < len → buf x = buf' x)
include same

lemma be16_congr {a : Nat} (inside : a + 2 ≤ len) :
    be16 buf a = be16 buf' a := by
  rw [be16, be16, same a (by omega), same (a + 1) (by omega)]

lemma be32_congr {a : Nat} (inside : a + 4 ≤ len) :
    be32 (buf.read a 4) = be32 (buf'.read a 4) := by
  rw [Mem.read_congr fun x _ below => same x (by omega)]

lemma ipChecksumOk_congr (inside : ip + 20 ≤ len) :
    ipChecksumOk buf ip = ipChecksumOk buf' ip := by
  have words : ((List.range 10).map fun i =>
        (buf (ip + 2 * i)).toNat + 256 * (buf (ip + 2 * i + 1)).toNat) =
      (List.range 10).map fun i =>
        (buf' (ip + 2 * i)).toNat + 256 * (buf' (ip + 2 * i + 1)).toNat := by
    refine List.map_congr_left fun i below => ?_
    have := List.mem_range.mp below
    rw [same (ip + 2 * i) (by omega), same (ip + 2 * i + 1) (by omega)]
  rw [ipChecksumOk, ipChecksumOk, words]

lemma ipPacket_congr {l : Int} (inside : ip + 28 ≤ len) :
    ipPacket cfg buf ip l = ipPacket cfg buf' ip l := by
  have sum : ipChecksumOk buf ip = ipChecksumOk buf' ip := ipChecksumOk_congr same (by omega)
  simp only [ipPacket, be16_congr (a := ip + 2) same (by omega), be16_congr (a := ip + 6) same (by omega),
    be16_congr (a := ip + 20) same (by omega), be16_congr (a := ip + 22) same (by omega),
    be16_congr (a := ip + 24) same (by omega), be32_congr (a := ip + 12) same (by omega),
    be32_congr (a := ip + 16) same (by omega), sum,
    same ip (by omega), same (ip + 9) (by omega)]

lemma etherFormat_congr {proto vlanid : Nat} (long : 14 ≤ len)
    (format : etherFormat cfg buf len = some (proto, ip, vlanid)) (inside : ip ≤ len) :
    etherFormat cfg buf' len = some (proto, ip, vlanid) := by
  have kind := be16_congr (a := 12) same (by omega)
  rw [etherFormat] at format ⊢
  rw [← kind]
  split at format
  · -- A header of 802.2, whose protocol field is at its end.
    obtain ⟨rfl, rest⟩ := Prod.mk.inj (Option.some.inj format)
    obtain ⟨rfl, rfl⟩ := Prod.mk.inj rest
    rw [if_pos (by assumption), be16_congr (a := 20) same (by omega)]
  · rename_i ether
    rw [if_neg ether]
    split at format
    · rename_i untagged
      rw [if_pos untagged]
      exact format
    rename_i tagged
    rw [if_neg tagged]
    split at format
    · cases format
    · rename_i tag
      rw [if_neg tag, ← be16_congr (a := 16) same (by omega), ← be16_congr (a := 14) same (by omega)]
      exact format

end

end Bounds

lemma netProcess_congr {cfg : NetCfg} {f f' : Frame} {d : Datagram} (same : f'.bytes = f.bytes)
    (ok : netProcessReceivedPacket cfg f = some d) : netProcessReceivedPacket cfg f' = some d := by
  have length : f'.len = f.len := by simpa [Frame.bytes] using congrArg List.length same
  have bytes : ∀ x, x < f.len → f.buf x = f'.buf x := by
    intro x below
    rw [Frame.bytes, Frame.bytes, length, Mem.read_eq_iff] at same
    simpa using (same x below).symm
  obtain ⟨long, ip, vlanid, format, vlan, packet⟩ := netProcess_some ok
  have headers := (ipPacket_some packet).1
  have format' := etherFormat_congr bytes long format (by omega)
  rw [ipPacket_congr bytes (by omega)] at packet
  rw [netProcessReceivedPacket, length, if_neg (by omega), format']
  simp only [vlan, true_and, if_true]
  exact packet

lemma dhcpdHandler_length {clock : Nat → UInt32} {cfg : SvrCfg} {s : Dhcpd} {pkt : Bytes}
    (reply : (dhcpdHandler clock cfg s pkt).1 ≠ none) : vendOff ≤ pkt.length := by
  rw [dhcpdHandler] at reply
  split at reply
  · rename_i dhcp
    exact dhcp.1
  · exact absurd rfl reply

/-- The length that the handler gets stays inside the frame exactly when the length of the UDP header
covers that header and ends with the frame or before. Then every byte that the handler can look at is
one of the frame, whatever else is in the buffer, and so is the fixed part of a request that is replied
to. -/
theorem dhcp_length_iff (cfg : NetCfg) (f : Frame) (d : Datagram)
    (ok : netProcessReceivedPacket cfg f = some d) :
    (d.len ≤ f.len - d.pkt ↔
      8 ≤ be16 f.buf (d.pkt - 4) ∧ d.pkt - 8 + be16 f.buf (d.pkt - 4) ≤ f.len) ∧
    (d.len ≤ f.len - d.pkt →
      (∀ f' : Frame, f'.bytes = f.bytes →
        netProcessReceivedPacket cfg f' = some d ∧ f'.payload d = (f.bytes.drop d.pkt).take d.len) ∧
      ∀ clock svr s, (dhcpdHandler clock svr s (f.payload d)).1 ≠ none → d.pkt + vendOff ≤ f.len) := by
  obtain ⟨-, ip, -, -, -, packet⟩ := netProcess_some ok
  obtain ⟨headers, start, length⟩ := ipPacket_some packet
  have small := be16_lt f.buf (ip + 24)
  have int := f.int
  have field : d.pkt - 4 = ip + 24 := by omega
  refine ⟨?_, fun inside => ⟨fun f' same => ⟨netProcess_congr same ok, ?_⟩, fun clock svr s reply => ?_⟩⟩
  · rw [field, length, start]
    omega
  · have length' : f'.len = f.len := by simpa [Frame.bytes] using congrArg List.length same
    have room : f.len = d.pkt + (f.len - d.pkt) := by omega
    rw [← same, Frame.bytes, Frame.payload, length', room, Mem.drop_read, Mem.take_read _ _ inside,
      Nat.zero_add]
  · have fixed := dhcpdHandler_length reply
    rw [Frame.payload, Mem.length_read] at fixed
    omega

def emptyPacket (udpLen : UInt8) : Bytes :=
  List.replicate 6 0xFF ++ [2, 0, 0, 0, 0, 1, 8, 0] ++
    [0x45, 0, 0, 28, 0, 0, 0, 0, 64, 17, 0xB8, 0xDC, 192, 168, 1, 77, 255, 255, 255, 255] ++
    [0, 68, 0, 67, 0, udpLen, 0, 0]

def emptyFrame (udpLen : UInt8) : Frame :=
  ⟨fun a => (emptyPacket udpLen ++ discoverPacket).getD a 0, 42, by decide⟩

def plainNet : NetCfg := ⟨0xC0A80101, 0xFFFF, 0xFFFF⟩

/-- A UDP header that tells the truth: the handler gets no bytes. -/
theorem dhcp_length_honest :
    let d : Datagram := ⟨42, 67, 0xC0A8014D, 68, 0⟩
    netProcessReceivedPacket plainNet (emptyFrame 8) = some d ∧ d.len ≤ (emptyFrame 8).len - d.pkt :=
  ⟨by decide, (dhcp_length_iff plainNet (emptyFrame 8) ⟨42, 67, 0xC0A8014D, 68, 0⟩
    (by decide)).1.mpr (by decide)⟩

/-- A UDP header that says 251: the handler gets the 243 bytes behind the frame, and an OFFER is sent for
a DISCOVER that was not received. -/
theorem dhcp_length_forged :
    let f := emptyFrame 251
    let d : Datagram := ⟨42, 67, 0xC0A8014D, 68, 243⟩
    let svr := dhcpdIpSettings 0xC0A80101 0xFFFFFF00
    netProcessReceivedPacket plainNet f = some d ∧ f.len - d.pkt = 0 ∧
      (dhcpdHandler (fun _ => 0) svr dhcpdInitServer (f.payload d)).1 = some (.offer 0xC0A80102) := by
  decide +kernel

end ResQBoot.Net
