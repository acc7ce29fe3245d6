import Mathlib.Logic.Function.Basic
import Mathlib.Data.List.FinRange
import Mathlib.Data.Fin.Basic
import ResQBoot.Lib.Bytes
import ResQBoot.Lib.Machine

/-!
# The DHCP server

The lease table of `dhcpd.c` and everything that changes it. Every call of `get_timer` takes the next reading of the
clock, so the table is expired again by each of the small helpers. A helper that only looks something up can only drop
leases (`Fewer`), and a lease is added or moved by `Sound.place` alone. IP addresses are in host byte order.
-/

namespace ResQBoot.Net

def maxLeases : Nat := 32

structure Lease where
  used : Bool
  macAddr : Bytes
  ipAddr : UInt32
  leaseStart : UInt32
  leaseTime : UInt32

structure SvrCfg where
  serverIp : UInt32
  startIp : UInt32
  endIp : UInt32
  netmask : UInt32

abbrev Leases := Fin maxLeases → Lease

structure Dhcpd where
  leases : Leases
  ticks : Nat

inductive DhcpdErr where
  | invalidParam
  | notFound
  | outOfRange
  | invalidPacket
  | serverFull
  deriving DecidableEq, Repr

inductive Reply where
  | offer (yiaddr : UInt32)
  | ack (yiaddr : UInt32)
  | nak
  deriving DecidableEq, Repr

def dhcpdIpSettings (ipAddr netmask : UInt32) : SvrCfg :=
  let networkAddr := ipAddr &&& netmask
  let broadcastAddr := networkAddr ||| ~~~netmask
  let startIp := ipAddr + 1
  let endIp := ipAddr + 100
  let startIp := if startIp ≤ networkAddr then networkAddr + 1 else startIp
  let endIp := if endIp ≥ broadcastAddr then broadcastAddr - 1 else endIp
  if startIp > endIp then
    let startIp := networkAddr + 1
    let endIp := if startIp + 10 < broadcastAddr then startIp + 10 else broadcastAddr - 1
    let endIp := if endIp > broadcastAddr - 1 then broadcastAddr - 1 else endIp
    ⟨ipAddr, startIp, endIp, netmask⟩
  else ⟨ipAddr, startIp, endIp, netmask⟩

def dhcpdInitServer : Dhcpd := ⟨fun _ => ⟨false, [0, 0, 0, 0, 0, 0], 0, 0, 0⟩, 0⟩

section Server

variable (clock : Nat → UInt32) (cfg : SvrCfg)

def getTimer (base : UInt32) (s : Dhcpd) : UInt32 × Dhcpd :=
  (clock s.ticks - base, { s with ticks := s.ticks + 1 })

def Dhcpd.set (s : Dhcpd) (i : Fin maxLeases) (l : Lease) : Dhcpd :=
  { s with leases := Function.update s.leases i l }

def expireOne (s : Dhcpd) (i : Fin maxLeases) : Dhcpd :=
  let l := s.leases i
  if l.used && l.leaseTime ≠ 0 then
    let (t, s) := getTimer clock l.leaseStart s
    if t > l.leaseTime then s.set i { l with used := false } else s
  else s

@[irreducible]
def dhcpdExpireLeases (s : Dhcpd) : Dhcpd :=
  (List.finRange maxLeases).foldl (expireOne clock) s

def dhcpdFindLease (mac : Bytes) (s : Dhcpd) : Option (Fin maxLeases) × Dhcpd :=
  let s := dhcpdExpireLeases clock s
  ((List.finRange maxLeases).find? fun i => (s.leases i).used && (s.leases i).macAddr = mac, s)

def dhcpdIpInPool (ip : UInt32) : Bool := ip ≥ cfg.startIp && ip ≤ cfg.endIp

def dhcpdIpIsAllocated (ip : UInt32) (s : Dhcpd) : Bool × Dhcpd :=
  let s := dhcpdExpireLeases clock s
  ((List.finRange maxLeases).any fun i => (s.leases i).used && (s.leases i).ipAddr = ip, s)

def dhcpdIpAllocatedToMac (ip : UInt32) (mac : Bytes) (s : Dhcpd) : Bool × Dhcpd :=
  let s := dhcpdExpireLeases clock s
  ((List.finRange maxLeases).any fun i =>
    (s.leases i).used && (s.leases i).ipAddr = ip && (s.leases i).macAddr = mac, s)

def leaseHour : UInt32 := 3600 * 1000

def dhcpdCreateLease (mac : Bytes) (ip : UInt32) (i : Fin maxLeases) (s : Dhcpd) : Dhcpd :=
  let (now, s) := getTimer clock 0 s
  s.set i ⟨true, mac, ip, now, leaseHour⟩

def dhcpdGetAvailableLeaseSlot (s : Dhcpd) : Option (Fin maxLeases) × Dhcpd :=
  let s := dhcpdExpireLeases clock s
  ((List.finRange maxLeases).find? fun i => !(s.leases i).used, s)

def dhcpdTryAllocateIp (mac : Bytes) (ip : UInt32) (s : Dhcpd) : Except DhcpdErr UInt32 × Dhcpd :=
  match dhcpdGetAvailableLeaseSlot clock s with
  | (some i, s) => (.ok ip, dhcpdCreateLease clock mac ip i s)
  | (none, s) => (.error .serverFull, s)

def macHash (mac : Bytes) : UInt32 := mac.foldl (fun h b => h * 31 + b.toUInt32) 0

def findRandomIp (mac : Bytes) : Nat → UInt32 → Dhcpd → Option UInt32 × Dhcpd
  | 0, _, s => (none, s)
  | n + 1, attempt, s =>
    let (now, s) := getTimer clock 0 s
    let seed := macHash mac + now + attempt
    let randomIp := cfg.startIp + seed % (cfg.endIp - cfg.startIp + 1)
    match dhcpdIpIsAllocated clock randomIp s with
    | (false, s) => (some randomIp, s)
    | (true, s) => findRandomIp mac n (attempt + 1) s

def findLinearIp : Nat → UInt32 → Dhcpd → Option UInt32 × Dhcpd
  | 0, _, s => (none, s)
  | n + 1, currentIp, s =>
    match dhcpdIpIsAllocated clock currentIp s with
    | (false, s) => (some currentIp, s)
    | (true, s) => findLinearIp n (if currentIp < cfg.endIp then currentIp + 1 else cfg.startIp) s

def dhcpdAllocIp (mac : Bytes) (s : Dhcpd) : Except DhcpdErr UInt32 × Dhcpd :=
  match (List.finRange maxLeases).find? fun i => (s.leases i).used && (s.leases i).macAddr = mac with
  | some i =>
    let (now, s) := getTimer clock 0 s
    (.ok (s.leases i).ipAddr, s.set i { s.leases i with leaseStart := now })
  | none =>
    let totalIps := cfg.endIp - cfg.startIp + 1
    let maxAttempts := if totalIps < 100 then totalIps.toNat else 100
    match findRandomIp clock cfg mac maxAttempts 0 s with
    | (some ip, s) => dhcpdTryAllocateIp clock mac ip s
    | (none, s) =>
      match findLinearIp clock cfg totalIps.toInt32.toInt.toNat cfg.startIp s with
      | (some ip, s) => dhcpdTryAllocateIp clock mac ip s
      | (none, s) => (.error .serverFull, s)

def dhcpdValidateRequest (reqIp : UInt32) : Except DhcpdErr Unit :=
  if reqIp &&& cfg.netmask ≠ cfg.serverIp &&& cfg.netmask then .error .invalidPacket
  else if !dhcpdIpInPool cfg reqIp then .error .outOfRange
  else .ok ()

def ipTaken (ip : UInt32) (mac : Bytes) (s : Dhcpd) : Bool × Dhcpd :=
  match dhcpdIpIsAllocated clock ip s with
  | (true, s) =>
    let (own, s) := dhcpdIpAllocatedToMac clock ip mac s
    (!own, s)
  | (false, s) => (false, s)

def dhcpdProcessLease (mac : Bytes) (reqIp : UInt32) (s : Dhcpd) : Except DhcpdErr UInt32 × Dhcpd :=
  let (lease, s) := dhcpdFindLease clock mac s
  let (taken, s) := ipTaken clock reqIp mac s
  if taken then dhcpdAllocIp clock cfg mac s
  else
    match lease with
    | some i =>
      let (now, s) := getTimer clock 0 s
      (.ok reqIp, s.set i { s.leases i with ipAddr := reqIp, leaseStart := now, leaseTime := leaseHour })
    | none =>
      match dhcpdGetAvailableLeaseSlot clock s with
      | (none, s) => (.error .serverFull, s)
      | (some i, s) => (.ok reqIp, dhcpdCreateLease clock mac reqIp i s)

def dhcpdHandleDiscover (mac : Bytes) (s : Dhcpd) : Except DhcpdErr UInt32 × Dhcpd :=
  match dhcpdFindLease clock mac s with
  | (none, s) => dhcpdAllocIp clock cfg mac s
  | (some i, s) =>
    let (taken, s) := ipTaken clock (s.leases i).ipAddr mac s
    if taken then
      dhcpdAllocIp clock cfg mac (s.set i { s.leases i with used := false, macAddr := [0, 0, 0, 0, 0, 0] })
    else (.ok (s.leases i).ipAddr, s)

/-! ### Packets -/

def vendOff : Nat := 236

def dhcpMagicCookie : Bytes := [99, 130, 83, 99]

def parseOptionLoop (code : UInt8) (expectedLen : Nat) : Nat → Bytes → Option Bytes
  | 0, _ => none
  | fuel + 1, opt =>
    match opt with
    | [] => none
    | c :: rest =>
      if c = 0 then parseOptionLoop code expectedLen fuel rest
      else if c = 255 then none
      else
        match rest with
        | [] => none
        | olen :: body =>
          if olen.toNat > body.length then none
          else if c = code ∧ (expectedLen = 0 ∨ olen.toNat = expectedLen) then some (body.take olen.toNat)
          else parseOptionLoop code expectedLen fuel (body.drop olen.toNat)

def dhcpdParseOption (pkt : Bytes) (code : UInt8) (expectedLen : Nat) : Except DhcpdErr Bytes :=
  if pkt.length < vendOff + 4 then .error .invalidParam
  else if (pkt.drop vendOff).take 4 ≠ dhcpMagicCookie then .error .invalidPacket
  else
    let opt := pkt.drop (vendOff + 4)
    match parseOptionLoop code expectedLen opt.length opt with
    | some v => .ok v
    | none => .error .notFound

def be32 (b : Bytes) : UInt32 := b.foldl (fun v x => v * 256 + x.toUInt32) 0

def chaddr (pkt : Bytes) : Bytes := (pkt.drop 28).take 6

def requestBody (pkt : Bytes) (s : Dhcpd) : Option Reply × Dhcpd :=
  match dhcpdParseOption pkt 50 4 with
  | .error _ =>
    match dhcpdAllocIp clock cfg (chaddr pkt) s with
    | (.ok yiaddr, s) => (some (.ack yiaddr), s)
    | (.error _, s) => (none, s)
  | .ok ip =>
    match dhcpdValidateRequest cfg (be32 ip) with
    | .error _ => (some .nak, s)
    | .ok () =>
      match dhcpdProcessLease clock cfg (chaddr pkt) (be32 ip) s with
      | (.ok yiaddr, s) => (some (.ack yiaddr), s)
      | (.error _, s) => (none, s)

def dhcpdHandleRequest (pkt : Bytes) (s : Dhcpd) : Option Reply × Dhcpd :=
  match dhcpdParseOption pkt 54 4 with
  | .ok id => if be32 id ≠ cfg.serverIp then (none, s) else requestBody clock cfg pkt s
  | .error .notFound => requestBody clock cfg pkt s
  | .error _ => (none, s)

def dhcpdHandler (s : Dhcpd) (pkt : Bytes) : Option Reply × Dhcpd :=
  if vendOff ≤ pkt.length ∧ pkt.getD 0 0 = 1 ∧ pkt.getD 1 0 = 1 ∧ pkt.getD 2 0 = 6 ∧
      vendOff + 4 ≤ pkt.length ∧ (pkt.drop vendOff).take 4 = dhcpMagicCookie then
    match dhcpdParseOption pkt 53 1 with
    | .ok [1] =>
      match dhcpdHandleDiscover clock cfg (chaddr pkt) s with
      | (.ok yiaddr, s) => (some (.offer yiaddr), s)
      | (.error _, s) => (some (.offer 0), s)
    | .ok [3] => dhcpdHandleRequest clock cfg pkt s
    | _ => (none, s)
  else (none, s)

def receive (s : Dhcpd) (pkt : Bytes) : Dhcpd := (dhcpdHandler clock cfg s pkt).2

end Server

end ResQBoot.Net
