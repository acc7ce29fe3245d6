import ResQBoot.Net.Dhcpd

/-!
# The UDP handler and its fallback

The two handler pointers, and the commands that change them. `dhcpd_handler_with_fallback` calls the saved handler for a
packet that is not for it, so that a server that has saved its own handler never comes back.
-/

namespace ResQBoot.Net

inductive Handler where
  | dummy
  | dhcpd
  deriving DecidableEq, Repr

structure UdpState where
  udpPacketHandler : Option Handler
  originalUdpHandler : Option Handler
  firstCall : Bool
  dhcpdRunning : Bool
  webfailsafeIsRunning : Bool
  blocked : Bool
  deriving DecidableEq, Repr

def UdpState.boot : UdpState := ⟨none, none, true, false, false, false⟩

inductive Command where
  | dhcpd (nonblocking : Bool) (ipAddr netmask : UInt32)
  | httpd (arg : Option Bytes)
  | interrupt
  deriving DecidableEq, Repr

def netSetUdpHandler (f : Option Handler) (s : UdpState) : UdpState :=
  { s with udpPacketHandler := some (f.getD .dummy) }

def netInit (s : UdpState) : UdpState :=
  if s.firstCall then { netSetUdpHandler none s with firstCall := false } else s

def dhcpdInitHandler (s : UdpState) : UdpState :=
  netSetUdpHandler (some .dhcpd) { s with originalUdpHandler := s.udpPacketHandler }

def dhcpdDeinitServer (s : UdpState) : UdpState :=
  let s := match s.originalUdpHandler with
    | some h => { netSetUdpHandler (some h) s with originalUdpHandler := none }
    | none => s
  { s with dhcpdRunning := false }

def dhcpdStopServer (s : UdpState) : UdpState :=
  if s.dhcpdRunning then dhcpdDeinitServer s else s

def dhcpdValidateConfig (cfg : SvrCfg) : Bool := cfg.serverIp ≠ 0 && cfg.endIp ≠ 0

def parseOctets : Nat → Bytes → Option (List Nat)
  | 0, s => if s = [] then some [] else none
  | n + 1, s =>
    if (s.head?.map isDigit).getD false then
      let (val, rest) := simpleStrto 32 10 s
      if val > 255 then none
      else if n = 0 then (parseOctets n rest).map (val :: ·)
      else
        match rest with
        | 46 :: p => (parseOctets n p).map (val :: ·)
        | _ => none
    else none

def packOctets (packed : UInt32) (octets : List Nat) : UInt32 :=
  octets.foldl (fun packed val => packed <<< 8 ||| UInt32.ofNat val) packed

def httpdParseIpv4 (ipaddr : Bytes) : Option (List Nat × UInt32) :=
  (parseOctets 4 ipaddr).bind fun octets =>
    let packed := packOctets 0 octets
    if packed = 0 ∨ octets.getD 3 0 = 0 ∨ octets.getD 3 0 = 255 then none else some (octets, packed)

def dhcpdRequest (s : UdpState) : UdpState := { dhcpdInitHandler s with dhcpdRunning := true }

def httpdStart (s : UdpState) : UdpState :=
  { dhcpdRequest (netInit s) with webfailsafeIsRunning := true }

def httpdStop (s : UdpState) : UdpState :=
  { dhcpdDeinitServer s with webfailsafeIsRunning := false }

def Starts (s : UdpState) : Command → Prop
  | .dhcpd _ ipAddr netmask => s.blocked = false ∧ dhcpdValidateConfig (dhcpdIpSettings ipAddr netmask) = true
  | .httpd arg => s.blocked = false ∧ arg ≠ some (bytes "s") ∧ s.webfailsafeIsRunning = false ∧
      ∀ ipaddr, arg = some ipaddr → (httpdParseIpv4 ipaddr).isSome = true
  | .interrupt => False

def doDhcpd (nonblocking : Bool) (s : UdpState) : UdpState :=
  { dhcpdRequest (netInit s) with blocked := !nonblocking }

def doHttpd (arg : Option Bytes) (s : UdpState) : UdpState :=
  if arg = some (bytes "s") then
    if s.webfailsafeIsRunning then httpdStop s else s
  else if s.webfailsafeIsRunning then s
  else
    match arg with
    | some ipaddr => if (httpdParseIpv4 ipaddr).isSome then httpdStart s else s
    | none => httpdStart s

def promptStep (s : UdpState) : Command → UdpState
  | .dhcpd nonblocking ipAddr netmask =>
    if dhcpdValidateConfig (dhcpdIpSettings ipAddr netmask) then doDhcpd nonblocking s else s
  | .httpd arg => doHttpd arg s
  | .interrupt => if s.webfailsafeIsRunning then dhcpdStopServer s else s

def blockedStep (s : UdpState) : Command → UdpState
  | .dhcpd _ _ _ => s
  | .httpd _ => s
  | .interrupt => { dhcpdStopServer s with blocked := false }

def commandStep (s : UdpState) (c : Command) : UdpState :=
  if s.blocked then blockedStep s c else promptStep s c

/-! ## Delivery -/

def isDhcp (pkt : Bytes) : Bool :=
  vendOff ≤ pkt.length && pkt.getD 0 0 = 1 && pkt.getD 1 0 = 1 && pkt.getD 2 0 = 6 &&
    vendOff + 4 ≤ pkt.length && (pkt.drop vendOff).take 4 = dhcpMagicCookie &&
    match dhcpdParseOption pkt 53 1 with
    | .ok [t] => t = 1 || t = 3
    | _ => false

def deliver (original : Option Handler) (pkt : Bytes) : Nat → Handler → Option Nat
  | 0, _ => none
  | _ + 1, .dummy => some 1
  | n + 1, .dhcpd =>
    if isDhcp pkt then some 1
    else
      match original with
      | none => some 1
      | some h => (deliver original pkt n h).map (· + 1)

structure Delivers (s : UdpState) : Prop where
  saved : s.originalUdpHandler ≠ some .dhcpd
  finite : ∀ pkt h, s.udpPacketHandler = some h →
    ∃ bound calls, deliver s.originalUdpHandler pkt bound h = some calls

lemma delivers_iff (s : UdpState) : Delivers s ↔ s.originalUdpHandler ≠ some .dhcpd := by
  refine ⟨Delivers.saved, fun saved => ⟨saved, fun pkt h _ => ⟨2, ?_⟩⟩⟩
  cases h with
  | dummy => exact ⟨1, rfl⟩
  | dhcpd =>
    simp only [deliver]
    split
    · exact ⟨1, rfl⟩
    split
    · exact ⟨1, rfl⟩
    · rename_i h original
      cases h with
      | dummy => exact ⟨2, rfl⟩
      | dhcpd => exact absurd original saved

lemma deliver_endless {pkt : Bytes} (other : isDhcp pkt = false) :
    ∀ bound, deliver (some .dhcpd) pkt bound .dhcpd = none := by
  intro bound
  induction bound with
  | zero => rfl
  | succ bound ih => simp [deliver, other, ih]

/-! ## Runs -/

def UdpState.handlers (s : UdpState) : Option Handler × Option Handler × Bool :=
  (s.udpPacketHandler, s.originalUdpHandler, s.firstCall)

def Unset (s : UdpState) : Prop := s.firstCall = true → s.handlers = (none, none, true)

def Restarts (s : UdpState) (c : Command) : Prop := Starts s c ∧ s.udpPacketHandler = some .dhcpd

section Steps

variable {s : UdpState} {c : Command}

lemma commandStep_starts (starts : Starts s c) :
    (commandStep s c).handlers = (dhcpdInitHandler (netInit s)).handlers := by
  cases c with
  | dhcpd nonblocking ipAddr netmask =>
    obtain ⟨free, valid⟩ := starts
    simp only [commandStep, promptStep, free, valid, Bool.false_eq_true, if_false, if_true]
    rfl
  | httpd arg =>
    obtain ⟨free, start, stopped, parses⟩ := starts
    simp only [commandStep, promptStep, doHttpd, free, start, stopped, Bool.false_eq_true, if_false]
    cases arg with
    | none => rfl
    | some ipaddr =>
      simp only [parses ipaddr rfl, if_true]
      rfl
  | interrupt => exact starts.elim

lemma commandStep_idle (idle : ¬ Starts s c) : (commandStep s c).handlers = s.handlers ∨
      (commandStep s c).handlers = (dhcpdDeinitServer s).handlers := by
  have stop : (dhcpdStopServer s).handlers = s.handlers ∨
      (dhcpdStopServer s).handlers = (dhcpdDeinitServer s).handlers := by
    rw [dhcpdStopServer]
    split
    · exact .inr rfl
    · exact .inl rfl
  cases blocked : s.blocked with
  | true =>
    simp only [commandStep, blocked, if_true]
    cases c with
    | dhcpd | httpd => exact .inl rfl
    | interrupt => exact stop
  | false =>
    simp only [commandStep, blocked, Bool.false_eq_true, if_false]
    cases c with
    | dhcpd nonblocking ipAddr netmask =>
      rw [promptStep]
      split
      · rename_i valid
        exact absurd ⟨blocked, valid⟩ idle
      · exact .inl rfl
    | httpd arg =>
      simp only [promptStep, doHttpd]
      split
      · split
        · exact .inr rfl
        · exact .inl rfl
      rename_i start
      split
      · exact .inl rfl
      rename_i running
      have stopped : s.webfailsafeIsRunning = false := by simpa using running
      cases arg with
      | none => exact absurd ⟨blocked, start, stopped, by rintro _ ⟨⟩⟩ idle
      | some ipaddr =>
        simp only
        split
        · rename_i parses
          refine absurd ⟨blocked, start, stopped, ?_⟩ idle
          rintro _ ⟨⟩
          exact parses
        · exact .inl rfl
    | interrupt =>
      rw [promptStep]
      split
      · exact stop
      · exact .inl rfl

lemma netInit_handler (unset : Unset s) :
    (netInit s).udpPacketHandler = some .dhcpd ↔ s.udpPacketHandler = some .dhcpd := by
  rw [netInit]
  split
  · rename_i first
    have none : s.udpPacketHandler = none := congrArg Prod.fst (unset first)
    rw [none]
    simp [netSetUdpHandler]
  · rfl

lemma netInit_firstCall (s : UdpState) : (netInit s).firstCall = false := by
  rw [netInit]
  split
  · rfl
  · rename_i later
    simpa using later

lemma dhcpdDeinitServer_saved (s : UdpState) : (dhcpdDeinitServer s).originalUdpHandler = none := by
  rw [dhcpdDeinitServer]
  split
  · rfl
  · assumption

lemma commandStep_unset (s : UdpState) (c : Command) (unset : Unset s) : Unset (commandStep s c) := by
  intro first
  by_cases starts : Starts s c
  · have eq := commandStep_starts starts
    have set : (commandStep s c).firstCall = (netInit s).firstCall := congrArg (·.2.2) eq
    rw [netInit_firstCall] at set
    rw [set] at first
    cases first
  · rcases commandStep_idle starts with same | back
    · have first' : s.firstCall = true := by
        rw [← first]
        exact (congrArg (·.2.2) same).symm
      rw [same, unset first']
    · have kept : (dhcpdDeinitServer s).firstCall = s.firstCall := by
        rw [dhcpdDeinitServer]
        split <;> rfl
      have first' : s.firstCall = true := by
        rw [← kept, ← first]
        exact (congrArg (·.2.2) back).symm
      have none : s.originalUdpHandler = none := congrArg (·.2.1) (unset first')
      rw [back, ← unset first']
      simp only [UdpState.handlers, dhcpdDeinitServer, none]

lemma commandStep_delivers (s : UdpState) (c : Command) (unset : Unset s) (delivers : Delivers s) :
    Delivers (commandStep s c) ↔ ¬ Restarts s c := by
  rw [delivers_iff]
  by_cases starts : Starts s c
  · have saved : (commandStep s c).originalUdpHandler = (netInit s).udpPacketHandler :=
      congrArg (·.2.1) (commandStep_starts starts)
    rw [saved, ne_eq, netInit_handler unset]
    exact not_congr ⟨fun own => ⟨starts, own⟩, And.right⟩
  · refine iff_of_true ?_ fun restarts => starts restarts.1
    rcases commandStep_idle starts with same | back
    · have saved : (commandStep s c).originalUdpHandler = s.originalUdpHandler := congrArg (·.2.1) same
      rw [saved]
      exact delivers.saved
    · have saved : (commandStep s c).originalUdpHandler = (dhcpdDeinitServer s).originalUdpHandler :=
        congrArg (·.2.1) back
      rw [saved, dhcpdDeinitServer_saved]
      rintro ⟨⟩

end Steps

/-- All along a sequence of commands packets are delivered in finitely many calls, and the saved handler
is not the server's own, exactly when no command starts the server while its handler is installed. -/
theorem dispatch_terminates_iff (cs : List Command) :
    (∀ pre, pre <+: cs → Delivers (runAll commandStep .boot pre)) ↔
      Along commandStep (fun s c => ¬ Restarts s c) .boot cs :=
  along_iff_prefixes (fun s c unset _ => commandStep_unset s c unset)
    (fun s c unset delivers _ => commandStep_delivers s c unset delivers) cs .boot (fun _ => rfl)
    ((delivers_iff _).mpr (by rintro ⟨⟩)) (along_true commandStep cs .boot)

/-- `dhcpd -nb` given twice: a packet that is not for the server is passed from the server to itself,
without end. -/
theorem dispatch_endless :
    let nb := Command.dhcpd true 0xC0A80101 0xFFFFFF00
    let s := runAll commandStep .boot [nb, nb]
    s.udpPacketHandler = some .dhcpd ∧ s.originalUdpHandler = some .dhcpd ∧
      ∀ bound, deliver s.originalUdpHandler [] bound .dhcpd = none :=
  ⟨by decide, by decide, deliver_endless rfl⟩

end ResQBoot.Net
