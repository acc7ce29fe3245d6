import ResQBoot.Lib.Checked
import ResQBoot.Lib.Tlv
import ResQBoot.Net.Dhcpd

/-!
# DHCP options

`dhcpd_parse_option` as a loop over the memory of a packet, which stops at an access behind its end, gives what a
decoder of the whole row of options finds first. `dhcpd_send_reply` writes such a row, and its replies parse back.
-/

namespace ResQBoot.Net

/-! ### The parser -/

def optionWalk (b : Buffer) (code : UInt8) (expectedLen opt optlen : Nat) : Checked (Option Bytes) :=
  if optlen = 0 then .ok none
  else do
    let c ← b.load opt 1
    if c = [0] then optionWalk b code expectedLen (opt + 1) (optlen - 1)
    else if c = [255] then return none
    else if optlen - 1 = 0 then return none
    else
      let olen ← b.loadField (opt + 1) 1
      if olen > optlen - 2 then return none
      else if c = [code] ∧ (expectedLen = 0 ∨ olen = expectedLen) then return some (← b.load (opt + 2) olen)
      else optionWalk b code expectedLen (opt + 2 + olen) (optlen - 2 - olen)
  termination_by optlen

def parseOption (b : Buffer) (code : UInt8) (expectedLen : Nat) : Checked (Except DhcpdErr Bytes) :=
  if b.size < vendOff + 4 then return .error .invalidParam
  else do
    if (← b.load vendOff 4) ≠ dhcpMagicCookie then return .error .invalidPacket
    let found ← optionWalk b code expectedLen (vendOff + 4) (b.size - vendOff - 4)
    return found.elim (.error .notFound) .ok

section Parser

variable {b : Buffer} {code : UInt8} {n : Nat}

lemma load_rest {opt k : Nat} {l : Bytes} (rest : b.bytes.drop opt = l) (whole : opt + l.length = b.size)
    (le : k ≤ l.length) : b.load opt k = .ok (l.take k) := by
  rw [Buffer.load_ok (by omega), slice, rest]

lemma optionWalk_eq (l : Bytes) {opt : Nat} (rest : b.bytes.drop opt = l) (whole : opt + l.length = b.size) :
    optionWalk b code n opt l.length = .ok (Tlv.first 0 255 code n l) := by
  induction size : l.length using Nat.strong_induction_on generalizing l opt with
  | _ k ih =>
    subst size
    rw [optionWalk]
    cases l with
    | nil => rw [List.length_nil, if_pos rfl, Tlv.first_nil]
    | cons c l =>
      have next : b.bytes.drop (opt + 1) = l := by rw [← List.drop_drop, rest, List.drop_one, List.tail_cons]
      rw [List.length_cons] at whole
      rw [List.length_cons, if_neg (Nat.succ_ne_zero _), load_rest rest whole (by simp)]
      simp only [List.take_succ_cons, List.take_zero, Checked.ok_bind, List.cons.injEq, and_true, Nat.add_sub_cancel]
      by_cases padding : c = 0
      · rw [if_pos padding, padding, Tlv.first_pad]
        exact ih _ (Nat.lt_succ_self _) l next (by omega) rfl
      by_cases stop : c = 255
      · rw [if_neg padding, if_pos stop, stop, Tlv.first_stop (by decide)]
        rfl
      rw [if_neg padding, if_neg stop]
      cases l with
      | nil =>
        rw [if_pos List.length_nil, Tlv.first_tag padding stop]
        rfl
      | cons olen body =>
        have after : b.bytes.drop (opt + 2) = body := by
          rw [show opt + 2 = opt + 1 + 1 from rfl, ← List.drop_drop, next, List.drop_one, List.tail_cons]
        rw [List.length_cons] at whole
        have length : b.loadField (opt + 1) 1 = .ok olen.toNat := by
          rw [Buffer.loadField, load_rest next (by simp; omega) (by simp)]
          rfl
        rw [List.length_cons, if_neg (Nat.succ_ne_zero _), length, Checked.ok_bind,
          show body.length + 1 + 1 - 2 = body.length from rfl]
        by_cases inside : olen.toNat ≤ body.length
        · rw [if_neg (Nat.not_lt.mpr inside), Tlv.first_cons padding stop inside]
          by_cases found : c = code ∧ (n = 0 ∨ olen.toNat = n)
          · rw [if_pos found, if_pos found, load_rest after (by omega) inside]
            rfl
          rw [if_neg found, if_neg found]
          have drop : b.bytes.drop (opt + 2 + olen.toNat) = body.drop olen.toNat := by rw [← after, List.drop_drop]
          have left : (body.drop olen.toNat).length = body.length - olen.toNat := List.length_drop
          rw [← left]
          exact ih _ (by rw [left, List.length_cons, List.length_cons]; omega) _ drop (by omega) rfl
        · rw [if_pos (Nat.not_le.mp inside), Tlv.first_short padding stop inside]
          rfl

lemma parseOptionLoop_eq {fuel : Nat} (l : Bytes) (enough : l.length ≤ fuel) :
    parseOptionLoop code n fuel l = Tlv.first 0 255 code n l := by
  induction fuel generalizing l with
  | zero =>
    obtain rfl := List.length_eq_zero_iff.mp (Nat.le_zero.mp enough)
    rw [Tlv.first_nil]
    rfl
  | succ fuel ih =>
    rw [parseOptionLoop.eq_def]
    cases l with
    | nil =>
      rw [Tlv.first_nil]
    | cons c l =>
      rw [List.length_cons] at enough
      simp only
      by_cases padding : c = 0
      · rw [if_pos padding, padding, Tlv.first_pad]
        exact ih l (by omega)
      by_cases stop : c = 255
      · rw [if_neg padding, if_pos stop, stop, Tlv.first_stop (by decide)]
      rw [if_neg padding, if_neg stop]
      cases l with
      | nil =>
        rw [Tlv.first_tag padding stop]
      | cons olen body =>
        rw [List.length_cons] at enough
        simp only
        by_cases inside : olen.toNat ≤ body.length
        · rw [if_neg (Nat.not_lt.mpr inside), Tlv.first_cons padding stop inside]
          rw [ih _ (by rw [List.length_drop]; omega)]
        · rw [if_pos (Nat.not_le.mp inside), Tlv.first_short padding stop inside]

lemma dhcpdParseOption_eq {pkt : Bytes} (long : vendOff + 4 ≤ pkt.length)
    (cookie : (pkt.drop vendOff).take 4 = dhcpMagicCookie) : dhcpdParseOption pkt code n =
      (Tlv.first 0 255 code n (pkt.drop (vendOff + 4))).elim (.error .notFound) .ok := by
  rw [dhcpdParseOption, if_neg (Nat.not_lt.mpr long), if_neg (not_not.mpr cookie)]
  simp only [parseOptionLoop_eq _ (Nat.le_refl _)]
  cases Tlv.first 0 255 code n (pkt.drop (vendOff + 4)) <;> rfl

lemma parseOption_eq (b : Buffer) (code : UInt8) (n : Nat) :
    parseOption b code n = .ok (dhcpdParseOption b.bytes code n) := by
  rw [parseOption]
  split
  · rename_i short
    rw [dhcpdParseOption, Buffer.length_bytes, if_pos short]
    rfl
  rename_i long
  rw [Buffer.load_ok (by omega), Checked.ok_bind, slice]
  split
  · rename_i other
    rw [dhcpdParseOption, Buffer.length_bytes, if_neg long, if_pos other]
    rfl
  rename_i cookie
  have size : b.size - vendOff - 4 = (b.bytes.drop (vendOff + 4)).length := by
    rw [List.length_drop, Buffer.length_bytes]
    omega
  rw [size, optionWalk_eq _ rfl (by rw [← size]; omega), Checked.ok_bind,
    dhcpdParseOption_eq (by rw [Buffer.length_bytes]; omega) (not_not.mp cookie)]
  rfl

end Parser

/-- In a packet with the cookie, `dhcpd_parse_option` reads no byte behind the end, and finds the first value that
the reference decoder gives for the code and the length. -/
theorem parseOption_reference (b : Buffer) (code : UInt8) (expectedLen : Nat) (long : vendOff + 4 ≤ b.size)
    (cookie : slice b.bytes vendOff 4 = dhcpMagicCookie) :
    parseOption b code expectedLen =
      .ok ((Tlv.first 0 255 code expectedLen (b.bytes.drop (vendOff + 4))).elim (.error .notFound) .ok) := by
  rw [parseOption_eq, dhcpdParseOption_eq (by rwa [Buffer.length_bytes]) cookie]

/-- The message type behind a padding byte, with an option that is cut short behind it. -/
theorem parseOption_reference_padded :
    let pkt := List.replicate 236 0 ++ dhcpMagicCookie ++ [0, 53, 1, 3, 12, 9, 65]
    parseOption ⟨fun a => pkt.getD a 0, 0, 247⟩ 53 1 = .ok (.ok [3]) := by
  intro pkt
  have rest : (Buffer.bytes ⟨fun a => pkt.getD a 0, 0, 247⟩).drop (vendOff + 4) = [0, 53, 1, 3, 12, 9, 65] := by
    decide
  rw [parseOption_reference _ 53 1 (by decide) (by decide), rest, Tlv.first_pad,
    Tlv.first_cons (by decide) (by decide) (by decide)]
  rfl

/-! ### The replies -/

structure ReplyCfg extends SvrCfg where
  gateway : UInt32

def ipBytes (ip : UInt32) : Bytes := [(ip >>> 24).toUInt8, (ip >>> 16).toUInt8, (ip >>> 8).toUInt8, ip.toUInt8]

def dhcpNak : UInt8 := 6

def vendSize : Nat := 312

def addOption (code : UInt8) (v : Bytes) (vend : Bytes) : Option Bytes :=
  if vend.length + 2 + v.length > vendSize then none else some (vend ++ Tlv.entry code v)

def replyOptions (cfg : ReplyCfg) (msgType : UInt8) (nakMessage : Option Bytes) : Option Bytes := do
  let vend ← addOption 53 [msgType] dhcpMagicCookie
  let vend ← addOption 54 (ipBytes cfg.serverIp) vend
  if msgType = dhcpNak then
    let text := (cstr (nakMessage.getD [])).take 64
    -- a message that does not fit is left out
    return if text = [] then vend else (addOption 56 text vend).getD vend
  else
    let vend ← addOption 1 (ipBytes cfg.netmask) vend
    let vend ← if cfg.gateway ≠ 0 then addOption 3 (ipBytes cfg.gateway) vend else some vend
    let vend ← addOption 6 (ipBytes cfg.serverIp) vend
    addOption 51 (ipBytes 3600) vend

def replyHeader (ram : Mem) (req : Nat) (cfg : ReplyCfg) (msgType : UInt8) (yiaddr : UInt32) : Bytes :=
  let nak := msgType = dhcpNak
  [2, 1, 6, 0] ++ ram.read (req + 4) 4 ++ ram.read (req + 8) 2 ++ [0x80, 0] ++ ram.read (req + 12) 4 ++
    ipBytes (if nak then 0 else yiaddr) ++ ipBytes (if nak then 0 else cfg.serverIp) ++ [0, 0, 0, 0] ++
    ram.read (req + 28) 16 ++ List.replicate 192 0

def dhcpdSendReply (ram : Mem) (req : Nat) (cfg : ReplyCfg) (msgType : UInt8) (yiaddr : UInt32)
    (nakMessage : Option Bytes) : Option Bytes := do
  let vend ← replyOptions cfg msgType nakMessage
  let vend := if vend.length < vendSize then vend ++ [255] else vend
  let payload := replyHeader ram req cfg msgType yiaddr ++ vend
  let padding := 300 - payload.length
  return if vend.length + padding ≤ vendSize then payload ++ List.replicate padding 0 else payload

def intended (cfg : ReplyCfg) (msgType : UInt8) (nakMessage : Option Bytes) : List (UInt8 × Bytes) :=
  let text := (cstr (nakMessage.getD [])).take 64
  [(53, [msgType]), (54, ipBytes cfg.serverIp)] ++
    if msgType = dhcpNak then if text = [] then [] else [(56, text)]
    else [(1, ipBytes cfg.netmask)] ++ (if cfg.gateway ≠ 0 then [(3, ipBytes cfg.gateway)] else []) ++
      [(6, ipBytes cfg.serverIp), (51, ipBytes 3600)]

section Replies

variable (cfg : ReplyCfg) (msgType : UInt8) (nakMessage : Option Bytes)

lemma replyOptions_eq : replyOptions cfg msgType nakMessage =
      some (dhcpMagicCookie ++ Tlv.row (intended cfg msgType nakMessage)) ∧
    (Tlv.row (intended cfg msgType nakMessage)).length ≤ 75 := by
  by_cases nak : msgType = dhcpNak
  · have short : ((cstr (nakMessage.getD [])).take 64).length ≤ 64 := List.length_take_le _ _
    simp only [replyOptions, intended, nak, if_true]
    generalize (cstr (nakMessage.getD [])).take 64 = text at short ⊢
    by_cases empty : text = []
    · simp [addOption, empty, Tlv.row, Tlv.entry, ipBytes, dhcpMagicCookie, vendSize]
    · have fits : ¬ 312 < 13 + 2 + text.length := by omega
      simp [addOption, empty, Tlv.row, Tlv.entry, ipBytes, dhcpMagicCookie, vendSize, fits]
      omega
  · by_cases routed : cfg.gateway = 0 <;>
      simp [replyOptions, intended, nak, routed, addOption, Tlv.row, Tlv.entry, ipBytes, dhcpMagicCookie, vendSize]

lemma intended_plain : ∀ o ∈ intended cfg msgType nakMessage, o.1 ≠ 0 ∧ o.1 ≠ 255 ∧ o.2.length < 256 := by
  have short : ((cstr (nakMessage.getD [])).take 64).length ≤ 64 := List.length_take_le _ _
  simp only [intended]
  generalize (cstr (nakMessage.getD [])).take 64 = text at short ⊢
  split_ifs <;> simp [ipBytes]
  omega

variable (ram : Mem) (req : Nat) (yiaddr : UInt32)

lemma length_replyHeader : (replyHeader ram req cfg msgType yiaddr).length = vendOff := by
  simp only [replyHeader, List.length_append, Mem.length_read, List.length_replicate]
  rfl

lemma dhcpdSendReply_eq : ∃ padding,
    dhcpdSendReply ram req cfg msgType yiaddr nakMessage = some (replyHeader ram req cfg msgType yiaddr ++
      (dhcpMagicCookie ++ (Tlv.row (intended cfg msgType nakMessage) ++ 255 :: List.replicate padding 0))) ∧
    59 ≤ (Tlv.row (intended cfg msgType nakMessage)).length + padding ∧
    (Tlv.row (intended cfg msgType nakMessage)).length + padding ≤ 75 := by
  obtain ⟨options, small⟩ := replyOptions_eq cfg msgType nakMessage
  have cookie : dhcpMagicCookie.length = 4 := rfl
  refine ⟨59 - (Tlv.row (intended cfg msgType nakMessage)).length, ?_, by omega, by omega⟩
  generalize Tlv.row (intended cfg msgType nakMessage) = opts at options small ⊢
  have marked : (dhcpMagicCookie ++ opts ++ [255]).length = opts.length + 5 := by
    simp only [List.length_append, cookie, List.length_singleton]
    omega
  have missing : 300 - (replyHeader ram req cfg msgType yiaddr ++ (dhcpMagicCookie ++ opts ++ [255])).length =
      59 - opts.length := by
    rw [List.length_append, length_replyHeader, marked, vendOff]
    omega
  rw [dhcpdSendReply, options]
  simp only [Option.bind_eq_bind, Option.bind_some]
  have mark : (dhcpMagicCookie ++ opts).length < vendSize := by
    rw [List.length_append, cookie, vendSize]
    omega
  rw [if_pos mark, missing, if_pos (by rw [marked, vendSize]; omega)]
  simp only [List.append_assoc, List.cons_append, List.nil_append]
  rfl

lemma dhcpdSendReply_parse : ∃ payload, dhcpdSendReply ram req cfg msgType yiaddr nakMessage = some payload ∧
    300 ≤ payload.length ∧ payload.length ≤ vendOff + vendSize ∧
    ∀ code n, dhcpdParseOption payload code n = ((intended cfg msgType nakMessage).find? fun o =>
      o.1 = code ∧ (n = 0 ∨ o.2.length = n)).elim (.error .notFound) fun o => .ok o.2 := by
  obtain ⟨padding, sent, least, most⟩ := dhcpdSendReply_eq cfg msgType nakMessage ram req yiaddr
  have header := length_replyHeader cfg msgType ram req yiaddr
  have cookie : dhcpMagicCookie.length = 4 := rfl
  have size : vendOff = 236 := rfl
  refine ⟨_, sent, ?_, ?_, fun code n => ?_⟩
  · simp only [List.length_append, header, cookie, List.length_cons, List.length_replicate]
    omega
  · simp only [List.length_append, header, cookie, List.length_cons, List.length_replicate, vendSize]
    omega
  · have here := intended_plain cfg msgType nakMessage
    generalize replyHeader ram req cfg msgType yiaddr = head at header ⊢
    rw [dhcpdParseOption_eq (by simp only [List.length_append, header, cookie]; omega)
      (by rw [← header, List.drop_left, ← cookie, List.take_left]), ← List.drop_drop, ← header, List.drop_left,
      ← cookie, List.drop_left, Tlv.first, Tlv.entries_row _ here, Tlv.entries_stop (by decide), List.append_nil]
    cases List.find? _ (intended cfg msgType nakMessage) <;> rfl

end Replies

/-- A reply to any request has at least 300 bytes, none of them behind the area of the options, and the parser finds
in it what it is to hold. -/
theorem dhcpdSendReply_parses (ram : Mem) (req : Nat) (cfg : ReplyCfg) (msgType : UInt8) (yiaddr : UInt32)
    (nakMessage : Option Bytes) :
    ∃ payload, dhcpdSendReply ram req cfg msgType yiaddr nakMessage = some payload ∧
      300 ≤ payload.length ∧ payload.length ≤ vendOff + vendSize ∧
      dhcpdParseOption payload 53 1 = .ok [msgType] ∧
      dhcpdParseOption payload 54 4 = .ok (ipBytes cfg.serverIp) ∧
      (msgType ≠ dhcpNak → dhcpdParseOption payload 1 4 = .ok (ipBytes cfg.netmask) ∧
        dhcpdParseOption payload 3 4 = (if cfg.gateway ≠ 0 then .ok (ipBytes cfg.gateway) else .error .notFound) ∧
        dhcpdParseOption payload 6 4 = .ok (ipBytes cfg.serverIp) ∧
        dhcpdParseOption payload 51 4 = .ok (ipBytes 3600)) ∧
      (msgType = dhcpNak → dhcpdParseOption payload 56 0 =
        if cstr (nakMessage.getD []) = [] then .error .notFound else .ok ((cstr (nakMessage.getD [])).take 64)) := by
  obtain ⟨payload, sent, least, most, parsed⟩ := dhcpdSendReply_parse cfg msgType nakMessage ram req yiaddr
  refine ⟨payload, sent, least, most, ?_⟩
  have size (ip : UInt32) : (ipBytes ip).length = 4 := rfl
  simp only [parsed, intended]
  by_cases nak : msgType = dhcpNak
  · by_cases empty : cstr (nakMessage.getD []) = [] <;> simp [nak, empty, size]
  · by_cases routed : cfg.gateway = 0 <;> simp [nak, routed, size]

end ResQBoot.Net
