import Mathlib.Algebra.Group.Int.Defs
import ResQBoot.Failsafe.Webterm
import ResQBoot.Failsafe.Form

/-!
# The request handlers

The handlers that answer at once: each formats its response into its own static array and touches at most the devices
(`Answer`). `route` is the dispatcher of `httpd_recv` for a connection in `STATE_NONE`. The buffer behind the segment
is zero-filled, so an index past its end reads 0 (`getD`).
-/

namespace ResQBoot.Failsafe

structure Answer where
  dev : Devices
  store : Option (Region × Bytes) := none
  reply : Option (Ptr × Nat) := none
  crash : Bool := false

def Answer.const (dev : Devices) (t : Bytes) : Answer :=
  { dev := dev, reply := some (.text t 0, t.length) }

def Answer.printed (dev : Devices) (r : Region) (t : Bytes) : Answer :=
  { dev := dev, store := some (r, t ++ [0]), reply := some (.mem r 0, t.length) }

def plainHeader (status : Bytes) : Bytes :=
  bytes "HTTP/1.0 " ++ status ++
    bytes "\r\nCache-Control: no-cache\r\nContent-Type: text/plain\r\nConnection: close\r\n\r\n"

def jsonHeader (cacheLine : Bytes) (n : Nat) : Bytes :=
  bytes "HTTP/1.0 200 OK\r\n" ++ cacheLine ++
    bytes "Content-Type: application/json\r\nContent-Length: " ++ decimal n ++
    bytes "\r\nConnection: close\r\n\r\n"

def noCache : Bytes := bytes "Cache-Control: no-cache\r\n"

def statusText : List Bytes :=
  [bytes "idle", bytes "verifying", bytes "flashing", bytes "type_mismatch", bytes "rebooting",
    bytes "upgrade_done"]

def httpdHandleUpgradeStatus (dev : Devices) (upgradeStatus : Nat) : Answer :=
  .printed dev .upgradeStatus (plainHeader (bytes "200 OK") ++ statusText.getD upgradeStatus [])

def sizedReport (dev : Devices) (r : Region) (cacheLine : Bytes) (tooLarge : Bytes)
    (text : Bytes × Bool) : Answer :=
  let hdr := jsonHeader cacheLine text.1.length
  if !text.2 || 4096 < hdr.length + text.1.length then
    { dev := dev, store := some (r, text.1), reply := some (.text tooLarge 0, tooLarge.length) }
  else
    { dev := dev, store := some (r, hdr ++ text.1),
      reply := some (.mem r 0, hdr.length + text.1.length) }

def httpdHandlePartitions (b : Board) (dev : Devices) : Answer :=
  sizedReport dev .partJson []
    (bytes "HTTP/1.0 500 Internal Server Error\r\nConnection: close\r\n\r\npartitions too large")
    (b.partitions dev)

def httpdHandleAbout (b : Board) (dev : Devices) : Answer :=
  sizedReport dev .aboutJson noCache
    (bytes "HTTP/1.0 500 Internal Server Error\r\nConnection: close\r\n\r\nabout too large")
    (b.about dev)

def plainReport (dev : Devices) (r : Region) (text : Bytes) : Answer :=
  let t := jsonHeader noCache text.length ++ text
  { dev := dev, store := some (r, t), reply := some (.mem r 0, t.length) }

def httpdHandleMacInfo (b : Board) (dev : Devices) : Answer :=
  plainReport dev .macInfo (b.macInfo dev)

def httpdHandleBtnDetect (b : Board) (dev : Devices) : Answer :=
  plainReport dev .btnDetect (b.btnDetect dev)

def ledName (data : Bytes) (p : Nat) : Option Bytes × Nat :=
  if hasAt data p (bytes "name=") then
    let p := p + 5
    let amp := strchr data p 38
    let sp := strchr data p 32
    let (e, next) := match amp, sp with
      | some a, some s => if a < s then (a, a + 1) else (s, s)
      | some a, none => (a, a + 1)
      | none, some s => (s, s)
      | none, none => (p + (cstr (data.drop p)).length, p + (cstr (data.drop p)).length)
    let name := (data.drop p).take (e - p)
    if 64 ≤ name.length then (none, next) else (some name, next)
  else (some [], p)

def ledAction (data : Bytes) (p : Nat) : Bytes :=
  if hasAt data p (bytes "action=") then
    let p := p + 7
    let s := cstr (data.drop p)
    let e := match strchr data p 32, strchr data p 38 with
      | some s, some a => min s a - p
      | some s, none => s - p
      | none, some a => a - p
      | none, none => (s.takeWhile fun c => c ≠ 32 ∧ c ≠ 13 ∧ c ≠ 10).length
    s.take (min e 15)
  else []

def ledCall (action : Bytes) : Option LedAction :=
  if action = bytes "on" then some .on
  else if action = bytes "off" then some .off
  else if action = bytes "toggle" then some .toggle
  else none

def httpdHandleLed (dev : Devices) (data : Bytes) : Answer :=
  match strchr data 4 63 with
  | none => .printed dev .led (plainHeader (bytes "200 OK") ++ bytes "ok")
  | some q =>
    match ledName data (q + 1) with
    | (none, _) => .printed dev .led (plainHeader (bytes "400 Bad Request") ++ bytes "bad request")
    | (some name, p) =>
      let dev := match ledCall (ledAction data p) with
        | some a => if name.isEmpty then dev else { dev with leds := dev.leds ++ [(name, a)] }
        | none => dev
      .printed dev .led (plainHeader (bytes "200 OK") ++ bytes "ok")

def Devices.setenv (dev : Devices) (name value : Bytes) : Devices :=
  { dev with env := fun n => if n = name then (if value.isEmpty then none else some value)
                             else dev.env n }

def Devices.saveenv (dev : Devices) : Devices := { dev with savedEnv := dev.env }

def resetKeyLoop (gpioMax : Nat) : Nat → Bytes → Bool
  | _, [] => true
  | gpio, c :: t =>
    if !isDigit c || (gpioMax - 1) / 10 < gpio then false
    else
      let gpio := gpio * 10 + (c.toNat - 48)
      if gpioMax ≤ gpio then false else resetKeyLoop gpioMax gpio t

inductive EnvVerdict where
  | ok (dev : Devices)
  | error
  | bad

def envApply (b : Board) (dev : Devices) (name value : Bytes) : EnvVerdict :=
  if name = bytes "reset_key" then
    if value.isEmpty || resetKeyLoop b.gpioMax 0 value then .ok (dev.setenv name value).saveenv
    else .bad
  else if name = bytes "config_name" then
    if value.all fun c => c ≠ 34 && c ≠ 92 && 32 ≤ c then .ok (dev.setenv name value).saveenv
    else .bad
  else .error

def envFields (data : Bytes) : Option (Bytes × Bytes) :=
  match strstr data 0 (bytes "\r\n\r\n") with
  | none => none
  | some p =>
    let body := cstr (data.drop (p + 4))
    match find [61] body with
    | none => none
    | some eq =>
      let e := (find [38] body).getD body.length
      if eq < e then
        let name := body.take eq
        let value := (body.drop (eq + 1)).take (e - (eq + 1))
        if 64 ≤ name.length || 128 ≤ value.length then none
        else some (cstr (urlDecode name), cstr (urlDecode value))
      else none

def envVerdict (b : Board) (dev : Devices) (data : Bytes) : EnvVerdict :=
  (envFields data).elim .bad fun f => envApply b dev f.1 f.2

def httpdHandleEnvSet (b : Board) (dev : Devices) (data : Bytes) : Answer :=
  match envVerdict b dev data with
  | .ok dev => .printed dev .envSet (plainHeader (bytes "200 OK") ++ bytes "ok")
  | .error => .printed dev .envSet (plainHeader (bytes "200 OK") ++ bytes "error")
  | .bad => .printed dev .envSet (plainHeader (bytes "400 Bad Request") ++ bytes "bad request")

def toInt32 (n : Nat) : Int := if n < 2 ^ 31 then n else (n : Int) - 2 ^ 32

def macIface (iface : Bytes) : Option (Bool × Int) :=
  if hasAt iface 0 (bytes "eth") then
    let (idx, rest) := simpleStrto 32 10 (iface.drop 3)
    if rest.isEmpty then some (false, toInt32 idx) else none
  else if hasAt iface 0 (bytes "wifi") then
    let (idx, rest) := simpleStrto 32 10 (iface.drop 4)
    if rest.isEmpty then some (true, toInt32 idx) else none
  else none

def macApply (b : Board) (art iface mac : Bytes) : Option (Int × Bytes) :=
  match macIface iface with
  | none => none
  | some (wifi, index) =>
    let m := ethParseEnetaddr mac
    if macStringValid mac && isValidEthaddr m then
      some (if wifi then b.macaddrModifyWifi m index art else b.macaddrModifyBase m index art)
    else none

def macReply (dev : Devices) (ok : Bool) : Answer :=
  .printed dev .macSet (plainHeader (bytes "200 OK") ++ if ok then bytes "ok" else bytes "error")

def httpdHandleMacSet (b : Board) (dev : Devices) (data : Bytes) : Answer :=
  match strstr data 0 (bytes "\r\n\r\n") with
  | none => macReply dev false
  | some p =>
    let body := data.drop (p + 4)
    match httpdFormValue body (bytes "iface") 16 with
    | .nullDeref => { dev := dev, crash := true }
    | .failed => macReply dev false
    | .found iface =>
      match httpdFormValue body (bytes "mac") 32 with
      | .nullDeref => { dev := dev, crash := true }
      | .failed => macReply dev false
      | .found mac =>
        match macApply b dev.art iface mac with
        | some (ret, art) => macReply { dev with art := art } (0 ≤ ret)
        | none => macReply dev false

def httpdHandleWebterm (dev : Devices) (running : Bool) (data : Bytes) : Answer :=
  match webtermAnswer dev.term running data with
  | (term, none) => { dev := { dev with term := term } }
  | (term, some t) => .printed { dev with term := term } .webterm t

def fsStrcmp : Bytes → Bytes → Bool
  | _, [] => true
  | [], _ :: _ => false
  | x :: s, y :: t => if x = 13 ∨ x = 10 then true else x = y && fsStrcmp s t

def fsOpen (b : Board) (name : Bytes) : Option Bytes :=
  (b.fs.find? fun f => fsStrcmp name f.1).map (·.2)

def requestPath (data : Bytes) : Option Bytes :=
  (((data.drop 4).take 26).findIdx? isHttpWhitespace).map fun i =>
    (cstr ((data.drop 4).take i)).takeWhile (· ≠ 63)

def redirects : List (Bytes × Bytes) :=
  [(bytes "/firmware.html", bytes "firmware"), (bytes "/uboot.html", bytes "uboot"),
    (bytes "/art.html", bytes "art"), (bytes "/cdt.html", bytes "cdt"),
    (bytes "/ptable.html", bytes "ptable"), (bytes "/initramfs.html", bytes "initramfs"),
    (bytes "/mibib.html", bytes "ptable"), (bytes "/gpt.html", bytes "ptable")]

def httpdHandleFileRequest (b : Board) (dev : Devices) (data : Bytes) : Option Answer :=
  if data.length < 6 then none
  else if 13 ≤ data.length && hasAt data 4 (bytes "/cgi-bin/") then
    some
      { dev := dev,
        reply := some (.text (bytes "HTTP/1.0 302 Found\r\nLocation: /index.html\r\n\r\n") 0, 44) }
  else
    (requestPath data).map fun path =>
      if path = [47] then .const dev ((fsOpen b b.indexHtml).getD [])
      else
        match redirects.find? fun r => path = r.1 with
        | some r => .printed dev .redirect
            (bytes "HTTP/1.0 302 Found\r\nLocation: /update.html#" ++ r.2 ++ bytes "\r\n\r\n")
        | none =>
          .const dev ((fsOpen b path).getD ((fsOpen b b.notFoundHtml).getD []))

inductive Route where
  | webterm
  | upgradeStatus
  | partitions
  | backup
  | about
  | macInfo
  | led
  | btnDetect
  | file
  | envSet
  | macSet
  | upload
  | bad
  deriving DecidableEq, Repr

def route (data : Bytes) : Route :=
  if hasAt data 0 (bytes "GET") && isHttpMethodSeparator (data.getD 3 0) then
    if hasAt data 4 (bytes "/webterm") then .webterm
    else if hasAt data 4 (bytes "/upgrade_status") then .upgradeStatus
    else if hasAt data 4 (bytes "/partitions") && data.getD 15 0 = 32 then .partitions
    else if hasAt data 4 (bytes "/backup?") then .backup
    else if hasAt data 4 (bytes "/about") && data.getD 10 0 = 32 then .about
    else if hasAt data 4 (bytes "/mac_info") && data.getD 13 0 = 32 then .macInfo
    else if hasAt data 4 (bytes "/led?") then .led
    else if hasAt data 4 (bytes "/btn_detect") && data.getD 15 0 = 32 then .btnDetect
    else .file
  else if hasAt data 0 (bytes "POST") && isHttpMethodSeparator (data.getD 4 0) then
    if hasAt data 5 (bytes "/webterm") then .webterm
    else if hasAt data 5 (bytes "/env_set") then .envSet
    else if hasAt data 5 (bytes "/mac_set") then .macSet
    else .upload
  else .bad

def answer (b : Board) (g : Globals) (dev : Devices) (data : Bytes) : Route → Option Answer
  | .webterm => some (httpdHandleWebterm dev g.isRunning data)
  | .upgradeStatus => some (httpdHandleUpgradeStatus dev g.upgradeStatus)
  | .partitions => some (httpdHandlePartitions b dev)
  | .about => some (httpdHandleAbout b dev)
  | .macInfo => some (httpdHandleMacInfo b dev)
  | .led => some (httpdHandleLed dev data)
  | .btnDetect => some (httpdHandleBtnDetect b dev)
  | .file => httpdHandleFileRequest b dev data
  | .envSet => some (httpdHandleEnvSet b dev data)
  | .macSet => some (httpdHandleMacSet b dev data)
  | .backup => none
  | .upload => none
  | .bad => none

end ResQBoot.Failsafe
