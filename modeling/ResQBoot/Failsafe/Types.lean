import ResQBoot.Lib.Memory
import Mathlib.Logic.Function.Basic

/-!
# The recovery web server: data model

The state of `failsafe/failsafe_httpd.c`. A connection is the heap block `struct failsafe_httpd_state` (`Conn`), found by
its address in `Server.conns`; a freed block is absent, and its address may be handed out again. The file-scope
variables are `Globals`, what the handlers act on is `Devices`.

A call that lets the network run before it returns is a `Frame` on `Server.stack`. This covers the waits and
`do_http_upgrade` of the main loop, and the flash reads of a backup: one that goes through `run_command` enters the hush
parser, which polls once before it executes the command. `Trail` and `History` are history variables.
-/

namespace ResQBoot.Failsafe

def u32 (n : Nat) : Nat := n % 2 ^ 32

def u64 (n : Nat) : Nat := n % 2 ^ 64

lemma u32_of_lt {n : Nat} (lt : n < 2 ^ 32) : u32 n = n := Nat.mod_eq_of_lt lt

lemma u64_of_lt {n : Nat} (lt : n < 2 ^ 64) : u64 n = n := Nat.mod_eq_of_lt lt

/-- The address of a heap block. -/
abbrev Addr := Nat

inductive ConnState where
  | none
  | fileRequest
  | uploadRequest
  deriving DecidableEq, Repr

inductive UpgradeType where
  | firmware
  | uboot
  | art
  | img
  | cdt
  | mibib
  | ptable
  | initramfs
  deriving DecidableEq, Repr

inductive ImgFlash where
  | unset
  | nor
  | nand
  | emmc
  | nandRaw
  deriving DecidableEq, Repr

inductive FlashSel where
  | nor
  | nand
  | emmc
  deriving DecidableEq, Repr

inductive Region where
  | ram
  | partJson
  | aboutJson
  | upgradeStatus
  | led
  | btnDetect
  | envSet
  | macInfo
  | macSet
  | redirect
  | webterm
  deriving DecidableEq, Repr

inductive Ptr where
  | null
  | text (t : Bytes) (off : Nat)
  | mem (r : Region) (a : Nat)
  deriving DecidableEq, Repr

def ramPtr (a : Nat) : Ptr := if a = 0 then .null else .mem .ram a

def Ptr.add : Ptr → Nat → Ptr
  | .null, _ => .null
  | .text t off, n => .text t (off + n)
  | .mem r a, n => .mem r (a + n)

def Ptr.deref (m : Region → Mem) : Ptr → Nat → Bytes
  | .null, _ => []
  | .text t off, n => (t.drop off).take n
  | .mem r a, n => (m r).read a n

structure Pcb where
  id : Nat
  out : Bytes := []
  deriving DecidableEq, Repr

structure Trail where
  built : Bytes := []
  fileType : Option UpgradeType := none
  body : Option (Nat × Nat) := none
  deriving DecidableEq, Repr

structure Conn where
  state : ConnState := .none
  lastActivity : UInt32 := 0
  dataptr : Ptr := .null
  upload : Nat := 0
  uploadTotal : Nat := 0
  ownsGlobal : Bool := false
  pcb : Pcb
  trail : Trail := {}
  deriving DecidableEq, Repr

structure Upload where
  ramEnd : Nat := 0
  dataStartFound : Bool := false
  fileTooBig : Bool := false
  failed : Bool := false
  done : Bool := false
  deriving DecidableEq, Repr

structure Backup where
  dataSize : Nat := 0
  dataAddr : Nat := 0
  sendingHeader : Bool := false
  totalRemaining : Nat := 0
  totalSent : Nat := 0
  totalSize : Nat := 0
  chunkOffset : Nat := 0
  chunked : Bool := false
  chunkBusy : Bool := false
  raw : Bool := false
  flashType : Option FlashSel := none
  partName : Bytes := []
  deriving DecidableEq, Repr

structure Target where
  upgradeType : UpgradeType := .firmware
  imgFlash : ImgFlash := .unset
  backupAvail : Bool := false
  autoReboot : Bool := true
  deriving DecidableEq, Repr

structure FlashCall where
  partName : Bytes
  offset : Nat
  size : Nat
  raw : Bool
  flashType : Option FlashSel
  deriving DecidableEq, Repr

inductive ReadPhase where
  | direct
  | poll
  | polled
  deriving DecidableEq, Repr

inductive Frame where
  | backupRead (h : Addr) (totalSize : Nat) (call : FlashCall) (phase : ReadPhase)
  | chunkRead (call : FlashCall) (phase : ReadPhase) (owner : Option Nat)
  | chunkWait (owner : Option Nat)
  | command
  | upgradeWait (second : Bool)
  | upgrading
  | failedWait
  | doneWait
  deriving DecidableEq, Repr

inductive LedAction where
  | on
  | off
  | toggle
  deriving DecidableEq, Repr

structure Webterm where
  ready : Bool := false
  buffer : Mem := fun _ => 0
  head : Nat := 0
  tail : Nat := 0
  count : Nat := 0
  line : Bytes := []
  prevCharWasCr : Bool := false
  outputSeq : Nat := 0
  pendingCmd : Bytes := []
  hasPendingCmd : Bool := false
  abortRequested : Bool := false
  executed : List Bytes := []

structure Devices where
  env : Bytes → Option Bytes := fun _ => none
  savedEnv : Bytes → Option Bytes := fun _ => none
  art : Bytes := []
  leds : List (Bytes × LedAction) := []
  term : Webterm := {}

structure Board where
  uploadAddr : Nat
  sdramEnd : Nat
  firmwareMaxSize : Nat
  ubootSize : Nat
  artSize : Nat
  cdtSize : Nat
  mibibSize : Nat
  initramfsMaxSize : Nat
  gpioMax : Nat
  fs : List (Bytes × Bytes)
  indexHtml : Bytes
  notFoundHtml : Bytes
  about : Devices → Bytes × Bool
  partitions : Devices → Bytes × Bool
  macInfo : Devices → Bytes
  btnDetect : Devices → Bytes
  flashCapacity : Bytes → Bool → Option FlashSel → Nat
  readPolls : FlashCall → Bool
  macaddrModifyBase : Bytes → Int → Bytes → Int × Bytes
  macaddrModifyWifi : Bytes → Int → Bytes → Int × Bytes
  uploadAddr_eq : uploadAddr = 0x4b000000 ∨ uploadAddr = 0x88000000
  sdramEnd_aligned : sdramEnd % 0x10000 = 0
  upload_in_ram : uploadAddr ≤ u32 sdramEnd
  ubootSize_lt : uploadAddr + ubootSize < 2 ^ 32

def Board.ramEnd (b : Board) : Nat := u32 b.sdramEnd

def Board.ramAvail (b : Board) : Nat := b.ramEnd - b.uploadAddr

lemma Board.ramAvail_lt (b : Board) : b.ramAvail < 2 ^ 32 := by
  have := Nat.mod_lt b.sdramEnd (by decide : 0 < 2 ^ 32)
  rw [Board.ramAvail, Board.ramEnd, u32]
  omega

def sampleBoard : Board where
  uploadAddr := 0x4b000000
  sdramEnd := 0x60000000
  firmwareMaxSize := 0x4000000
  ubootSize := 0x100000
  artSize := 0x40000
  cdtSize := 0x10000
  mibibSize := 0x10000
  initramfsMaxSize := 0x4000000
  gpioMax := 80
  fs := [(bytes "/index.html", bytes "HTTP/1.0 200 OK\r\n\r\nindex"),
    (bytes "/404.html", bytes "HTTP/1.0 404 File not found\r\n\r\n404")]
  indexHtml := bytes "/index.html"
  notFoundHtml := bytes "/404.html"
  about := fun _ => (bytes "\x7b\x7d", true)
  partitions := fun _ => (bytes "[]", true)
  macInfo := fun _ => bytes "[]"
  btnDetect := fun _ => bytes "[]"
  flashCapacity := fun _ _ _ => 0
  readPolls := fun call => call.flashType = some .nor
  macaddrModifyBase := fun _ _ art => (0, art)
  macaddrModifyWifi := fun _ _ art => (0, art)
  uploadAddr_eq := .inl rfl
  sdramEnd_aligned := rfl
  upload_in_ram := by decide
  ubootSize_lt := by decide

structure Completed where
  id : Nat
  size : Nat
  type : UpgradeType
  deriving DecidableEq, Repr

structure Entered where
  upTo : Nat
  size : Nat
  type : UpgradeType
  deriving DecidableEq, Repr

structure History where
  completed : List Completed := []
  entered : List Entered := []
  discarded : List Nat := []
  closed : List (Pcb × Trail) := []

structure Globals where
  boundaryValue : Option Bytes := none
  upload : Upload := {}
  backup : Backup := {}
  upgradeStatus : Nat := 0
  hsGlobal : Option Addr := none
  uploadPending : Bool := false
  uploadHs : Option Addr := none
  dataPointer : Nat := 0
  readyForUpgrade : Bool := false
  isRunning : Bool := false
  target : Target := {}
  netBootFileSize : Nat := 0
  crashed : Bool := false
  hist : History := {}

structure Server extends Globals where
  conns : Addr → Option Conn := fun _ => none
  mem : Region → Mem := fun _ _ => 0
  dev : Devices := {}
  stack : List Frame := []
  nextId : Nat := 0

def boot : Server := { isRunning := true }

structure Segment where
  data : Bytes
  length_lt : data.length < 2 ^ 16

end ResQBoot.Failsafe
