import ResQBoot.Failsafe.Conn

/-!
# Uploads

The upload path of `failsafe_httpd.c`. `start`, the text from the boundary on, is the C string there: all the `strstr`
calls of the selection run on it. Pointers and `u32_t` values are numbers below 2 ^ 32 and their sums wrap.
-/

namespace ResQBoot.Failsafe

structure UploadType where
  name : Bytes
  type : UpgradeType
  getMaxSize : Option (Board → Nat)

def uploadTypes : List UploadType :=
  [⟨bytes "name=\"firmware\"", .firmware, some Board.firmwareMaxSize⟩,
    ⟨bytes "name=\"uboot\"", .uboot, some Board.ubootSize⟩,
    ⟨bytes "name=\"art\"", .art, some Board.artSize⟩,
    ⟨bytes "name=\"img\"", .img, none⟩,
    ⟨bytes "name=\"cdt\"", .cdt, some Board.cdtSize⟩,
    ⟨bytes "name=\"mibib\"", .mibib, some Board.mibibSize⟩,
    ⟨bytes "name=\"ptable\"", .ptable, none⟩,
    ⟨bytes "name=\"initramfs\"", .initramfs, some Board.initramfsMaxSize⟩]

def contains (pat text : Bytes) : Bool := (find pat text).isSome

def findUploadType (start : Bytes) : Option UploadType :=
  uploadTypes.find? fun t => contains t.name start

def selectImgFlash (start : Bytes) : ImgFlash :=
  if contains (bytes "img_nand_raw") start then .nandRaw
  else if contains (bytes "img_nand") start then .nand
  else if contains (bytes "img_emmc") start then .emmc
  else if contains (bytes "img_nor") start then .nor
  else .unset

def blankLine : Bytes := bytes "\r\n\r\n"

def selectAutoReboot (start : Bytes) : Bool :=
  match find (bytes "auto_reboot") start with
  | none => true
  | some k =>
    match find blankLine (start.drop k) with
    | none => true
    | some j => if j < 100 then start.getD (k + j + 4) 0 ≠ 48 else true

def selectTarget (old : Target) (type : UpgradeType) (start : Bytes) : Target :=
  { upgradeType := type
    imgFlash := if type = .img then selectImgFlash start else old.imgFlash
    backupAvail := contains (bytes "flash_backup") start
    autoReboot := selectAutoReboot start }

def fileHeaderEnd (t : UploadType) (start : Bytes) : Option Nat :=
  match find t.name start with
  | none => none
  | some k => (find blankLine (start.drop k)).map (k + ·)

def Work.setTarget (t : Target) (w : Work) : Work := { w with g := { w.g with target := t } }

def Work.fail (w : Work) : Work :=
  { w with g := { w.g with upload := { w.g.upload with failed := true } } }

def Work.tooBig (w : Work) : Work :=
  { w with g := { w.g with upload := { w.g.upload with failed := true, fileTooBig := true } } }

def Work.setFound (v : Bool) (w : Work) : Work :=
  { w with g := { w.g with upload := { w.g.upload with dataStartFound := v } } }

def Work.append (bs : Bytes) (w : Work) : Work :=
  { w with
    mem := Function.update w.mem .ram ((w.mem .ram).write w.g.dataPointer bs)
    g := { w.g with dataPointer := u32 (w.g.dataPointer + bs.length) } }

def Work.setCount (n : Nat) (w : Work) : Work := { w with hs := { w.hs with upload := n } }

def storeFirst (payload : Bytes) (w : Work) : Work :=
  let w := w.setCount payload.length
  if w.g.upload.fileTooBig then w
  else
    let first := min payload.length w.hs.uploadTotal
    if w.g.upload.ramEnd < u32 (w.g.dataPointer + first) then w.tooBig
    else w.append (payload.take first)

def Work.setFile (t : UploadType) (total : Nat) (w : Work) : Work :=
  { w with hs := { w.hs with
      uploadTotal := total
      trail := { w.hs.trail with fileType := some t.type } } }

def UploadType.tooBig (b : Board) (t : UploadType) (total : Nat) : Bool :=
  match t.getMaxSize with
  | some f => f b < total
  | none => false

def startFile (b : Board) (t : UploadType) (overhead : Nat) (payload : Bytes) (w : Work) :
    Work × Bool :=
  if w.hs.uploadTotal < overhead then (w.fail, false)
  else
    let total := w.hs.uploadTotal - overhead
    let w := w.setFile t total
    let w := if t.tooBig b total then w.tooBig else w
    (storeFirst payload w, true)

def httpdFindandstoreFirstchunk (b : Board) (data : Bytes) (w : Work) : Work × Bool :=
  match w.g.boundaryValue with
  | none => (w, false)
  | some boundary =>
    match strstr data 0 boundary with
    | none => (w, false)
    | some st =>
      let start := cstr (data.drop st)
      match findUploadType start with
      | none => (w, false)
      | some t =>
        let w := w.setTarget (selectTarget w.g.target t.type start)
        match fileHeaderEnd t start with
        | none => (w, false)
        | some e =>
          if data.length ≤ st + e then (w, false)
          else startFile b t (e + 4 + boundary.length + 6) (data.drop (st + e + 4)) w

def isBlank (c : UInt8) : Bool := c = 32 || c = 9

def httpdParseContentLength (data : Bytes) : Option Nat :=
  match strstr data 0 (bytes "Content-Length:") with
  | none => none
  | some p =>
    let num := (cstr (data.drop (p + 15))).dropWhile isBlank
    match find (bytes "\r\n") num with
    | none => none
    | some _ =>
      let (n, rest) := simpleStrto 64 10 num
      let after := rest.dropWhile isBlank
      if after.length = num.length ∨ (after.head? ≠ some 13 ∧ after.head? ≠ some 10) ∨ n = 0 ∨
          0xFFFFFFFF < n then none
      else some n

def httpdParseBoundary (ok : Bool) (data : Bytes) : Option Bytes :=
  match strstr data 0 (bytes "boundary=") with
  | none => none
  | some p =>
    match find (bytes "\r\n") (cstr (data.drop (p + 9))) with
    | none => none
    | some n => if ok then some (bytes "--" ++ (data.drop (p + 9)).take n) else none

def httpdInitUploadRam (b : Board) (w : Work) : Work :=
  let n := if b.ramEnd < u32 (b.uploadAddr + b.ubootSize) then b.ramEnd - b.uploadAddr
    else b.ubootSize
  { w with
    g := { w.g with
      dataPointer := b.uploadAddr
      upload := { w.g.upload with ramEnd := b.ramEnd } }
    mem := Function.update w.mem .ram ((w.mem .ram).fill b.uploadAddr n 0xFF) }

def httpdCheckUploadSize (w : Work) : Bool :=
  if w.hs.uploadTotal < 10240 ∧ w.g.target.upgradeType ≠ .cdt then false
  else if w.g.target.upgradeType = .cdt ∧ w.hs.uploadTotal < 184 then false
  else true

def httpdUploadComplete (w : Work) : Work :=
  let g : Globals := { w.g with
    upload := { w.g.upload with done := true }
    upgradeStatus := 1
    netBootFileSize := w.hs.uploadTotal }
  { w with
    g := if g.upload.failed then g
      else { g with
        uploadPending := true
        uploadHs := some w.h
        hist := { g.hist with completed := g.hist.completed ++
          [⟨w.hs.pcb.id, w.hs.uploadTotal, w.hs.trail.fileType.getD g.target.upgradeType⟩] } } }

def respOk : Bytes := bytes "HTTP/1.0 200 OK\r\nConnection: close\r\n\r\n"

def respErr : Bytes := bytes "HTTP/1.0 500 Internal Server Error\r\nConnection: close\r\n\r\n"

def finishUpload (e : Env) (w : Work) : Work :=
  let w := httpdStateReset e.now (httpdUploadComplete w)
  httpdSendText e (if w.g.upload.failed then respErr else respOk) w

def httpdCheckUploadComplete (e : Env) (w : Work) : Work :=
  match w.g.boundaryValue with
  | none => { w with g := { w.g with crashed := true } }
  | some boundary =>
    if w.hs.uploadTotal + boundary.length + 6 ≤ w.hs.upload then finishUpload e w else w

def Work.written (b : Board) (w : Work) : Nat := u32 (w.g.dataPointer + 2 ^ 32 - b.uploadAddr)

def httpdHandleUploadData (b : Board) (data : Bytes) (w : Work) : Work :=
  let written := w.written b
  if w.hs.uploadTotal < written then w.fail
  else if written = w.hs.uploadTotal then w
  else
    let n := if w.hs.uploadTotal < written + data.length then w.hs.uploadTotal - written
      else data.length
    if 0 < n ∧ w.g.upload.ramEnd < u32 (w.g.dataPointer + n) then w.tooBig
    else w.append (data.take n)

def busyText : Bytes := bytes "HTTP/1.0 503 Service Unavailable\r\nConnection: close\r\n\r\nBusy"

def Work.busy (w : Work) : Bool :=
  w.g.uploadPending || (w.g.hsGlobal.isSome && w.g.hsGlobal ≠ some w.h)

def fileStarted (e : Env) (w : Work) : Work × Fate :=
  let w := w.setFound true
  if httpdCheckUploadSize w then (httpdCheckUploadComplete e w, .keep)
  else httpdCloseConn e.now w

def Work.resetUpload (w : Work) : Work := { w with g := httpdResetUploadState w.g }

def Work.takeOver (total : Nat) (w : Work) : Work :=
  { w with
    hs := { w.hs with uploadTotal := total, state := .uploadRequest, ownsGlobal := true }
    g := { w.g with hsGlobal := some w.h } }

def Work.setBoundary (boundary : Bytes) (w : Work) : Work :=
  { w with g := { w.g with boundaryValue := some boundary } }

def httpdStartUpload (b : Board) (e : Env) (data : Bytes) (w : Work) : Work × Fate :=
  if w.busy then (httpdSendText e busyText w, .keep)
  else
    let w := w.resetUpload
    match httpdParseContentLength data with
    | none => httpdCloseConn e.now w
    | some total =>
      let w := w.takeOver total
      match httpdParseBoundary e.boundaryOk data with
      | none => httpdCloseConn e.now w
      | some boundary =>
        let w := httpdInitUploadRam b (w.setBoundary boundary)
        match httpdFindandstoreFirstchunk b data w with
        | (w, true) => fileStarted e w
        | (w, false) => (w.setFound false, .keep)

def httpdContinueUpload (b : Board) (e : Env) (data : Bytes) (w : Work) : Work × Fate :=
  if w.g.upload.dataStartFound then
    let w := w.setCount (u32 (w.hs.upload + data.length))
    let w := if w.g.upload.failed then w else httpdHandleUploadData b data w
    (httpdCheckUploadComplete e w, .keep)
  else
    match httpdFindandstoreFirstchunk b data w with
    | (w, true) => fileStarted e w
    | (w, false) => httpdCloseConn e.now w

def sampleFirst : Segment :=
  ⟨bytes "POST /upload HTTP/1.1\r\nContent-Length: 258\r\n" ++
    bytes "Content-Type: multipart/form-data; boundary=X\r\n\r\n--X\r\n" ++
    bytes "Content-Disposition: form-data; name=\"cdt\"; filename=\"a\"\r\n\r\n" ++
    List.replicate 100 7, by decide +kernel⟩

def sampleSecond : Segment :=
  ⟨List.replicate 84 8 ++ bytes "\r\n--X--\r\n", by decide⟩

end ResQBoot.Failsafe
