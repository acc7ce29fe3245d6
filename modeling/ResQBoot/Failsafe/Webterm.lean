import ResQBoot.Failsafe.Types

/-!
# The web terminal

`common/webterm.c`: output is captured line by line into a ring, read back by sequence number, and a posted command is
queued for the main loop. In `webtermAnswer`, `none` stands for the paths that return without a response. The line
buffer is the list `line`, and `webterm_output_seq` is a number, without the wrap of `int` past 2 GiB of output.
-/

namespace ResQBoot.Failsafe

def webtermBufferSize : Nat := 16384

def webtermLineSize : Nat := 256

def webtermMaxCmdLen : Nat := 4096

namespace Webterm

def batchCopy (t : Webterm) (src : Bytes) : Webterm :=
  let first := min src.length (webtermBufferSize - t.head)
  let buffer := t.buffer.write t.head (src.take first)
  let head := if 0 < first then (t.head + first) % webtermBufferSize else t.head
  let buffer := if first < src.length then buffer.write 0 (src.drop first) else buffer
  let head := if first < src.length then src.length - first else head
  let count := t.count + src.length
  { t with
    buffer := buffer
    head := head
    tail := if webtermBufferSize < count then
        (t.tail + count - webtermBufferSize) % webtermBufferSize else t.tail
    count := min count webtermBufferSize
    outputSeq := t.outputSeq + src.length }

def flushLine (t : Webterm) : Webterm :=
  { t.batchCopy (t.line ++ [10]) with line := [] }

def flushPending (t : Webterm) : Webterm :=
  if t.line.isEmpty then t else t.flushLine

def addChar (t : Webterm) (c : UInt8) : Webterm :=
  if !t.ready then t
  else if c = 10 ∨ c = 13 then
    if c = 10 ∧ t.prevCharWasCr then { t with prevCharWasCr := false }
    else ({ t with prevCharWasCr := c = 13 } : Webterm).flushPending
  else
    let t : Webterm := { t with prevCharWasCr := false }
    let t := if webtermLineSize - 1 ≤ t.line.length then t.flushLine else t
    { t with line := t.line ++ [c] }

def captureOutput (t : Webterm) (str : Bytes) : Webterm :=
  (cstr str).foldl addChar t

def reset (t : Webterm) : Webterm :=
  if t.ready then
    { t with head := 0, tail := 0, count := 0, outputSeq := 0, line := [], prevCharWasCr := false }
  else { t with outputSeq := 0, line := [], prevCharWasCr := false }

def getOutput (t : Webterm) (size : Nat) (since : Int) : Bytes :=
  let since := since.toNat
  if !t.ready ∨ size = 0 ∨ t.count = 0 ∨ t.outputSeq ≤ since then []
  else
    let len := min (min (t.outputSeq - since) t.count) (size - 1)
    let pos := (t.tail + (t.count - len)) % webtermBufferSize
    let first := min len (webtermBufferSize - pos)
    t.buffer.read pos first ++ t.buffer.read 0 (len - first)

def executeCommand (t : Webterm) (running : Bool) (cmd : Bytes) : Webterm :=
  let t := ({ t with abortRequested := false } : Webterm).captureOutput
    (bytes "> " ++ cmd ++ [10])
  if running then { t with pendingCmd := cmd.take (webtermMaxCmdLen - 1), hasPendingCmd := true }
  else ({ t with executed := t.executed ++ [cmd] } : Webterm).flushPending

def startPendingCommand (t : Webterm) : Webterm :=
  { t with hasPendingCmd := false, abortRequested := false,
           executed := t.executed ++ [cstr t.pendingCmd] }

end Webterm

def webtermParsePostBody (data : Bytes) : Option Bytes :=
  match strstr data 0 (bytes "\r\n\r\n") with
  | none => none
  | some p =>
    let body := data.drop (p + 4)
    if body.length = 0 ∨ webtermMaxCmdLen < body.length then none
    else
      let out := cstr (body.take (webtermMaxCmdLen - 1))
      some (out.takeWhile fun c => c ≠ 13 ∧ c ≠ 10)

def webtermResponse (code : Nat) (ctype body : Bytes) : Bytes :=
  bytes "HTTP/1.1 " ++ decimal code ++ bytes " " ++ (if code = 200 then bytes "OK" else bytes "405") ++
    bytes "\r\nContent-Type: " ++ ctype ++
    bytes "\r\nCache-Control: no-cache\r\nConnection: close\r\n\r\n" ++ body

def webtermVerdict (isPost : Bool) : Bytes :=
  webtermResponse (if isPost then 200 else 405) (bytes "text/plain")
    (if isPost then bytes "OK\n" else bytes "405\n")

/-- A `long` has 32 bits. -/
def simpleStrtol (s : Bytes) : Int :=
  match s with
  | 45 :: t => (-((simpleStrto 32 10 t).1 : Int)).bmod (2 ^ 32)
  | _ => ((simpleStrto 32 10 s).1 : Int).bmod (2 ^ 32)

def webtermAnswer (t : Webterm) (running : Bool) (data : Bytes) : Webterm × Option Bytes :=
  if !(hasAt data 0 (bytes "GET ") || hasAt data 0 (bytes "POST ")) then (t, none)
  else
    let isPost := !hasAt data 0 (bytes "GET ")
    let path := if isPost then 5 else 4
    if !hasAt data path (bytes "/webterm/") then (t, none)
    else
      let path := path + 9
      if hasAt data path (bytes "cmd") then
        let t := if isPost then
            match webtermParsePostBody data with
            | some cmd => t.executeCommand running cmd
            | none => t
          else t
        (t, some (webtermVerdict isPost))
      else if hasAt data path (bytes "abort") then
        (if isPost then { t with abortRequested := true } else t, some (webtermVerdict isPost))
      else if hasAt data path (bytes "reset") then
        (t.reset, some (webtermResponse 200 (bytes "text/plain") (bytes "OK\n")))
      else if isPost then (t, none)
      else if hasAt data path (bytes "status") then
        let t := t.flushPending
        (t, some (webtermResponse 200 (bytes "text/plain") (decimal t.outputSeq)))
      else if hasAt data path (bytes "data") then
        let t := t.flushPending
        let since := match strstr data path (bytes "?since=") with
          | some q => simpleStrtol (cstr (data.drop (q + 7)))
          | none => 0
        (t, some (webtermResponse 200 (bytes "text/plain; charset=utf-8")
          (cstr (t.getOutput webtermBufferSize since))))
      else (t, none)

end ResQBoot.Failsafe
