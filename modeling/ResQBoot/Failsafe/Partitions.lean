import ResQBoot.Lib.Listing
import ResQBoot.Lib.Lines
import ResQBoot.Failsafe.Override
import ResQBoot.Upgrade.Bootconfig

/-!
# The partition listing

`httpd_handle_partitions` prints the tables as JSON into a buffer of 4096 bytes. Each loop stops at a limit of its own,
and the summary is printed below 3776 bytes only. `completeJson` is the listing as it should be.
-/

namespace ResQBoot.Failsafe

open Upgrade (Setup)
open ResQBoot.Flash (Ptn GptPart BlockDev)

def partJsonBufSize : Nat := 4096

/-! ### Entries -/

def FlashSel.label : FlashSel → Bytes
  | .nor => bytes "nor"
  | .nand => bytes "nand"
  | .emmc => bytes "emmc"

structure BlockRange where
  start : Nat
  size : Nat
  blksz : Nat

structure ListedPart where
  name : Bytes
  start : Nat
  size : Nat
  flash : FlashSel
  blocks : Option BlockRange

def BlockRange.json (r : BlockRange) : Bytes :=
  bytes ",\"blk_start\":" ++ decimal r.start ++ bytes ",\"blk_size\":" ++ decimal r.size ++ bytes ",\"blksz\":" ++
    decimal r.blksz

def ListedPart.json (p : ListedPart) : Bytes :=
  bytes "\x7b\"name\":\"" ++ p.name ++ bytes "\",\"start\":" ++ decimal p.start ++ bytes ",\"size\":" ++
    decimal p.size ++ bytes ",\"flash\":\"" ++ p.flash.label ++ bytes "\"" ++ (p.blocks.map BlockRange.json).getD [] ++
    bytes "\x7d"

def smemPart (s : Setup) (p : Ptn) : ListedPart where
  name := p.name
  start := p.start * s.board.blockSize % 2 ^ 32
  size :=
    (if p.size = Flash.tillEnd then
      s.board.deviceSizeByPart p + 2 ^ 64 - p.start * s.board.getPartBlockSize p
    else p.size * s.board.getPartBlockSize p) % 2 ^ 32
  flash := if isNandFlash s.topology || s.board.getWhichFlashParam p.name ≠ 0 then .nand else .nor
  blocks := none

def emmcListed (d : BlockDev) (name : Bytes) (start size : Nat) : ListedPart :=
  ⟨name, start * d.blksz, size * d.blksz, .emmc, some ⟨start, size, d.blksz⟩⟩

def gptPart (d : BlockDev) (g : GptPart) : ListedPart :=
  emmcListed d (g.name.take 31) (g.info d.blksz).start (g.info d.blksz).size

def primaryPart (d : BlockDev) : ListedPart := emmcListed d Flash.gptPartName 0 34

def backupPart (d : BlockDev) : ListedPart :=
  emmcListed d Flash.gptBackupPartName ((d.lba + 2 ^ 32 - 33) % 2 ^ 32) 33

/-! ### Printing -/

def gptLoop (d : BlockDev) : List (Option GptPart) → Listing → Listing
  | [], l => l
  | slot :: t, l =>
    if l.text.length < partJsonBufSize - 340 then
      match slot with
      | none => gptLoop d t l
      | some g =>
        let entry := bytes "," ++ (gptPart d g).json
        if entry.length ≥ partJsonBufSize - l.text.length then l
        else gptLoop d t ⟨l.text ++ entry, l.count + 1⟩
    else l

def appendBackup (d : BlockDev) (l : Listing) : Listing :=
  let entry := bytes "," ++ (backupPart d).json
  if 340 ≤ partJsonBufSize - l.text.length ∧ entry.length < partJsonBufSize - l.text.length then
    ⟨l.text ++ entry, l.count + 1⟩
  else l

def appendEmmcGptJson (d : BlockDev) (l : Listing) : Listing :=
  if partJsonBufSize - l.text.length < 340 then l
  else
    let entry := (if 0 < l.count then bytes "," else []) ++ (primaryPart d).json
    if entry.length ≥ partJsonBufSize - l.text.length then l
    else appendBackup d (gptLoop d d.gpt ⟨l.text ++ entry, l.count + 1⟩)

def listedEmmc (s : Setup) : Option BlockDev :=
  if s.topology = .mmcFlash ∨
      (s.board.flashType = .spiFlash ∨ s.topology = .norPlusEmmc) ∧
        (s.board.secondary = .mmcFlash ∨ s.board.rootfsUnset ∨ s.topology = .norPlusEmmc) then
    s.board.emmc
  else none

def openedJson : Listing := ⟨bytes "\x7b\"parts\":[", 0⟩

def printedParts (s : Setup) : Listing :=
  let l :=
    if s.topology = .mmcFlash then openedJson
    else Listing.addWhile (partJsonBufSize - 200) (s.board.table.map fun p => (smemPart s p).json) openedJson
  match listedEmmc s with
  | none => l
  | some d => appendEmmcGptJson d l

def jsonBool (x : Bool) : Bytes := if x then bytes "true" else bytes "false"

def hasSpi (s : Setup) : Bool := s.board.flashType = .spiFlash

def summaryFields (s : Setup) (b : Board) (spiNand : Bool) : List Bytes :=
  [bytes "],\"has_spi\":", jsonBool (hasSpi s),
    bytes ",\"spi_size\":", decimal (if hasSpi s then s.board.norSize else 0),
    bytes ",\"has_nand\":", jsonBool s.board.nand.isSome,
    bytes ",\"nand_size\":", decimal (u32 (s.nandCapacity false)),
    bytes ",\"nand_raw_size\":", decimal (u32 (s.nandCapacity true)),
    bytes ",\"ram_available\":", decimal (u32 (b.sdramEnd - b.uploadAddr)),
    bytes ",\"has_emmc\":", jsonBool (listedEmmc s).isSome,
    bytes ",\"emmc_size\":", decimal ((listedEmmc s).elim 0 fun d => d.lba * d.blksz),
    bytes ",\"nand_type\":\"", if s.board.nand.isSome && spiNand then bytes "spi" else bytes "parallel"]

def summaryJson (s : Setup) (b : Board) (spiNand : Bool) : Bytes :=
  (summaryFields s b spiNand).flatten ++ bytes "\"\x7d"

def partitionsJson (s : Setup) (b : Board) (spiNand : Bool) : Bytes × Bool :=
  let text := (printedParts s).text
  if text.length < partJsonBufSize - 320 then (text ++ summaryJson s b spiNand, true)
  else if text.length ≤ partJsonBufSize - 3 then (text ++ bytes "]\x7d", true)
  else (text, false)

/-! ### The complete listing -/

def allParts (s : Setup) : List ListedPart :=
  (if s.topology = .mmcFlash then [] else s.board.table.map (smemPart s)) ++
    match listedEmmc s with
    | none => []
    | some d => primaryPart d :: ((d.gpt.filterMap id).map (gptPart d) ++ [backupPart d])

def completeParts (s : Setup) : Bytes := (openedJson.addAll ((allParts s).map ListedPart.json)).text

def completeJson (s : Setup) (b : Board) (spiNand : Bool) : Bytes := completeParts s ++ summaryJson s b spiNand

/-! ### Lengths -/

section Lengths

variable {s : Setup} {d : BlockDev} {l : Listing}

lemma length_label (f : FlashSel) : f.label.length ≤ 4 := by
  cases f <;> decide

lemma BlockRange.length_json (r : BlockRange) :
    r.json.length = 34 + (decimal r.start).length + (decimal r.size).length + (decimal r.blksz).length := by
  have words : (bytes ",\"blk_start\":").length = 13 ∧ (bytes ",\"blk_size\":").length = 12 ∧
      (bytes ",\"blksz\":").length = 9 := ⟨rfl, rfl, rfl⟩
  simp only [BlockRange.json, List.length_append]
  omega

lemma ListedPart.length_json (p : ListedPart) :
    p.json.length = 39 + p.name.length + (decimal p.start).length + (decimal p.size).length + p.flash.label.length +
      ((p.blocks.map BlockRange.json).getD []).length := by
  have words : (bytes "\x7b\"name\":\"").length = 9 ∧ (bytes "\",\"start\":").length = 10 ∧
      (bytes ",\"size\":").length = 8 ∧ (bytes ",\"flash\":\"").length = 10 ∧ (bytes "\"").length = 1 ∧
      (bytes "\x7d").length = 1 := ⟨rfl, rfl, rfl, rfl, rfl, rfl⟩
  simp only [ListedPart.json, List.length_append]
  omega

lemma smemPart_short (s : Setup) (p : Ptn) : (smemPart s p).json.length < 79 := by
  have text := (smemPart s p).length_json
  have label := length_label (smemPart s p).flash
  have name : (smemPart s p).name.length < 16 := p.terminated
  have start : (decimal (smemPart s p).start).length ≤ 10 :=
    length_decimal (by decide) (Nat.lt_trans (Nat.mod_lt _ (by decide)) (by decide : 2 ^ 32 < 10 ^ 10))
  have size : (decimal (smemPart s p).size).length ≤ 10 :=
    length_decimal (by decide) (Nat.lt_trans (Nat.mod_lt _ (by decide)) (by decide : 2 ^ 32 < 10 ^ 10))
  have blocks : (((smemPart s p).blocks.map BlockRange.json).getD []).length = 0 := rfl
  omega

lemma blksz_le (d : BlockDev) : d.blksz ≤ 512 := Nat.le_of_dvd (by decide) d.divides

lemma length_address {n : Nat} (lt : n < 2 ^ 32) : (decimal (n * d.blksz)).length ≤ 13 := by
  refine length_decimal (by decide) ?_
  calc n * d.blksz ≤ 2 ^ 32 * 512 := Nat.mul_le_mul (Nat.le_of_lt lt) (blksz_le d)
    _ < 10 ^ 13 := by decide

lemma decimal_pos (n : Nat) : 0 < (decimal n).length := List.length_pos_of_ne_nil (decimal_ne_nil n)

lemma emmcListed_long (d : BlockDev) (name : Bytes) (start size : Nat) :
    82 ≤ (emmcListed d name start size).json.length := by
  have text := (emmcListed d name start size).length_json
  have blocks := BlockRange.length_json ⟨start, size, d.blksz⟩
  have label : FlashSel.emmc.label.length = 4 := rfl
  have first := decimal_pos (start * d.blksz)
  have second := decimal_pos (size * d.blksz)
  have third := decimal_pos start
  have fourth := decimal_pos size
  have fifth := decimal_pos d.blksz
  simp only [emmcListed, Option.map_some, Option.getD_some] at text blocks ⊢
  omega

lemma emmcListed_short {name : Bytes} {start size : Nat} (short : name.length ≤ 31) (start_lt : start < 2 ^ 32)
    (size_lt : size < 2 ^ 32) : (emmcListed d name start size).json.length ≤ 157 := by
  have text := (emmcListed d name start size).length_json
  have blocks := BlockRange.length_json ⟨start, size, d.blksz⟩
  have label : FlashSel.emmc.label.length = 4 := rfl
  have first : (decimal (start * d.blksz)).length ≤ 13 := length_address start_lt
  have second : (decimal (size * d.blksz)).length ≤ 13 := length_address size_lt
  have third : (decimal start).length ≤ 10 := length_decimal (by decide) (by omega)
  have fourth : (decimal size).length ≤ 10 := length_decimal (by decide) (by omega)
  have fifth : (decimal d.blksz).length ≤ 3 := by
    have := blksz_le d
    exact length_decimal (by decide) (by omega)
  simp only [emmcListed, Option.map_some, Option.getD_some] at text blocks ⊢
  omega

lemma gptPart_short (d : BlockDev) (g : GptPart) : (gptPart d g).json.length ≤ 157 := by
  refine emmcListed_short ?_ (Nat.mod_lt _ (by decide)) (Nat.mod_lt _ (by decide))
  rw [List.length_take]
  omega

lemma primaryPart_short (d : BlockDev) : (primaryPart d).json.length ≤ 157 :=
  emmcListed_short (by decide) (by decide) (by decide)

lemma backupPart_short (d : BlockDev) : (backupPart d).json.length ≤ 157 :=
  emmcListed_short (by decide) (Nat.mod_lt _ (by decide)) (by decide)

/-! ### What is printed -/

lemma comma_length (entry : Bytes) : (bytes "," ++ entry).length = entry.length + 1 := by
  rw [List.length_append, Nat.add_comm]
  rfl

def gptEntries (d : BlockDev) (slots : List (Option GptPart)) : List Bytes :=
  (slots.filterMap id).map fun g => (gptPart d g).json

lemma gptLoop_eq {slots : List (Option GptPart)} (more : 0 < l.count)
    (below : (l.addAll (gptEntries d slots)).text.length < partJsonBufSize - 340) :
    gptLoop d slots l = l.addAll (gptEntries d slots) := by
  have here := Nat.lt_of_le_of_lt (Listing.le_length_addAll l _) below
  induction slots generalizing l with
  | nil => rfl
  | cons slot t ih =>
    cases slot with
    | none =>
      rw [gptLoop, if_pos here]
      exact ih more below here
    | some g =>
      have entries : gptEntries d (some g :: t) = (gptPart d g).json :: gptEntries d t := rfl
      rw [entries, Listing.addAll_cons, Listing.add_eq more] at below ⊢
      have next := Nat.lt_of_le_of_lt (Listing.le_length_addAll _ _) below
      have short := gptPart_short d g
      have comma := comma_length (gptPart d g).json
      rw [gptLoop, if_pos here, if_neg (by simp only [partJsonBufSize] at here ⊢; omega)]
      exact ih (Nat.succ_pos _) below next

lemma length_gptLoop {slots : List (Option GptPart)} (below : l.text.length < 3975) :
    (gptLoop d slots l).text.length < 3975 := by
  induction slots generalizing l with
  | nil => exact below
  | cons slot t ih =>
    cases slot with
    | none =>
      rw [gptLoop]
      split
      · exact ih below
      · exact below
    | some g =>
      rw [gptLoop]
      split
      · rename_i room
        have short := gptPart_short d g
        have comma := comma_length (gptPart d g).json
        simp only
        split
        · exact below
        · refine ih ?_
          rw [List.length_append]
          simp only [partJsonBufSize] at room
          omega
      · exact below

lemma appendEmmcGptJson_room (room : l.text.length ≤ partJsonBufSize - 340) :
    appendEmmcGptJson d l = appendBackup d (gptLoop d d.gpt (l.add (primaryPart d).json)) := by
  have added := (l.length_add (primaryPart d).json).2
  have short := primaryPart_short d
  rw [Listing.add, List.append_assoc] at added ⊢
  rw [List.length_append] at added
  simp only [partJsonBufSize] at room
  rw [appendEmmcGptJson, if_neg (by simp only [partJsonBufSize]; omega), if_neg (by simp only [partJsonBufSize]; omega)]

lemma length_appendEmmcGptJson (below : l.text.length < 3975) : (appendEmmcGptJson d l).text.length < 3975 := by
  by_cases room : l.text.length ≤ partJsonBufSize - 340
  · rw [appendEmmcGptJson_room room, appendBackup]
    simp only [partJsonBufSize] at room
    have added := (l.length_add (primaryPart d).json).2
    have first := primaryPart_short d
    have loop : (gptLoop d d.gpt (l.add (primaryPart d).json)).text.length < 3975 := length_gptLoop (by omega)
    split
    · rename_i left
      have last := backupPart_short d
      have comma := comma_length (backupPart d).json
      rw [List.length_append]
      simp only [partJsonBufSize] at left
      omega
    · exact loop
  · rw [appendEmmcGptJson, if_pos (by simp only [partJsonBufSize] at room ⊢; omega)]
    exact below

lemma appendEmmcGptJson_eq
    (below : (l.addAll ((primaryPart d).json :: (gptEntries d d.gpt ++ [(backupPart d).json]))).text.length <
      partJsonBufSize - 320) :
    appendEmmcGptJson d l = l.addAll ((primaryPart d).json :: (gptEntries d d.gpt ++ [(backupPart d).json])) := by
  have listed : l.addAll ((primaryPart d).json :: (gptEntries d d.gpt ++ [(backupPart d).json])) =
      ((l.add (primaryPart d).json).addAll (gptEntries d d.gpt)).add (backupPart d).json := by
    rw [Listing.addAll_cons, Listing.addAll_append]
    rfl
  rw [listed] at below ⊢
  have first := (l.length_add (primaryPart d).json).1
  have slots := (l.add (primaryPart d).json).le_length_addAll (gptEntries d d.gpt)
  have last := (((l.add (primaryPart d).json).addAll (gptEntries d d.gpt)).length_add (backupPart d).json).1
  -- an entry has more than the 20 bytes between the two limits
  have long : 82 ≤ (backupPart d).json.length := emmcListed_long ..
  have comma := comma_length (backupPart d).json
  have more : 0 < ((l.add (primaryPart d).json).addAll (gptEntries d d.gpt)).count :=
    Nat.lt_of_lt_of_le (Nat.succ_pos l.count) (Listing.le_count_addAll (l.add (primaryPart d).json) _)
  simp only [partJsonBufSize] at below
  rw [appendEmmcGptJson_room (by simp only [partJsonBufSize]; omega),
    gptLoop_eq (Nat.succ_pos _) (by simp only [partJsonBufSize]; omega), appendBackup, Listing.add_eq more, if_pos]
  simp only [partJsonBufSize]
  rw [Listing.add_eq more, List.length_append] at below
  omega

lemma length_printedParts (s : Setup) : (printedParts s).text.length < 3975 := by
  have start : openedJson.text.length = 10 := rfl
  have smem : (Listing.addWhile (partJsonBufSize - 200) (s.board.table.map fun p => (smemPart s p).json)
      openedJson).text.length < partJsonBufSize - 200 + 79 := by
    refine Listing.length_addWhile (fun entry mem => ?_) (by rw [start]; decide)
    obtain ⟨p, -, rfl⟩ := List.mem_map.mp mem
    exact smemPart_short s p
  have front : (if s.topology = .mmcFlash then openedJson else Listing.addWhile (partJsonBufSize - 200)
      (s.board.table.map fun p => (smemPart s p).json) openedJson).text.length < 3975 := by
    split
    · rw [start]
      decide
    · exact smem
  rw [printedParts]
  split
  · exact front
  · exact length_appendEmmcGptJson front

def smemEntries (s : Setup) : List Bytes :=
  if s.topology = .mmcFlash then [] else s.board.table.map fun p => (smemPart s p).json

def emmcEntries (s : Setup) : List Bytes :=
  match listedEmmc s with
  | none => []
  | some d => (primaryPart d).json :: (gptEntries d d.gpt ++ [(backupPart d).json])

lemma completeParts_eq (s : Setup) :
    completeParts s = ((openedJson.addAll (smemEntries s)).addAll (emmcEntries s)).text := by
  have smem : (if s.topology = .mmcFlash then [] else s.board.table.map (smemPart s)).map ListedPart.json =
      smemEntries s := by
    rw [smemEntries]
    split
    · rfl
    · rw [List.map_map]
      rfl
  rw [completeParts, allParts, List.map_append, Listing.addAll_append, smem, emmcEntries]
  cases listedEmmc s with
  | none => rfl
  | some d => simp only [List.map_cons, List.map_append, List.map_map, List.map_nil, gptEntries, Function.comp_def]

lemma printedParts_eq (below : (completeParts s).length < partJsonBufSize - 320) :
    (printedParts s).text = completeParts s := by
  rw [completeParts_eq] at below ⊢
  have smem : (if s.topology = .mmcFlash then openedJson else Listing.addWhile (partJsonBufSize - 200)
      (s.board.table.map fun p => (smemPart s p).json) openedJson) = openedJson.addAll (smemEntries s) := by
    have front := Listing.le_length_addAll (openedJson.addAll (smemEntries s)) (emmcEntries s)
    rw [smemEntries] at front below ⊢
    split
    · rfl
    · rename_i topology
      rw [if_neg topology] at front below
      simp only [partJsonBufSize] at below ⊢
      exact Listing.addWhile_eq (by omega)
  rw [printedParts, smem]
  rw [emmcEntries] at below ⊢
  cases emmc : listedEmmc s with
  | none => rfl
  | some d =>
    rw [emmc] at below
    exact congrArg Listing.text (appendEmmcGptJson_eq below)

lemma length_jsonBool (x : Bool) : (jsonBool x).length ≤ 5 := by
  cases x <;> decide

lemma length_u32 (n : Nat) : (decimal (u32 n)).length ≤ 10 :=
  length_decimal (by decide) (Nat.lt_trans (Nat.mod_lt _ (by decide)) (by decide : 2 ^ 32 < 10 ^ 10))

lemma length_summaryJson (s : Setup) (b : Board) (spiNand : Bool) : (summaryJson s b spiNand).length ≤ 205 := by
  have words : (bytes "],\"has_spi\":").length = 12 ∧ (bytes ",\"spi_size\":").length = 12 ∧
      (bytes ",\"has_nand\":").length = 12 ∧ (bytes ",\"nand_size\":").length = 13 ∧
      (bytes ",\"nand_raw_size\":").length = 17 ∧ (bytes ",\"ram_available\":").length = 17 ∧
      (bytes ",\"has_emmc\":").length = 12 ∧ (bytes ",\"emmc_size\":").length = 13 ∧
      (bytes ",\"nand_type\":\"").length = 14 ∧ (bytes "\"\x7d").length = 2 :=
    ⟨rfl, rfl, rfl, rfl, rfl, rfl, rfl, rfl, rfl, rfl⟩
  have spi : (decimal (if hasSpi s then s.board.norSize else 0)).length ≤ 10 := by
    refine length_decimal (by decide) ?_
    have := s.board.norSize_lt
    split <;> omega
  have emmc : (decimal ((listedEmmc s).elim 0 fun d => d.lba * d.blksz)).length ≤ 13 := by
    cases listedEmmc s with
    | none => decide
    | some d => exact length_address d.lba_lt
  have kind : (if s.board.nand.isSome && spiNand then bytes "spi" else bytes "parallel").length ≤ 8 := by
    split <;> decide
  have hasSpi := length_jsonBool (hasSpi s)
  have hasNand := length_jsonBool s.board.nand.isSome
  have hasEmmc := length_jsonBool (listedEmmc s).isSome
  have nand := length_u32 (s.nandCapacity false)
  have raw := length_u32 (s.nandCapacity true)
  have ram := length_u32 (b.sdramEnd - b.uploadAddr)
  simp only [summaryJson, summaryFields, List.flatten_cons, List.flatten_nil, List.length_append, List.length_nil]
  omega

lemma length_jsonHeader {n : Nat} (lt : n < 10 ^ 4) : (jsonHeader [] n).length ≤ 92 := by
  have words : (bytes "HTTP/1.0 200 OK\r\n").length = 17 ∧
      (bytes "Content-Type: application/json\r\nContent-Length: ").length = 48 ∧
      (bytes "\r\nConnection: close\r\n\r\n").length = 23 := ⟨rfl, rfl, rfl⟩
  have digits : (decimal n).length ≤ 4 := length_decimal (by decide) lt
  simp only [jsonHeader, List.length_append, List.length_nil]
  omega

end Lengths

/-! ### The response -/

def withTables (s : Setup) (b : Board) (spiNand : Bool) : Board :=
  { b with partitions := fun _ => partitionsJson s b spiNand }

def Answer.listing (dev : Devices) (text : Bytes) : Answer :=
  { dev := dev, store := some (.partJson, jsonHeader [] text.length ++ text),
    reply := some (.mem .partJson 0, (jsonHeader [] text.length).length + text.length) }

def ListsAll (s : Setup) (b : Board) (spiNand : Bool) (dev : Devices) : Prop :=
  let listing := completeJson s b spiNand
  httpdHandlePartitions (withTables s b spiNand) dev = .listing dev listing ∨
    partJsonBufSize < (jsonHeader [] listing.length).length + listing.length ∧
      ∃ n, (httpdHandlePartitions (withTables s b spiNand) dev).reply = some (.text
        (bytes "HTTP/1.0 500 Internal Server Error\r\nConnection: close\r\n\r\npartitions too large") 0, n)

section Response

variable {s : Setup} {b : Board} {spiNand : Bool} {dev : Devices}

lemma partitionsJson_fits (s : Setup) (b : Board) (spiNand : Bool) :
    (partitionsJson s b spiNand).2 = true ∧ (partitionsJson s b spiNand).1.length < 3981 := by
  have printed := length_printedParts s
  have summary := length_summaryJson s b spiNand
  have close : (bytes "]\x7d").length = 2 := rfl
  rw [partitionsJson]
  split
  · rename_i low
    simp only [partJsonBufSize] at low
    refine ⟨rfl, ?_⟩
    rw [List.length_append]
    omega
  · rw [if_pos (by simp only [partJsonBufSize]; omega)]
    refine ⟨rfl, ?_⟩
    rw [List.length_append, close]
    omega

lemma httpdHandlePartitions_listing : httpdHandlePartitions (withTables s b spiNand) dev =
    .listing dev (partitionsJson s b spiNand).1 := by
  obtain ⟨closed, length⟩ := partitionsJson_fits s b spiNand
  have header := length_jsonHeader (Nat.lt_trans length (by decide))
  have fits : ¬(!(partitionsJson s b spiNand).2 || decide (4096 <
      (jsonHeader [] (partitionsJson s b spiNand).1.length).length + (partitionsJson s b spiNand).1.length)) = true := by
    rw [closed, Bool.not_true, Bool.false_or, decide_eq_true_eq]
    omega
  have tables : (withTables s b spiNand).partitions dev = partitionsJson s b spiNand := rfl
  rw [httpdHandlePartitions, sizedReport, tables, if_neg fits, Answer.listing]

lemma Answer.listing_inj {t t' : Bytes} (eq : Answer.listing dev t = .listing dev t') : t = t' := by
  have stored := congrArg Answer.store eq
  simp only [Answer.listing, Option.some.injEq, Prod.mk.injEq, true_and, jsonHeader, List.append_assoc,
    List.append_cancel_left_eq] at stored
  exact List.append_cancel_left (decimal_line_inj stored).2

lemma partitionsJson_ne (long : partJsonBufSize - 320 ≤ (completeParts s).length) :
    (partitionsJson s b spiNand).1 ≠ completeJson s b spiNand := by
  have printed := length_printedParts s
  rw [partitionsJson]
  split
  · rename_i low
    intro same
    rw [List.append_cancel_right same] at low
    exact absurd low (Nat.not_lt_of_le long)
  · rw [if_pos (by simp only [partJsonBufSize]; omega)]
    intro same
    rw [completeJson, summaryJson, ← List.append_assoc] at same
    cases List.append_inj_right' same rfl

end Response

/-- A request for the partitions is answered with all of them and the summary, or with an error where they do not
fit, exactly where the list without the summary is shorter than 3776 bytes. -/
theorem partitions_complete_iff (s : Setup) (b : Board) (spiNand : Bool) (dev : Devices) :
    ListsAll s b spiNand dev ↔ (completeParts s).length < partJsonBufSize - 320 := by
  rw [ListsAll, httpdHandlePartitions_listing]
  constructor
  · rintro (same | ⟨-, n, error⟩)
    · by_contra long
      exact partitionsJson_ne (Nat.le_of_not_lt long) (Answer.listing_inj same)
    · cases error
  · intro below
    left
    have printed := printedParts_eq below
    rw [partitionsJson, printed, if_pos below, completeJson]

def manyParts : Setup :=
  { Upgrade.onlyGpt with
    board := { Upgrade.onlyGpt.board with
      emmc := some ⟨⟨512, 15269888, Gpt.sector_dvd, by decide⟩,
        (List.range 45).map fun i => some ⟨bytes "0:PART" ++ decimal i, 34 + i, 34 + i⟩⟩ } }

lemma manyParts_long {entry : Bytes} (mem : entry ∈ (allParts manyParts).map ListedPart.json) : 82 ≤ entry.length := by
  obtain ⟨p, listed, rfl⟩ := List.mem_map.mp mem
  have topology : manyParts.topology = .mmcFlash := rfl
  have emmc : listedEmmc manyParts = manyParts.board.emmc := rfl
  rw [allParts, if_pos topology, List.nil_append, emmc, manyParts] at listed
  simp only [List.mem_cons, List.mem_append, List.mem_map, List.not_mem_nil, or_false] at listed
  obtain rfl | ⟨g, -, rfl⟩ | rfl := listed
  · exact emmcListed_long ..
  · exact emmcListed_long ..
  · exact emmcListed_long ..

/-- They are answered with a 200 that does not list them all with the summary. -/
theorem partitions_shortened : ∃ text,
    httpdHandlePartitions (withTables manyParts sampleBoard false) {} = .listing {} text ∧
      text ≠ completeJson manyParts sampleBoard false := by
  refine ⟨_, httpdHandlePartitions_listing, partitionsJson_ne ?_⟩
  have total := Listing.length_addAll_ge openedJson fun entry mem => manyParts_long mem
  have count : (allParts manyParts).length = 47 := rfl
  rw [List.length_map, count] at total
  exact Nat.le_trans (by decide) total

end ResQBoot.Failsafe
