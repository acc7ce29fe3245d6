import ResQBoot.Board.Macaddr
import ResQBoot.Failsafe.Handlers
import ResQBoot.Lib.Numeral

/-!
# Which pins an LED request drives

Neither `fdt_get_gpio_number` nor the driver compares a number with `GPIO_MAX`, and the address of the register is
computed in 32 bits, so that a large number can meet a register again.
-/

namespace ResQBoot.Failsafe

def gpioMax : Soc → Nat
  | .ipq6018 | .ipq6018M2 => 80
  | .ipq40xx => 100
  | .ipq807x => 70
  | .ipq806x => 68
  | .ipq5332 => 53
  | .ipq5018 => 47
  | .ipq9574 => 65

def gpioInOutAddr (soc : Soc) (gpio : Nat) : Nat :=
  if soc = .ipq806x then (0x00800000 + 0x1004 + gpio * 0x10) % 2 ^ 32
  else (0x01000000 + 0x4 + gpio * 0x1000) % 2 ^ 32

structure Writel where
  addr : Nat
  val : UInt32
  deriving DecidableEq, Repr

def gpioSetValue (soc : Soc) (regs : Nat → UInt32) (gpio : Nat) (out : UInt32) : Writel :=
  let addr := gpioInOutAddr soc gpio
  ⟨addr, regs addr &&& ~~~(0x2 : UInt32) ||| out <<< 1⟩

def gpioGetValue (soc : Soc) (regs : Nat → UInt32) (gpio : Nat) : UInt32 := regs (gpioInOutAddr soc gpio) &&& 1

/-- The device tree: for a path, whether there is a node and its `gpio` property, if it has one. -/
abbrev DevTree := Bytes → Option (Option UInt32)

def fdtFindGpioNode (tree : DevTree) (name : Bytes) : Option (Option UInt32) :=
  (tree name).or ((tree (bytes "/tlmm-gpio/key_gpio/" ++ name)).or (tree (bytes "/tlmm-gpio/led_gpio/" ++ name)))

def fdtGetGpioNumber (env : Bytes → Option Bytes) (tree : DevTree) (name : Bytes) : Int :=
  let (num, rest) := simpleStrto 32 10 name
  if rest.isEmpty ∧ rest.length ≠ name.length then toInt32 num
  else
    match env name with
    | some val => toInt32 (simpleStrto 32 10 val).1
    | none =>
      match fdtFindGpioNode tree name with
      | none => -1
      | some prop => toInt32 ((prop.map UInt32.toNat).getD 0)

def ledSet (soc : Soc) (env : Bytes → Option Bytes) (tree : DevTree) (regs : Nat → UInt32) (out : Nat → UInt32)
    (name : Bytes) : List Writel :=
  let gpio := fdtGetGpioNumber env tree name
  if gpio < 0 then [] else [gpioSetValue soc regs gpio.toNat (out gpio.toNat)]

def ledOn (soc : Soc) (env : Bytes → Option Bytes) (tree : DevTree) (regs : Nat → UInt32) : Bytes → List Writel :=
  ledSet soc env tree regs fun _ => 1

def ledOff (soc : Soc) (env : Bytes → Option Bytes) (tree : DevTree) (regs : Nat → UInt32) : Bytes → List Writel :=
  ledSet soc env tree regs fun _ => 0

def ledToggle (soc : Soc) (env : Bytes → Option Bytes) (tree : DevTree) (regs : Nat → UInt32) : Bytes → List Writel :=
  ledSet soc env tree regs fun gpio => if gpioGetValue soc regs gpio = 0 then 1 else 0

def ledWrites (soc : Soc) (env : Bytes → Option Bytes) (tree : DevTree) (regs : Nat → UInt32) (call : Bytes × LedAction) :
    List Writel :=
  match call.2 with
  | .on => ledOn soc env tree regs call.1
  | .off => ledOff soc env tree regs call.1
  | .toggle => ledToggle soc env tree regs call.1

def ledCalls (dev : Devices) (data : Bytes) : List (Bytes × LedAction) :=
  (httpdHandleLed dev data).dev.leds.drop dev.leds.length

/-! ## Registers of pins -/

def IsPin (soc : Soc) (w : Writel) : Prop := ∃ pin, pin < gpioMax soc ∧ w.addr = gpioInOutAddr soc pin

def gpioPeriod (soc : Soc) : Nat := if soc = .ipq806x then 2 ^ 28 else 2 ^ 20

lemma gpioMax_bounds (soc : Soc) : 0 < gpioMax soc ∧ gpioMax soc ≤ 100 := by cases soc <;> decide

lemma isPin_iff (soc : Soc) (regs : Nat → UInt32) (gpio : Nat) (out : UInt32) :
    IsPin soc (gpioSetValue soc regs gpio out) ↔ gpio % gpioPeriod soc < gpioMax soc := by
  have bounds := gpioMax_bounds soc
  simp only [IsPin, gpioSetValue, gpioInOutAddr, gpioPeriod]
  split
  · constructor
    · rintro ⟨pin, lt, eq⟩
      omega
    · intro lt
      exact ⟨gpio % 2 ^ 28, lt, by omega⟩
  · constructor
    · rintro ⟨pin, lt, eq⟩
      omega
    · intro lt
      exact ⟨gpio % 2 ^ 20, lt, by omega⟩

def TreeValid (soc : Soc) (tree : DevTree) : Prop := ∀ path v, tree path = some (some v) → v.toNat < gpioMax soc

def textPin (env : Bytes → Option Bytes) (name : Bytes) : Option Nat :=
  if (simpleStrto 32 10 name).2.isEmpty ∧ (simpleStrto 32 10 name).2.length ≠ name.length then
    some (simpleStrto 32 10 name).1
  else (env name).map fun val => (simpleStrto 32 10 val).1

section Pins

variable {soc : Soc} {env : Bytes → Option Bytes} {tree : DevTree} {regs : Nat → UInt32} {o : Nat → UInt32}
  {name : Bytes}

lemma toInt32_neg {v : Nat} : toInt32 v < 0 ↔ 2 ^ 31 ≤ v ∧ v < 2 ^ 32 := by
  rw [toInt32]
  split <;> omega

lemma simpleStrto_lt (s : Bytes) : (simpleStrto 32 10 s).1 < 2 ^ 32 := by
  rw [simpleStrto_ten]
  split <;> exact Nat.mod_lt _ (by decide)

lemma findNode_valid (valid : TreeValid soc tree) {prop : Option UInt32}
    (found : fdtFindGpioNode tree name = some prop) : (prop.map UInt32.toNat).getD 0 < gpioMax soc := by
  obtain ⟨path, here⟩ : ∃ path, tree path = some prop := by
    rw [fdtFindGpioNode] at found
    rcases Option.or_eq_some_iff.mp found with here | ⟨-, found⟩
    · exact ⟨_, here⟩
    rcases Option.or_eq_some_iff.mp found with here | ⟨-, here⟩
    · exact ⟨_, here⟩
    · exact ⟨_, here⟩
  cases prop with
  | none => exact (gpioMax_bounds soc).1
  | some v => exact valid path v here

lemma fdtGetGpioNumber_eq (env : Bytes → Option Bytes) (tree : DevTree) (name : Bytes) :
    fdtGetGpioNumber env tree name = ((textPin env name).map toInt32).getD
      (((fdtFindGpioNode tree name).map fun prop => toInt32 ((prop.map UInt32.toNat).getD 0)).getD (-1)) := by
  simp only [fdtGetGpioNumber, textPin]
  split
  · rfl
  · cases env name with
    | some val => rfl
    | none => cases fdtFindGpioNode tree name <;> rfl

lemma textPin_lt {v : Nat} (found : textPin env name = some v) : v < 2 ^ 32 := by
  rw [textPin] at found
  split at found
  · cases found
    exact simpleStrto_lt name
  · obtain ⟨val, -, rfl⟩ := Option.map_eq_some_iff.mp found
    exact simpleStrto_lt val

lemma ledSet_iff (valid : TreeValid soc tree) : (∀ w ∈ ledSet soc env tree regs o name, IsPin soc w) ↔
    ∀ v, textPin env name = some v → v < 2 ^ 31 → v % gpioPeriod soc < gpioMax soc := by
  have bounds := gpioMax_bounds soc
  have period : 100 < gpioPeriod soc := by
    rw [gpioPeriod]
    split <;> decide
  rw [ledSet, fdtGetGpioNumber_eq]
  cases text : textPin env name with
  | some v =>
    have lt := textPin_lt text
    simp only [Option.map_some, Option.getD_some, Option.some.injEq, forall_eq', toInt32_neg]
    split
    · rename_i neg
      refine iff_of_true (by simp) ?_
      intro small
      omega
    · have small : v < 2 ^ 31 := by omega
      have same : (toInt32 v).toNat = v := by
        rw [toInt32, if_pos small]
        rfl
      rw [List.forall_mem_singleton, same, isPin_iff]
      exact ⟨fun lt _ => lt, fun lt => lt small⟩
  | none =>
    refine iff_of_true ?_ (by rintro v ⟨⟩)
    simp only [Option.map_none, Option.getD_none]
    cases found : fdtFindGpioNode tree name with
    | none => simp
    | some prop =>
      have pin := findNode_valid valid found
      have small : (prop.map UInt32.toNat).getD 0 < 2 ^ 31 := by omega
      simp only [Option.map_some, Option.getD_some]
      rw [toInt32, if_pos small, if_neg (by omega), List.forall_mem_singleton, isPin_iff, Int.toNat_natCast,
        Nat.mod_eq_of_lt (by omega)]
      exact pin

lemma ledWrites_iff (valid : TreeValid soc tree) (call : Bytes × LedAction) :
    (∀ w ∈ ledWrites soc env tree regs call, IsPin soc w) ↔
      ∀ v, textPin env call.1 = some v → v < 2 ^ 31 → v % gpioPeriod soc < gpioMax soc := by
  obtain ⟨name, action⟩ := call
  cases action with
  | on => exact ledSet_iff (o := fun _ => 1) valid
  | off => exact ledSet_iff (o := fun _ => 0) valid
  | toggle => exact ledSet_iff (o := fun gpio => if gpioGetValue soc regs gpio = 0 then 1 else 0) valid

end Pins

/-- Every register that a request writes is one of a pin exactly if the number that its name gives, or the environment
for it, is negative or comes round to a pin. -/
theorem led_pins_iff (soc : Soc) (dev : Devices) (tree : DevTree) (valid : TreeValid soc tree) (regs : Nat → UInt32)
    (data : Bytes) :
    (∀ call ∈ ledCalls dev data, ∀ w ∈ ledWrites soc dev.env tree regs call, IsPin soc w) ↔
      ∀ call ∈ ledCalls dev data, ∀ v, textPin dev.env call.1 = some v →
        v < 2 ^ 31 → v % gpioPeriod soc < gpioMax soc :=
  forall_congr' fun call => imp_congr_right fun _ => ledWrites_iff valid call

def ledRequest (name : String) : Bytes := bytes "GET /led?name=" ++ bytes name ++ bytes "&action=on HTTP/1.1\r\n\r\n"

theorem led_pin_25 : ledCalls {} (ledRequest "25") = [(bytes "25", .on)] ∧
    ∀ w ∈ ledWrites .ipq6018 (fun _ => none) (fun _ => none) (fun _ => 0) (bytes "25", .on), IsPin .ipq6018 w := by
  have call : ledCalls {} (ledRequest "25") = [(bytes "25", .on)] := by decide
  have pins := (led_pins_iff .ipq6018 {} (fun _ => none) (by rintro path v ⟨⟩) (fun _ => 0) (ledRequest "25")).mpr
  rw [call] at pins
  refine ⟨call, pins ?_ _ List.mem_cons_self⟩
  intro call' mem v found _
  rw [List.mem_singleton.mp mem] at found
  obtain rfl : 25 = v := Option.some.inj found
  decide

/-- A number behind the last pin: a register that belongs to none is written. -/
theorem led_pin_100 : ledCalls {} (ledRequest "100") = [(bytes "100", .on)] ∧
    ledWrites .ipq6018 (fun _ => none) (fun _ => none) (fun _ => 0) (bytes "100", .on) = [⟨0x1064004, 2⟩] ∧
    ¬ IsPin .ipq6018 ⟨0x1064004, 2⟩ := by
  refine ⟨by decide, by rfl, ?_⟩
  rintro ⟨pin, lt, eq⟩
  change pin < 80 at lt
  change 0x1064004 = (0x01000000 + 0x4 + pin * 0x1000) % 2 ^ 32 at eq
  omega

end ResQBoot.Failsafe
