import ResQBoot.Lib.Lines
import ResQBoot.Lib.Numeral
import ResQBoot.Failsafe.Handlers
import ResQBoot.Failsafe.UrlDecode

/-!
# The reset_key setting

`env_reset_gpio` reads the variable that `POST /env_set` stores. Both have a digit loop of their own that gives up before
the value can pass GPIO_MAX.
-/

namespace ResQBoot.Failsafe

def envResetLoop (gpioMax : Nat) : Nat → Bytes → Option Nat
  | gpio, [] => some gpio
  | gpio, c :: t =>
    if !isDigit c || (gpioMax - 1) / 10 < gpio then none
    else
      let gpio := gpio * 10 + (c.toNat - 48)
      if gpioMax ≤ gpio then none else envResetLoop gpioMax gpio t

def envResetGpio (b : Board) (env : Bytes → Option Bytes) (cached : Int) : Int :=
  if cached = -2 then
    match env (bytes "reset_key") with
    | none => -1
    | some val =>
      if val.isEmpty then -1
      else
        match envResetLoop b.gpioMax 0 val with
        | none => -1
        | some gpio => gpio
  else cached

def envResetGpioInvalidate : Int := -2

def envSetCached (b : Board) (cached : Int) (data : Bytes) : Int :=
  match envFields data with
  | none => cached
  | some f =>
    if f.1 = bytes "reset_key" then
      if f.2.isEmpty || resetKeyLoop b.gpioMax 0 f.2 then envResetGpioInvalidate else cached
    else cached

def EnvAccepts (b : Board) (dev : Devices) (data : Bytes) (dev' : Devices) : Prop :=
  httpdHandleEnvSet b dev data = .printed dev' .envSet (plainHeader (bytes "200 OK") ++ bytes "ok")

structure SetsKey (data t : Bytes) : Prop where
  body : ∃ p more, strstr data 0 (bytes "\r\n\r\n") = some p ∧
    cstr (data.drop (p + 4)) = bytes "reset_key" ++ 61 :: (t ++ more) ∧ ∀ c ∈ more.head?, c = 38

/-! ## The loops -/

section Loops

variable {gpioMax acc : Nat} {c : UInt8} {l : Bytes}

lemma envResetLoop_eq (below : acc < gpioMax ∨ l ≠ []) : envResetLoop gpioMax acc l =
    if l.all isDigit = true ∧ numeralFrom 10 acc l < gpioMax then some (numeralFrom 10 acc l) else none := by
  induction l generalizing acc with
  | nil =>
    have lt : acc < gpioMax := below.resolve_right fun some_ => some_ rfl
    rw [if_pos ⟨rfl, lt⟩]
    rfl
  | cons c l ih =>
    rw [envResetLoop]
    by_cases digit : isDigit c = true
    · have value : numeralFrom 10 acc (c :: l) = numeralFrom 10 (acc * 10 + (c.toNat - 48)) l := by
        rw [numeralFrom, List.foldl_cons, xdigit, if_pos digit]
        rfl
      have least := le_numeralFrom (by decide : 0 < 10) (acc * 10 + (c.toNat - 48)) l
      simp only [List.all_cons, digit, Bool.true_and, Bool.not_true, Bool.false_or, decide_eq_true_eq, value]
      by_cases lt : acc * 10 + (c.toNat - 48) < gpioMax
      · rw [if_neg (by omega), if_neg (by omega), ih (.inl lt)]
      · rw [if_neg (by omega : ¬ (_ ∧ numeralFrom 10 (acc * 10 + (c.toNat - 48)) l < gpioMax))]
        split
        · rfl
        · rw [if_pos (by omega)]
    · rw [if_pos (by simp [digit]), if_neg (by simp [digit])]

lemma resetKeyLoop_eq (gpioMax acc : Nat) (l : Bytes) :
    resetKeyLoop gpioMax acc l = (envResetLoop gpioMax acc l).isSome := by
  induction l generalizing acc with
  | nil => rfl
  | cons c l ih =>
    rw [resetKeyLoop, envResetLoop]
    split
    · rfl
    · dsimp only
      split
      · rfl
      · exact ih _

end Loops

lemma envResetGpio_fresh {b : Board} {env : Bytes → Option Bytes} {v : Bytes} (has : env (bytes "reset_key") = some v) :
    envResetGpio b env envResetGpioInvalidate =
      if v ≠ [] ∧ v.all isDigit = true ∧ numeral 10 v < b.gpioMax then (numeral 10 v : Int) else -1 := by
  rw [envResetGpio, envResetGpioInvalidate, if_pos rfl, has]
  cases v with
  | nil => simp
  | cons c v =>
    dsimp only
    rw [List.isEmpty_cons, if_neg Bool.false_ne_true, envResetLoop_eq (.inr (List.cons_ne_nil c v)), numeral]
    by_cases valid : (c :: v).all isDigit = true ∧ numeralFrom 10 0 (c :: v) < b.gpioMax
    · rw [if_pos valid, if_pos ⟨List.cons_ne_nil c v, valid⟩]
    · rw [if_neg valid, if_neg fun both => valid both.2]

/-! ## The request -/

section Request

variable {b : Board} {dev dev' : Devices} {data t : Bytes}

lemma envAccepts_iff : EnvAccepts b dev data dev' ↔ envVerdict b dev data = .ok dev' := by
  rw [EnvAccepts, httpdHandleEnvSet]
  cases envVerdict b dev data with
  | ok _ => simp [Answer.printed]
  | error | bad =>
    exact ⟨fun eq => absurd (Option.some.inj (congrArg Answer.store eq)) (by decide), fun eq => by cases eq⟩

lemma envFields_body {p : Nat} {n more : Bytes} (found : strstr data 0 (bytes "\r\n\r\n") = some p)
    (body : cstr (data.drop (p + 4)) = n ++ 61 :: (t ++ more)) (ends : ∀ c ∈ more.head?, c = 38)
    (name : 61 ∉ n) (amp : 38 ∉ n ++ 61 :: t) (short : n.length < 64) :
    envFields data = if 128 ≤ t.length then none else some (cstr (urlDecode n), cstr (urlDecode t)) := by
  have stop : (find [38] (n ++ 61 :: (t ++ more))).getD (n ++ 61 :: (t ++ more)).length = n.length + (t.length + 1) := by
    cases more with
    | nil =>
      rw [List.append_nil, find_absent (List.mem_singleton_self 38) amp, List.length_append]
      rfl
    | cons c more =>
      obtain rfl := ends c rfl
      have first := find_byte amp more
      rw [List.append_assoc] at first
      rw [← List.cons_append, first, List.length_append]
      rfl
  have value : ((n ++ 61 :: (t ++ more)).drop (n.length + 1)).take (n.length + (t.length + 1) - (n.length + 1)) = t := by
    rw [List.drop_length_add_append, Nat.add_sub_add_left, Nat.add_sub_cancel]
    exact List.take_left
  rw [envFields, found]
  dsimp only
  rw [body, find_byte name]
  dsimp only
  rw [stop, if_pos (by omega), value, List.take_left, decide_eq_false (by omega), Bool.false_or]
  simp only [decide_eq_true_eq]

lemma resetKeyLoop_iff {gpioMax : Nat} {v : Bytes} (some_ : v ≠ []) :
    resetKeyLoop gpioMax 0 v = true ↔ (∀ c ∈ v, isDigit c = true) ∧ numeral 10 v < gpioMax := by
  rw [resetKeyLoop_eq, envResetLoop_eq (.inr some_), ← List.all_eq_true, numeral]
  split_ifs with valid
  · exact iff_of_true rfl valid
  · exact iff_of_false Bool.false_ne_true valid

section Key

variable {enc : Encoding} {v : Bytes} (sets : SetsKey data t) (encoded : Encodes enc v t) (text : 0 ∉ v ∧ v.length < 128)
include sets encoded text

lemma SetsKey.fields : envFields data = if 128 ≤ t.length then none else some (bytes "reset_key", v) := by
  obtain ⟨p, more, found, body, ends⟩ := sets.body
  have front : (38 : UInt8) ∉ bytes "reset_key" ++ [61] := by decide
  have amp : 38 ∉ bytes "reset_key" ++ 61 :: t := by
    rw [← List.singleton_append, ← List.append_assoc, List.mem_append]
    rintro (mem | mem)
    · exact front mem
    · exact (encoded.plain _ mem).2.1 rfl
  have name : cstr (urlDecode (bytes "reset_key")) = bytes "reset_key" := by decide
  rw [envFields_body found body ends (by decide) amp (by decide), name, urlDecode_encodes encoded,
    cstr_eq_self text.1]

lemma SetsKey.accepts_iff (some_ : v ≠ []) : EnvAccepts b dev data dev' ↔
    ((∀ c ∈ v, isDigit c = true) ∧ numeral 10 v < b.gpioMax) ∧ dev' = (dev.setenv (bytes "reset_key") v).saveenv := by
  rw [envAccepts_iff, envVerdict, sets.fields encoded text, ← resetKeyLoop_iff some_]
  by_cases long : 128 ≤ t.length
  · rw [if_pos long]
    constructor
    · rintro ⟨⟩
    · rintro ⟨valid, -⟩
      rw [encoded.digits ((resetKeyLoop_iff some_).mp valid).1] at long
      omega
  · rw [if_neg long, Option.elim_some, envApply, if_pos rfl, List.isEmpty_eq_false_iff.mpr some_, Bool.false_or]
    split_ifs with valid
    · rw [EnvVerdict.ok.injEq]
      exact ⟨fun eq => ⟨valid, eq.symm⟩, fun both => both.2.symm⟩
    · exact ⟨by rintro ⟨⟩, fun both => absurd both.1 valid⟩

lemma SetsKey.cached (some_ : v ≠ []) (valid : (∀ c ∈ v, isDigit c = true) ∧ numeral 10 v < b.gpioMax) (cached : Int) :
    envSetCached b cached data = envResetGpioInvalidate := by
  have short : ¬ 128 ≤ t.length := by
    rw [encoded.digits valid.1]
    omega
  rw [envSetCached, sets.fields encoded text, if_neg short]
  dsimp only
  rw [if_pos rfl, (resetKeyLoop_iff some_).mpr valid, Bool.or_true, if_pos rfl]

end Key

end Request

/-- `/env_set` accepts a reset_key exactly when `env_reset_gpio` accepts it from the environment, and that is the case for
the digits of a number below GPIO_MAX; after a set the number is what `env_reset_gpio` returns, whatever it remembers. -/
theorem reset_key_agrees (b : Board) (dev : Devices) (enc : Encoding) (v t data : Bytes) (env : Bytes → Option Bytes)
    (text : 0 ∉ v ∧ v.length < 128) (encoded : Encodes enc v t) (sets : SetsKey data t)
    (has : env (bytes "reset_key") = some v) :
    ((v ≠ [] ∧ ∃ dev', EnvAccepts b dev data dev') ↔ 0 ≤ envResetGpio b env envResetGpioInvalidate) ∧
    (0 ≤ envResetGpio b env envResetGpioInvalidate ↔
      v ≠ [] ∧ (∀ c ∈ v, isDigit c = true) ∧ numeral 10 v < b.gpioMax) ∧
    (v ≠ [] → ∀ dev', EnvAccepts b dev data dev' →
      ∀ cached, envResetGpio b dev'.env (envSetCached b cached data) = numeral 10 v) := by
  have reads : 0 ≤ envResetGpio b env envResetGpioInvalidate ↔
      v ≠ [] ∧ (∀ c ∈ v, isDigit c = true) ∧ numeral 10 v < b.gpioMax := by
    rw [envResetGpio_fresh has, ← List.all_eq_true]
    split
    · rename_i valid
      exact iff_of_true (Int.natCast_nonneg _) valid
    · rename_i other
      exact iff_of_false (by decide) other
  refine ⟨?_, reads, ?_⟩
  · rw [reads, and_congr_right_iff]
    intro some_
    constructor
    · rintro ⟨dev', accepts⟩
      exact ((sets.accepts_iff encoded text some_).mp accepts).1
    · intro valid
      exact ⟨_, (sets.accepts_iff encoded text some_).mpr ⟨valid, rfl⟩⟩
  · intro some_ dev' accepts cached
    obtain ⟨valid, rfl⟩ := (sets.accepts_iff encoded text some_).mp accepts
    have stored : (dev.setenv (bytes "reset_key") v).saveenv.env (bytes "reset_key") = some v := by
      rw [Devices.saveenv, Devices.setenv]
      dsimp only
      rw [if_pos rfl, List.isEmpty_eq_false_iff.mpr some_, if_neg Bool.false_ne_true]
    rw [sets.cached encoded text some_ valid, envResetGpio_fresh stored,
      if_pos ⟨some_, List.all_eq_true.mpr valid.1, valid.2⟩]

theorem reset_key_agrees_padded : SetsKey (bytes "POST /env_set\r\n\r\nreset_key=0042") (bytes "0042") ∧
    0 ≤ envResetGpio sampleBoard (fun _ => some (bytes "0042")) envResetGpioInvalidate ∧
    ∃ dev', EnvAccepts sampleBoard {} (bytes "POST /env_set\r\n\r\nreset_key=0042") dev' ∧
      envResetGpio sampleBoard dev'.env (envSetCached sampleBoard 17 (bytes "POST /env_set\r\n\r\nreset_key=0042")) = 42 := by
  have sets : SetsKey (bytes "POST /env_set\r\n\r\nreset_key=0042") (bytes "0042") :=
    ⟨13, [], by decide, by decide, by rintro c ⟨⟩⟩
  have encoded : Encodes .form (bytes "0042") (bytes "0042") :=
    .cons (.kept rfl) (.cons (.kept rfl) (.cons (.kept rfl) (.cons (.kept rfl) .nil)))
  obtain ⟨agree, reads, next⟩ := reset_key_agrees sampleBoard {} .form (bytes "0042") (bytes "0042") _
    (fun _ => some (bytes "0042")) ⟨by decide, by decide⟩ encoded sets rfl
  have accepted := reads.mpr ⟨by decide, by decide +kernel, by decide⟩
  obtain ⟨some_, dev', accepts⟩ := agree.mpr accepted
  exact ⟨sets, accepted, dev', accepts, next some_ dev' accepts 17⟩

end ResQBoot.Failsafe
