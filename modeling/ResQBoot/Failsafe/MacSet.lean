import ResQBoot.Board.Macaddr
import ResQBoot.Failsafe.FormFields
import ResQBoot.Failsafe.Handlers
import ResQBoot.Lib.Numeral

/-!
# Which requests set an address

`macSet_iff` says which bodies `httpd_handle_mac_set` takes for something else than an exact request: those for which
the lookup reads through NULL, and those whose index is empty, hexadecimal or wraps around, or whose fields go on
behind a NUL.
-/

namespace ResQBoot.Failsafe

def indices (soc : Soc) (wifi : Bool) : Nat := if wifi then soc.wifiMax else soc.noMacs

def ifaceWord (wifi : Bool) : Bytes := if wifi then bytes "wifi" else bytes "eth"

def Board.modify (b : Board) (wifi : Bool) : Bytes → Int → Bytes → Int × Bytes :=
  if wifi then b.macaddrModifyWifi else b.macaddrModifyBase

def Board.Checks (b : Board) (soc : Soc) : Prop :=
  ∀ wifi mac index art, index < 0 ∨ (indices soc wifi : Int) ≤ index →
    (b.modify wifi mac index art).1 < 0 ∧ (b.modify wifi mac index art).2 = art

structure MacRequest (soc : Soc) (body : Bytes) (wifi : Bool) (n : Nat) (mac : Bytes) : Prop where
  iface : ∃ v t, fieldValue (bytes "iface") body = some v ∧ 0 ∉ v ∧ urlDecode v = ifaceWord wifi ++ t ∧
    t ≠ [] ∧ (∀ c ∈ t, isDigit c = true) ∧ numeral 10 t = n
  index : n < indices soc wifi
  mac : ∃ v, fieldValue (bytes "mac") body = some v ∧ 0 ∉ v ∧ macStringValid (urlDecode v) = true ∧
    mac = ethParseEnetaddr (urlDecode v) ∧ isValidEthaddr mac = true

def macEdited (b : Board) (dev : Devices) (wifi : Bool) (n : Int) (mac : Bytes) : Answer :=
  let r := b.modify wifi mac n dev.art
  macReply { dev with art := r.2 } (0 ≤ r.1)

def MacSetExact (soc : Soc) (b : Board) (dev : Devices) (data body : Bytes) : Prop :=
  httpdHandleMacSet b dev data = macReply dev false ∨
    ∃ wifi n mac, MacRequest soc body wifi n mac ∧ httpdHandleMacSet b dev data = macEdited b dev wifi n mac

/-! ## What the server makes of a body -/

def nullLookup (key body : Bytes) : Bool := !((fieldValue key (cstr body)).isSome || endsOpen (cstr body))

def NullBody (body : Bytes) : Prop :=
  nullLookup (bytes "iface") body = true ∨
    (formSpec (cstr body) (bytes "iface") 16).isSome = true ∧ nullLookup (bytes "mac") body = true

structure MacAccepted (soc : Soc) (body vi vm : Bytes) (wifi : Bool) (index : Int) : Prop where
  iface : fieldValue (bytes "iface") (cstr body) = some vi
  ifaceFits : vi.length < 16
  mac : fieldValue (bytes "mac") (cstr body) = some vm
  macFits : vm.length < 32
  named : macIface (cstr (urlDecode vi)) = some (wifi, index)
  low : 0 ≤ index
  high : index < indices soc wifi
  canonical : macStringValid (cstr (urlDecode vm)) = true
  valid : isValidEthaddr (ethParseEnetaddr (cstr (urlDecode vm))) = true

def indexText (wifi : Bool) (vi : Bytes) : Bytes := (cstr (urlDecode vi)).drop (ifaceWord wifi).length

def MacLoose (body vi vm : Bytes) (wifi : Bool) : Prop :=
  fieldValue (bytes "iface") body ≠ some vi ∨ fieldValue (bytes "mac") body ≠ some vm ∨
    0 ∈ urlDecode vi ∨ 0 ∈ urlDecode vm ∨
    indexText wifi vi = [] ∨ hexPrefixed (indexText wifi vi) = true ∨ 2 ^ 32 ≤ numeral 10 (indexText wifi vi)

section Lookup

variable {key body v : Bytes} {size : Nat}

lemma formSpec_some {out : Bytes} : formSpec body key size = some out ↔
    ∃ v, fieldValue key body = some v ∧ v.length < size ∧ urlDecode v = out := by
  rw [formSpec, Option.map_eq_some_iff]
  constructor
  · rintro ⟨v, eq, decoded⟩
    obtain ⟨found, fits⟩ := Option.filter_eq_some_iff.mp eq
    exact ⟨v, found, by simpa using fits, decoded⟩
  · rintro ⟨v, found, fits, decoded⟩
    exact ⟨v, Option.filter_eq_some_iff.mpr ⟨found, by simpa using fits⟩, decoded⟩

lemma httpdFormValue_cases (body key : Bytes) (size : Nat) :
    nullLookup key body = true ∧ httpdFormValue body key size = .nullDeref ∨ nullLookup key body = false ∧
        (formSpec (cstr body) key size = none ∧ httpdFormValue body key size = .failed ∨
          ∃ v, fieldValue key (cstr body) = some v ∧ v.length < size ∧
            httpdFormValue body key size = .found (cstr (urlDecode v))) := by
  rw [httpdFormValue_eq, nullLookup]
  cases (fieldValue key (cstr body)).isSome || endsOpen (cstr body) with
  | false => exact .inl ⟨rfl, rfl⟩
  | true =>
    refine .inr ⟨rfl, ?_⟩
    cases spec : formSpec (cstr body) key size with
    | none => exact .inl ⟨rfl, rfl⟩
    | some out =>
      obtain ⟨v, found, fits, rfl⟩ := formSpec_some.mp spec
      exact .inr ⟨v, found, fits, rfl⟩

lemma fieldValue_zero (rest : Bytes) {c : Bytes} (plain : 0 ∉ c) (found : fieldValue key c = some v) :
    ∃ v', fieldValue key (c ++ 0 :: rest) = some v' ∧ v = cstr v' := by
  induction c using fields_induction with
  | last a single =>
    rw [fieldValue_last single] at found
    split at found
    · rename_i named
      cases found
      have longer : key.length + 1 ≤ a.length := (isNamed_iff.mp named).1
      have cut : ∀ t, isNamed key (a ++ 0 :: t) = true ∧
          a.drop (key.length + 1) = cstr ((a ++ 0 :: t).drop (key.length + 1)) := by
        intro t
        constructor
        · rw [isNamed, List.isPrefixOf_iff_prefix] at named ⊢
          exact named.trans (List.prefix_append _ _)
        · rw [List.drop_append_of_le_length longer, cstr_append _ fun mem => plain (List.mem_of_mem_drop mem)]
          simp [cstr]
      -- the field ends at the next separator, or nowhere
      obtain last | ⟨t, b, rfl, first⟩ := first_field rest
      · have whole : 38 ∉ a ++ 0 :: rest := by simp [single, last]
        rw [fieldValue_last whole, if_pos (cut rest).1]
        exact ⟨_, rfl, (cut rest).2⟩
      · have front : 38 ∉ a ++ 0 :: t := by simp [single, first]
        rw [← List.cons_append, ← List.append_assoc, fieldValue_cons front, if_pos (cut t).1]
        exact ⟨_, rfl, (cut t).2⟩
    · cases found
  | cons a b first ih =>
    have plain' : 0 ∉ b := fun mem => plain (List.mem_append_right _ (List.mem_cons_of_mem _ mem))
    rw [fieldValue_cons first] at found
    rw [List.append_assoc, List.cons_append, fieldValue_cons first]
    split at found
    · rename_i named
      cases found
      rw [if_pos named]
      refine ⟨_, rfl, (cstr_eq_self fun mem => plain (List.mem_append_left _ (List.mem_of_mem_drop mem))).symm⟩
    · rename_i other
      rw [if_neg other]
      exact ih plain' found

lemma fieldValue_cstr (found : fieldValue key (cstr body) = some v) :
    ∃ v', fieldValue key body = some v' ∧ v = cstr v' := by
  have plain := zero_not_mem_cstr body
  obtain whole | ⟨rest, cut⟩ := cstr_cases body
  · rw [whole] at found plain
    exact ⟨v, found, (cstr_eq_self fun mem => plain (mem_of_fieldValue found mem)).symm⟩
  · rw [cut]
    exact fieldValue_zero rest plain found

end Lookup

/-! ## The index -/

section Index

variable {wifi : Bool} {t i : Bytes} {index : Int}

lemma macIface_word (wifi : Bool) (t : Bytes) : macIface (ifaceWord wifi ++ t) =
    if (simpleStrto 32 10 t).2.isEmpty then some (wifi, toInt32 (simpleStrto 32 10 t).1) else none := by
  cases wifi <;> rfl

lemma macIface_some (named : macIface i = some (wifi, index)) : ∃ t, i = ifaceWord wifi ++ t ∧
    (simpleStrto 32 10 t).2 = [] ∧ index = toInt32 (simpleStrto 32 10 t).1 := by
  have word : ∃ w t, i = ifaceWord w ++ t := by
    rw [macIface] at named
    split at named
    · rename_i eth
      obtain ⟨t, eq⟩ := List.isPrefixOf_iff_prefix.mp eth
      exact ⟨false, t, eq.symm⟩
    · split at named
      · rename_i wifi
        obtain ⟨t, eq⟩ := List.isPrefixOf_iff_prefix.mp wifi
        exact ⟨true, t, eq.symm⟩
      · cases named
  obtain ⟨w, t, rfl⟩ := word
  rw [macIface_word] at named
  split at named
  · rename_i done
    cases named
    exact ⟨t, rfl, by simpa using done, rfl⟩
  · cases named

lemma index_decimal (strict : hexPrefixed t = false) (done : (simpleStrto 32 10 t).2 = []) :
    (∀ c ∈ t, isDigit c = true) ∧ (simpleStrto 32 10 t).1 = numeral 10 t % 2 ^ 32 := by
  rw [simpleStrto_ten, strict, if_neg Bool.false_ne_true] at done ⊢
  have all : ∀ c ∈ t, isDigit c = true := List.dropWhile_eq_nil_iff.mp done
  refine ⟨all, ?_⟩
  rw [List.takeWhile_eq_self_iff.mpr all]

lemma hexPrefixed_digits (all : ∀ c ∈ t, isDigit c = true) : hexPrefixed t = false := by
  unfold hexPrefixed
  split
  · have digit := all 120 (by simp)
    cases digit
  · rfl

lemma indices_le (soc : Soc) (wifi : Bool) : indices soc wifi ≤ 6 := by
  cases wifi
  · exact noMacs_le soc
  · change soc.wifiMax ≤ 6
    rw [Soc.wifiMax]
    split <;> decide

end Index

/-! ## Exact requests -/

section Exact

variable {soc : Soc} {body vi vm : Bytes} {wifi : Bool} {index : Int}

lemma MacAccepted.exact (acc : MacAccepted soc body vi vm wifi index) (strict : ¬ MacLoose body vi vm wifi) :
    ∃ n : Nat, index = n ∧ MacRequest soc body wifi n (ethParseEnetaddr (cstr (urlDecode vm))) := by
  simp only [MacLoose, not_or, not_not, Bool.not_eq_true, Nat.not_le] at strict
  obtain ⟨ifaceHere, macHere, ifacePlain, macPlain, some_, decimal_, small⟩ := strict
  have plain := zero_not_mem_cstr body
  obtain ⟨t, word, done, value⟩ := macIface_some acc.named
  have text : indexText wifi vi = t := by rw [indexText, word, List.drop_left]
  rw [text] at some_ decimal_ small
  obtain ⟨digits, number⟩ := index_decimal decimal_ done
  rw [number, Nat.mod_eq_of_lt small] at value
  have low := acc.low
  have high := acc.high
  have bound := indices_le soc wifi
  have same : index = numeral 10 t := by
    rw [toInt32] at value
    split at value <;> omega
  rw [cstr_eq_self ifacePlain] at word
  refine ⟨numeral 10 t, same, ⟨vi, t, ifaceHere, ?_, word, some_, digits, rfl⟩, by omega, vm, macHere, ?_, ?_, ?_, acc.valid⟩
  · exact fun mem => plain (mem_of_fieldValue acc.iface mem)
  · exact fun mem => plain (mem_of_fieldValue acc.mac mem)
  · rw [← cstr_eq_self macPlain]
    exact acc.canonical
  · rw [cstr_eq_self macPlain]

lemma fieldValue_plain {key v v' : Bytes} (found : fieldValue key (cstr body) = some v)
    (exact_ : fieldValue key body = some v') (plain : 0 ∉ v') : v' = v := by
  obtain ⟨v'', here, cut⟩ := fieldValue_cstr found
  rw [exact_] at here
  cases here
  rw [cut, cstr_eq_self plain]

lemma ifaceWord_plain (wifi : Bool) : 0 ∉ ifaceWord wifi := by cases wifi <;> decide

lemma macStringValid_plain {m : Bytes} (canonical : macStringValid m = true) : 0 ∉ m := by
  intro mem
  obtain ⟨i, lt, eq⟩ := List.mem_iff_getElem.mp mem
  simp only [macStringValid, Bool.and_eq_true, decide_eq_true_eq, List.all_eq_true, List.mem_range] at canonical
  have zero : m.getD i 0 = 0 := by rw [List.getD_eq_getElem?_getD, List.getElem?_eq_getElem lt, eq, Option.getD_some]
  have here := canonical.2 i (by omega)
  rw [zero] at here
  split at here <;> cases here

lemma MacRequest.strict {wifi' : Bool} {n : Nat} {mac : Bytes} (req : MacRequest soc body wifi' n mac)
    (acc : MacAccepted soc body vi vm wifi index) : ¬ MacLoose body vi vm wifi := by
  obtain ⟨v, t, iface, plain, word, some_, digits, value⟩ := req.iface
  obtain ⟨v', mac', plain', canonical, -⟩ := req.mac
  obtain rfl := fieldValue_plain acc.iface iface plain
  obtain rfl := fieldValue_plain acc.mac mac' plain'
  have text : 0 ∉ ifaceWord wifi' ++ t := by
    intro mem
    rcases List.mem_append.mp mem with mem | mem
    · exact ifaceWord_plain wifi' mem
    · cases digits 0 mem
  have here : cstr (urlDecode v) = ifaceWord wifi' ++ t := by rw [word, cstr_eq_self text]
  have kind : wifi' = wifi := by
    have named := acc.named
    rw [here, macIface_word] at named
    split at named
    · exact (Prod.mk.inj (Option.some.inj named)).1
    · cases named
  subst kind
  have bound := indices_le soc wifi'
  have index := req.index
  have number : indexText wifi' v = t := by rw [indexText, here, List.drop_left]
  simp only [MacLoose, number, hexPrefixed_digits digits, value, some_, iface, mac', word, text,
    macStringValid_plain canonical, ne_eq, not_true, false_or, Bool.false_eq_true]
  omega

end Exact

/-! ## The handler -/

section Handler

variable {soc : Soc} {b : Board} {dev : Devices} {data : Bytes} {p : Nat}

lemma macReply_inj {dev' : Devices} {ok ok' : Bool} (same : macReply dev ok = macReply dev' ok') : ok = ok' := by
  have length := congrArg (fun a : Answer => a.reply.map (·.2)) same
  cases ok <;> cases ok' <;> first | rfl | cases length

lemma macSet_cases (dev : Devices) (checks : b.Checks soc) (blank : strstr data 0 (bytes "\r\n\r\n") = some p) :
    NullBody (data.drop (p + 4)) ∧ httpdHandleMacSet b dev data = { dev := dev, crash := true } ∨
    ¬ NullBody (data.drop (p + 4)) ∧ ((∀ vi vm wifi index, ¬ MacAccepted soc (data.drop (p + 4)) vi vm wifi index) ∧
          httpdHandleMacSet b dev data = macReply dev false ∨
        ∃ vi vm wifi index, MacAccepted soc (data.drop (p + 4)) vi vm wifi index ∧
          httpdHandleMacSet b dev data = macEdited b dev wifi index (ethParseEnetaddr (cstr (urlDecode vm)))) := by
  rw [httpdHandleMacSet, blank]
  simp only
  generalize data.drop (p + 4) = body
  obtain ⟨null, run⟩ | ⟨plain, ⟨none_, run⟩ | ⟨vi, iface, fits, run⟩⟩ := httpdFormValue_cases body (bytes "iface") 16
  · rw [run]
    exact .inl ⟨.inl null, rfl⟩
  · rw [run]
    refine .inr ⟨?_, .inl ⟨?_, rfl⟩⟩
    · rintro (null | ⟨some_, -⟩)
      · cases plain.symm.trans null
      · rw [none_] at some_
        cases some_
    · intro vi vm wifi index acc
      have spec : formSpec (cstr body) (bytes "iface") 16 = some (urlDecode vi) :=
        formSpec_some.mpr ⟨vi, acc.iface, acc.ifaceFits, rfl⟩
      cases none_.symm.trans spec
  rw [run]
  simp only
  have spec : formSpec (cstr body) (bytes "iface") 16 = some (urlDecode vi) := formSpec_some.mpr ⟨vi, iface, fits, rfl⟩
  obtain ⟨null, run'⟩ | ⟨plain', found⟩ := httpdFormValue_cases body (bytes "mac") 32
  · rw [run']
    exact .inl ⟨.inr ⟨by rw [spec]; rfl, null⟩, rfl⟩
  have safe : ¬ NullBody body := by
    rintro (null | ⟨-, null⟩)
    · cases plain.symm.trans null
    · cases plain'.symm.trans null
  refine .inr ⟨safe, ?_⟩
  obtain ⟨none_, run'⟩ | ⟨vm, mac, fits', run'⟩ := found
  · rw [run']
    refine .inl ⟨?_, rfl⟩
    intro vi vm wifi index acc
    have spec : formSpec (cstr body) (bytes "mac") 32 = some (urlDecode vm) :=
      formSpec_some.mpr ⟨vm, acc.mac, acc.macFits, rfl⟩
    cases none_.symm.trans spec
  rw [run']
  simp only [macApply]
  -- both values are determined by the body
  have same {vi' vm' : Bytes} {wifi : Bool} {index : Int} (acc : MacAccepted soc body vi' vm' wifi index) :
      vi' = vi ∧ vm' = vm :=
    ⟨Option.some.inj (acc.iface.symm.trans iface), Option.some.inj (acc.mac.symm.trans mac)⟩
  cases named : macIface (cstr (urlDecode vi)) with
  | none =>
    refine .inl ⟨?_, rfl⟩
    intro vi' vm' wifi index acc
    obtain ⟨rfl, rfl⟩ := same acc
    cases named.symm.trans acc.named
  | some kind =>
    obtain ⟨wifi, index⟩ := kind
    simp only
    by_cases address : (macStringValid (cstr (urlDecode vm)) &&
        isValidEthaddr (ethParseEnetaddr (cstr (urlDecode vm)))) = true
    · rw [if_pos address]
      obtain ⟨canonical, valid⟩ := Bool.and_eq_true_iff.mp address
      have call : (if wifi then b.macaddrModifyWifi (ethParseEnetaddr (cstr (urlDecode vm))) index dev.art
          else b.macaddrModifyBase (ethParseEnetaddr (cstr (urlDecode vm))) index dev.art) =
          b.modify wifi (ethParseEnetaddr (cstr (urlDecode vm))) index dev.art := by
        cases wifi <;> rfl
      rw [call]
      by_cases range : index < 0 ∨ (indices soc wifi : Int) ≤ index
      · obtain ⟨neg, kept⟩ := checks wifi (ethParseEnetaddr (cstr (urlDecode vm))) index dev.art range
        refine .inl ⟨?_, ?_⟩
        · intro vi' vm' wifi' index' acc
          obtain ⟨rfl, rfl⟩ := same acc
          cases named.symm.trans acc.named
          have low := acc.low
          have high := acc.high
          omega
        · simp only [kept, decide_eq_false (Int.not_le.mpr neg)]
      · exact .inr ⟨vi, vm, wifi, index, ⟨iface, fits, mac, fits', named, by omega, by omega, canonical, valid⟩, rfl⟩
    · rw [if_neg address]
      refine .inl ⟨?_, rfl⟩
      intro vi' vm' wifi' index' acc
      obtain ⟨rfl, rfl⟩ := same acc
      exact address (Bool.and_eq_true_iff.mpr ⟨acc.canonical, acc.valid⟩)

end Handler

def readyBoard (soc : Soc) : Board :=
  { sampleBoard with
    macaddrModifyBase := fun mac index art => if 0 ≤ index ∧ index < indices soc false then (0, mac ++ art) else (-22, art)
    macaddrModifyWifi := fun mac index art => if 0 ≤ index ∧ index < indices soc true then (0, mac ++ art) else (-22, art) }

lemma readyBoard_modify (soc : Soc) (wifi : Bool) (mac : Bytes) (index : Int) (art : Bytes) :
    (readyBoard soc).modify wifi mac index art =
      if 0 ≤ index ∧ index < indices soc wifi then (0, mac ++ art) else (-22, art) := by
  cases wifi <;> rfl

lemma readyBoard_checks (soc : Soc) : (readyBoard soc).Checks soc := by
  intro wifi mac index art range
  rw [readyBoard_modify, if_neg (by omega)]
  exact ⟨(by decide : (-22 : Int) < 0), rfl⟩

/-- A body is answered exactly, on every board, if and only if neither lookup reads through NULL and it is not accepted
for one of the other reasons. -/
theorem macSet_iff (soc : Soc) (data : Bytes) (p : Nat) (blank : strstr data 0 (bytes "\r\n\r\n") = some p) :
    (∀ (b : Board) (dev : Devices), b.Checks soc → MacSetExact soc b dev data (data.drop (p + 4))) ↔
      ¬ NullBody (data.drop (p + 4)) ∧ ∀ vi vm wifi index,
        MacAccepted soc (data.drop (p + 4)) vi vm wifi index → ¬ MacLoose (data.drop (p + 4)) vi vm wifi := by
  constructor
  · intro exact_
    have answer := exact_ (readyBoard soc) {} (readyBoard_checks soc)
    obtain ⟨-, run⟩ | ⟨safe, ⟨none_, -⟩ | ⟨vi, vm, wifi, index, acc, run⟩⟩ :=
      macSet_cases {} (readyBoard_checks soc) blank
    · -- neither answer is a crash
      rw [MacSetExact, run] at answer
      obtain eq | ⟨wifi, n, mac, -, eq⟩ := answer
      · cases congrArg Answer.crash eq
      · cases congrArg Answer.crash eq
    · exact ⟨safe, fun vi vm wifi index acc => absurd acc (none_ vi vm wifi index)⟩
    · refine ⟨safe, fun vi' vm' wifi' index' acc' => ?_⟩
      have edit := readyBoard_modify soc wifi (ethParseEnetaddr (cstr (urlDecode vm))) index []
      rw [if_pos ⟨acc.low, acc.high⟩] at edit
      obtain eq | ⟨wifi'', n, mac, req, -⟩ := answer
      · rw [run, macEdited, edit] at eq
        cases macReply_inj eq
      · exact req.strict acc'
  · rintro ⟨safe, strict⟩ b dev checks
    obtain ⟨null, -⟩ | ⟨-, ⟨-, run⟩ | ⟨vi, vm, wifi, index, acc, run⟩⟩ := macSet_cases dev checks blank
    · exact absurd null safe
    · exact .inl run
    · obtain ⟨n, rfl, req⟩ := acc.exact (strict vi vm wifi index acc)
      exact .inr ⟨wifi, n, _, req, run⟩

/-! ## On a flash -/

def editImage (edit : ArtFlash → Mac → Int → Except Errno ArtFlash) (flash : Bytes → ArtFlash)
    (image : ArtFlash → Bytes) (mac : Bytes) (index : Int) (art : Bytes) : Int × Bytes :=
  if six : mac.length = 6 then
    match edit (flash art) ⟨mac, six⟩ index with
    | .ok f => (0, image f)
    | .error _ => (-1, art)
  else (-1, art)

def Board.onFlash (b : Board) (soc : Soc) (flash : Bytes → ArtFlash) (image : ArtFlash → Bytes) : Board :=
  { b with
    macaddrModifyBase := editImage (ResQBoot.macaddrModifyBase soc) flash image
    macaddrModifyWifi := editImage (ResQBoot.macaddrModifyWifi soc) flash image }

lemma editImage_refused {edit : ArtFlash → Mac → Int → Except Errno ArtFlash} {flash : Bytes → ArtFlash}
    {image : ArtFlash → Bytes} {mac : Bytes} {index : Int} {art : Bytes}
    (refused : ∀ f m f', edit f m index ≠ .ok f') : editImage edit flash image mac index art = (-1, art) := by
  rw [editImage]
  split
  · rename_i six
    cases run : edit (flash art) ⟨mac, six⟩ index with
    | ok f => exact absurd run (refused _ _ f)
    | error e => rfl
  · rfl

lemma onFlash_checks (b : Board) (soc : Soc) (flash : Bytes → ArtFlash) (image : ArtFlash → Bytes) :
    (b.onFlash soc flash image).Checks soc := by
  intro wifi mac index art range
  have kept : (b.onFlash soc flash image).modify wifi mac index art = (-1, art) := by
    cases wifi with
    | false =>
      refine editImage_refused fun f m f' ok => ?_
      rw [ResQBoot.macaddrModifyBase, if_pos (.inr range)] at ok
      cases ok
    | true =>
      refine editImage_refused fun f m f' ok => ?_
      obtain ⟨low, high, -⟩ := modifyWifi_ok ok
      change index < 0 ∨ (soc.wifiMax : Int) ≤ index at range
      omega
  rw [kept]
  exact ⟨(by decide : (-1 : Int) < 0), rfl⟩

def macRequest (iface : String) : Bytes :=
  bytes "POST /mac_set HTTP/1.1\r\n\r\niface=" ++ bytes iface ++ bytes "&mac=02:00:00:00:00:01"

theorem macSet_eth1 : MacSetExact .ipq6018
    (sampleBoard.onFlash .ipq6018 (fun _ => sampleArt .mmcFlash) fun f => f.cells.read 0 64) {} (macRequest "eth1")
    ((macRequest "eth1").drop 26) := by
  refine (macSet_iff .ipq6018 (macRequest "eth1") 22 (by decide)).mpr ⟨?_, ?_⟩ _ _ (onFlash_checks _ _ _ _)
  · unfold NullBody
    decide
  intro vi vm wifi index acc
  have iface : fieldValue (bytes "iface") (cstr ((macRequest "eth1").drop 26)) = some (bytes "eth1") := by decide
  have mac : fieldValue (bytes "mac") (cstr ((macRequest "eth1").drop 26)) = some (bytes "02:00:00:00:00:01") := by
    decide
  cases acc.iface.symm.trans iface
  cases acc.mac.symm.trans mac
  have named : macIface (cstr (urlDecode (bytes "eth1"))) = some (false, 1) := by decide
  cases named.symm.trans acc.named
  unfold MacLoose
  decide

/-- An empty index is taken for 0: the address of `eth0` is set, although no interface is named. -/
theorem macSet_empty_index :
    httpdHandleMacSet (readyBoard .ipq6018) {} (macRequest "eth") =
        macReply { art := [2, 0, 0, 0, 0, 1] } true ∧
      ∀ wifi n mac, ¬ MacRequest .ipq6018 ((macRequest "eth").drop 26) wifi n mac := by
  constructor
  · rfl
  intro wifi n mac req
  obtain ⟨v, t, found, -, word, some_, -⟩ := req.iface
  have iface : fieldValue (bytes "iface") ((macRequest "eth").drop 26) = some (bytes "eth") := by decide
  cases found.symm.trans iface
  have length := congrArg List.length word
  cases wifi with
  | false =>
    cases t with
    | nil => exact some_ rfl
    | cons c t => cases length
  | true => cases length

end ResQBoot.Failsafe
