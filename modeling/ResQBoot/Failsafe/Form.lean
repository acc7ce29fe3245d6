import ResQBoot.Failsafe.Types

/-!
# Form fields and request text

When the last field does not carry the key, `httpd_form_value` sets `p = NULL` and evaluates `*p` in the loop
condition: that is the outcome `nullDeref`. An empty body, or one that ends in `&`, ends the loop on the NUL.
-/

namespace ResQBoot.Failsafe

def hexval (c : UInt8) : Nat := (xdigit c).getD 0

def urlDecode : Bytes → Bytes
  | [] => []
  | 37 :: a :: b :: t => UInt8.ofNat (hexval a * 16 + hexval b) :: urlDecode t
  | 43 :: t => 32 :: urlDecode t
  | c :: t => c :: urlDecode t

inductive FormValue where
  | found (v : Bytes)
  | failed
  | nullDeref
  deriving DecidableEq, Repr

def formField (key : Bytes) (outSize : Nat) (f : Bytes) : Option FormValue :=
  if key.length < f.length ∧ key.isPrefixOf f ∧ f.getD key.length 0 = 61 then
    let v := f.drop (key.length + 1)
    some (if outSize ≤ v.length then .failed else .found (cstr (urlDecode v)))
  else none

def formLoop (key : Bytes) (outSize : Nat) : List Bytes → FormValue
  | [] => .failed
  | [f] => if f.isEmpty then .failed else (formField key outSize f).getD .nullDeref
  | f :: rest => (formField key outSize f).getD (formLoop key outSize rest)

def httpdFormValue (body key : Bytes) (outSize : Nat) : FormValue :=
  formLoop key outSize ((cstr body).splitOn 38)

def macStringValid (s : Bytes) : Bool :=
  s.length = 17 && (List.range 17).all fun i =>
    if i % 3 = 2 then s.getD i 0 = 58 else (xdigit (s.getD i 0)).isSome

def parseEnetaddrLoop : Nat → Bytes → Bytes
  | 0, _ => []
  | n + 1, s =>
    let (v, rest) := simpleStrto 32 16 s
    UInt8.ofNat v :: parseEnetaddrLoop n (rest.drop 1)

def ethParseEnetaddr (s : Bytes) : Bytes := parseEnetaddrLoop 6 s

def isValidEthaddr (mac : Bytes) : Bool :=
  (mac.getD 0 0).toNat % 2 = 0 && mac.any (· ≠ 0)

def strTrimCrlf (s : Bytes) : Bytes :=
  ((s.takeWhile (· ≠ 32)).takeWhile (· ≠ 13)).takeWhile (· ≠ 10)

def isHttpWhitespace (c : UInt8) : Bool := c = 32 || c = 13 || c = 10 || c = 9

def isHttpMethodSeparator (c : UInt8) : Bool := c = 32 || c = 9

end ResQBoot.Failsafe
