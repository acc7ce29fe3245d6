import ResQBoot.Lib.Bytes

/-!
# Tagged values

A row of values, each behind its tag and its length in one byte, with a tag for padding and one for the end.
-/

namespace ResQBoot.Tlv

variable (pad stop : UInt8)

def entries : Bytes → List (UInt8 × Bytes)
  | [] => []
  | c :: rest =>
    if c = pad then entries rest
    else if c = stop then []
    else
      match rest with
      | [] => []
      | n :: body => if n.toNat ≤ body.length then (c, body.take n.toNat) :: entries (body.drop n.toNat) else []
  termination_by l => l.length
  decreasing_by
    · exact Nat.lt_succ_self _
    · rw [List.length_drop, List.length_cons, List.length_cons]
      omega

def entry (c : UInt8) (v : Bytes) : Bytes := c :: UInt8.ofNat v.length :: v

variable {pad stop} {c : UInt8} {v : Bytes}

lemma entries_stop (other : stop ≠ pad) (rest : Bytes) : entries pad stop (stop :: rest) = [] := by
  rw [entries.eq_def]
  exact (if_neg other).trans (if_pos rfl)

lemma entries_cons (value : c ≠ pad) (more : c ≠ stop) {n : UInt8} {body : Bytes} (whole : n.toNat ≤ body.length) :
    entries pad stop (c :: n :: body) = (c, body.take n.toNat) :: entries pad stop (body.drop n.toNat) := by
  rw [entries, if_neg value, if_neg more]
  exact if_pos whole

lemma entries_entry (value : c ≠ pad) (more : c ≠ stop) (small : v.length < 256) (rest : Bytes) :
    entries pad stop (entry c v ++ rest) = (c, v) :: entries pad stop rest := by
  have size : (UInt8.ofNat v.length).toNat = v.length := UInt8.toNat_ofNat_of_lt' small
  have whole : (UInt8.ofNat v.length).toNat ≤ (v ++ rest).length := by
    rw [size, List.length_append]
    exact Nat.le_add_right _ _
  rw [entry, List.cons_append, List.cons_append, entries_cons value more whole, size, List.take_left, List.drop_left]

def row (os : List (UInt8 × Bytes)) : Bytes := os.flatMap fun o => entry o.1 o.2

lemma entries_row {os : List (UInt8 × Bytes)} (rest : Bytes)
    (plain : ∀ o ∈ os, o.1 ≠ pad ∧ o.1 ≠ stop ∧ o.2.length < 256) :
    entries pad stop (row os ++ rest) = os ++ entries pad stop rest := by
  induction os with
  | nil => rfl
  | cons o os ih =>
    obtain ⟨value, more, small⟩ := plain o List.mem_cons_self
    rw [row, List.flatMap_cons, List.append_assoc, entries_entry value more small]
    exact congrArg (o :: ·) (ih fun o mem => plain o (List.mem_cons_of_mem _ mem))

def first (pad stop : UInt8) (code : UInt8) (n : Nat) (l : Bytes) : Option Bytes :=
  ((entries pad stop l).find? fun o => o.1 = code ∧ (n = 0 ∨ o.2.length = n)).map Prod.snd

section First

variable {code n : UInt8} {k : Nat} {body rest : Bytes}

lemma first_nil : first pad stop code k [] = none := by
  rw [first, entries]
  rfl

lemma first_pad : first pad stop code k (pad :: rest) = first pad stop code k rest := by
  rw [first, entries.eq_def]
  exact congrArg (fun l : List (UInt8 × Bytes) => (l.find? _).map Prod.snd) (if_pos rfl)

lemma first_stop (other : stop ≠ pad) : first pad stop code k (stop :: rest) = none := by
  rw [first, entries_stop other]
  rfl

section

variable (value : c ≠ pad) (more : c ≠ stop)
include value more

lemma first_tag : first pad stop code k [c] = none := by
  rw [first, entries, if_neg value, if_neg more]
  rfl

lemma first_short (short : ¬ n.toNat ≤ body.length) :
    first pad stop code k (c :: n :: body) = none := by
  rw [first, entries, if_neg value, if_neg more, if_neg short]
  rfl

lemma first_cons (whole : n.toNat ≤ body.length) :
    first pad stop code k (c :: n :: body) =
      if c = code ∧ (k = 0 ∨ n.toNat = k) then some (body.take n.toNat)
      else first pad stop code k (body.drop n.toNat) := by
  rw [first, entries_cons value more whole, List.find?_cons, List.length_take, Nat.min_eq_left whole]
  by_cases found : c = code ∧ (k = 0 ∨ n.toNat = k)
  · rw [if_pos found, decide_eq_true found]
    rfl
  · rw [if_neg found, decide_eq_false found]
    rfl

end

end First

end ResQBoot.Tlv
