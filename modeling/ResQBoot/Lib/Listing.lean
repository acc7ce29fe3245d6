import ResQBoot.Lib.Bytes

/-!
# Listings in a buffer

A text of entries with commas between them, as it is printed into a buffer entry by entry. `addWhile` is a loop that
stops once the text has reached a limit.
-/

namespace ResQBoot

structure Listing where
  text : Bytes
  count : Nat
  deriving DecidableEq, Repr

namespace Listing

def add (l : Listing) (entry : Bytes) : Listing :=
  ⟨l.text ++ (if 0 < l.count then bytes "," else []) ++ entry, l.count + 1⟩

def addAll (l : Listing) (entries : List Bytes) : Listing := entries.foldl add l

def addWhile (limit : Nat) : List Bytes → Listing → Listing
  | [], l => l
  | entry :: t, l => if l.text.length < limit then addWhile limit t (l.add entry) else l

variable {l : Listing} {entry : Bytes} {entries : List Bytes} {limit most : Nat}

lemma addAll_cons (l : Listing) (entry : Bytes) (t : List Bytes) : l.addAll (entry :: t) = (l.add entry).addAll t := rfl

lemma addAll_append (l : Listing) (s t : List Bytes) : l.addAll (s ++ t) = (l.addAll s).addAll t :=
  List.foldl_append ..

lemma add_eq (more : 0 < l.count) (entry : Bytes) : l.add entry = ⟨l.text ++ (bytes "," ++ entry), l.count + 1⟩ := by
  rw [add, if_pos more, List.append_assoc]

lemma length_add (l : Listing) (entry : Bytes) : l.text.length + entry.length ≤ (l.add entry).text.length ∧
      (l.add entry).text.length ≤ l.text.length + entry.length + 1 := by
  have comma : (bytes ",").length = 1 := rfl
  rw [add]
  split <;> simp only [List.length_append, List.length_nil, comma] <;> omega

lemma le_length_addAll (l : Listing) (entries : List Bytes) : l.text.length ≤ (l.addAll entries).text.length := by
  induction entries generalizing l with
  | nil => exact Nat.le_refl _
  | cons entry t ih =>
    have first := (length_add l entry).1
    have rest := ih (l.add entry)
    rw [addAll_cons]
    omega

lemma length_addAll_ge (l : Listing) {least : Nat} (long : ∀ entry ∈ entries, least ≤ entry.length) :
    l.text.length + least * entries.length ≤ (l.addAll entries).text.length := by
  induction entries generalizing l with
  | nil => exact Nat.le_refl _
  | cons entry t ih =>
    have here := long entry List.mem_cons_self
    have first := (length_add l entry).1
    have rest := ih (l.add entry) fun e mem => long e (List.mem_cons_of_mem _ mem)
    rw [addAll_cons, List.length_cons, Nat.mul_succ]
    omega

lemma le_count_addAll (l : Listing) (entries : List Bytes) : l.count ≤ (l.addAll entries).count := by
  induction entries generalizing l with
  | nil => exact Nat.le_refl _
  | cons entry t ih => exact Nat.le_trans (Nat.le_succ _) (ih (l.add entry))

lemma addWhile_eq (below : (l.addAll entries).text.length < limit) : addWhile limit entries l = l.addAll entries := by
  induction entries generalizing l with
  | nil => rfl
  | cons entry t ih =>
    rw [addAll_cons] at below ⊢
    have first := (length_add l entry).1
    have rest := le_length_addAll (l.add entry) t
    rw [addWhile, if_pos (by omega), ih below]

lemma addWhile_sublist (limit : Nat) (entries : List Bytes) (l : Listing) :
    ∃ es, es.Sublist entries ∧ addWhile limit entries l = l.addAll es := by
  induction entries generalizing l with
  | nil => exact ⟨[], .slnil, rfl⟩
  | cons entry t ih =>
    rw [addWhile]
    split
    · obtain ⟨es, sub, eq⟩ := ih (l.add entry)
      exact ⟨entry :: es, sub.cons_cons entry, eq⟩
    · exact ⟨[], List.nil_sublist _, rfl⟩

lemma length_addWhile (short : ∀ entry ∈ entries, entry.length < most) (below : l.text.length < limit + most) :
    (addWhile limit entries l).text.length < limit + most := by
  induction entries generalizing l with
  | nil => exact below
  | cons entry t ih =>
    rw [addWhile]
    split
    · have first := (length_add l entry).2
      have here := short entry List.mem_cons_self
      exact ih (fun e mem => short e (List.mem_cons_of_mem _ mem)) (by omega)
    · exact below

end Listing

end ResQBoot
