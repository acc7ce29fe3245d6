import ResQBoot.Lib.Memory

/-!
# Probes of a memory that is known in part

The outcome of a comparison with a pattern is certain if a known byte differs or if all bytes of the pattern are known;
otherwise it is `Open`, and there are memories that match and others that do not.
-/

namespace ResQBoot.Mem

variable {known : Nat → Prop} {m m' : Mem} {a c : Nat} {bs cs : Bytes}

def Agree (known : Nat → Prop) (m m' : Mem) : Prop := ∀ a, known a → m a = m' a

def Differs (known : Nat → Prop) (m : Mem) (a : Nat) (bs : Bytes) : Prop :=
  ∃ i < bs.length, known (a + i) ∧ m (a + i) ≠ bs.getD i 0

def Covered (known : Nat → Prop) (a n : Nat) : Prop := ∀ i < n, known (a + i)

def Open (known : Nat → Prop) (m : Mem) (a : Nat) (bs : Bytes) : Prop :=
  ¬ Differs known m a bs ∧ ¬ Covered known a bs.length

def Certain (known : Nat → Prop) (m : Mem) (a : Nat) (bs : Bytes) : Prop :=
  ¬ Differs known m a bs ∧ Covered known a bs.length

lemma Agree.refl : Agree known m m := fun _ _ => rfl

lemma Agree.symm (agree : Agree known m m') : Agree known m' m := fun a here => (agree a here).symm

lemma Agree.differs (agree : Agree known m m') : Differs known m a bs ↔ Differs known m' a bs := by
  refine exists_congr fun i => and_congr_right fun _ => and_congr_right fun here => ?_
  rw [agree _ here]

lemma Agree.isOpen (agree : Agree known m m') : Open known m a bs ↔ Open known m' a bs := by
  rw [Open, Open, agree.differs]

lemma read_eq_bytes_iff : m.read a bs.length = bs ↔ ∀ i < bs.length, m (a + i) = bs.getD i 0 := by
  constructor
  · intro eq i lt
    have byte := congrArg (fun l : Bytes => l.getD i 0) eq
    simpa [read, lt] using byte
  · intro same
    apply List.ext_getElem (length_read m a bs.length)
    intro i _ lt
    have byte := same i lt
    simpa [read, lt] using byte

lemma Differs.read_ne (differs : Differs known m a bs) (agree : Agree known m m') : m'.read a bs.length ≠ bs := by
  obtain ⟨i, lt, here, ne⟩ := differs
  intro eq
  rw [agree _ here] at ne
  exact ne (read_eq_bytes_iff.mp eq i lt)

lemma Covered.differs (covered : Covered known a bs.length) (ne : m.read a bs.length ≠ bs) : Differs known m a bs := by
  rw [Ne, read_eq_bytes_iff] at ne
  push Not at ne
  obtain ⟨i, lt, ne⟩ := ne
  exact ⟨i, lt, covered i lt, ne⟩

lemma Certain.read_eq (certain : Certain known m a bs) (agree : Agree known m m') : m'.read a bs.length = bs := by
  by_contra ne
  exact certain.1 (agree.differs.mpr (certain.2.differs ne))

lemma open_of_disagree (agree : Agree known m m') (eq : m.read a bs.length = bs) (ne : m'.read a bs.length ≠ bs) :
    Open known m a bs :=
  ⟨fun differs => differs.read_ne .refl eq, fun covered => (covered.differs ne).read_ne agree.symm eq⟩

section Complete

variable [DecidablePred known]

def patched (known : Nat → Prop) [DecidablePred known] (m : Mem) (a : Nat) (bs : Bytes) : Mem :=
  fun x => if known x then m x else m.write a bs x

def spoiled (known : Nat → Prop) [DecidablePred known] (m : Mem) (a : Nat) (bs : Bytes) : Mem :=
  patched known m a (bs.map (· + 1))

lemma agree_patched : Agree known m (patched known m a bs) := fun x here => by
  rw [patched, if_pos here]

lemma agree_spoiled : Agree known m (spoiled known m a bs) := agree_patched

lemma patched_outside {x : Nat} (out : x < a ∨ a + bs.length ≤ x) : patched known m a bs x = m x := by
  rw [patched, write_outside out, ite_self]

lemma patched_byte {i : Nat} (lt : i < bs.length) (unknown : ¬ known (a + i)) :
    patched known m a bs (a + i) = bs.getD i 0 := by
  rw [patched, if_neg unknown, write, if_pos ⟨Nat.le_add_right a i, Nat.add_lt_add_left lt a⟩, Nat.add_sub_cancel_left]

lemma read_patched (same : ¬ Differs known m a bs) : (patched known m a bs).read a bs.length = bs := by
  refine read_eq_bytes_iff.mpr fun i lt => ?_
  by_cases here : known (a + i)
  · rw [← agree_patched _ here]
    by_contra ne
    exact same ⟨i, lt, here, ne⟩
  · exact patched_byte lt here

lemma read_spoiled (uncovered : ¬ Covered known a bs.length) : (spoiled known m a bs).read a bs.length ≠ bs := by
  rw [Covered] at uncovered
  push Not at uncovered
  obtain ⟨i, lt, unknown⟩ := uncovered
  intro eq
  have byte := read_eq_bytes_iff.mp eq i lt
  rw [spoiled, patched_byte (by simpa using lt) unknown] at byte
  simp [lt] at byte

lemma read_patched_outside (apart : c + cs.length ≤ a ∨ a + bs.length ≤ c) :
    (patched known m a bs).read c cs.length = m.read c cs.length :=
  read_congr fun _ _ _ => patched_outside (by omega)

end Complete

end ResQBoot.Mem
