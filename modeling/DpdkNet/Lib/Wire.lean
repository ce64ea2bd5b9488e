import Mathlib

/-! # Fields of a packet

    A packet is a list of bytes, a field the bytes at an offset; numbers are in
    network order.  What is not there reads as zero, and cannot be written: a
    write or a view beyond the end is `none`, the panic of a checked index.

    A header is written field by field.  `Keeps` says of such a function that it
    goes through on every packet that is long enough and leaves the length and
    the first bytes alone, `Needs` that it goes through on no shorter one; both
    compose. -/

namespace Wire

def byteAt (p : List UInt8) (i : Nat) : UInt8 := p.getD i 0

/-- A big-endian number of two bytes. -/
def word (a b : UInt8) : Nat := a.toNat * 256 + b.toNat

def wordAt (p : List UInt8) (i : Nat) : Nat := word (byteAt p i) (byteAt p (i + 1))

/-- A number has one spelling. -/
theorem word_inj {a b c d : UInt8} : word a b = word c d ↔ a = c ∧ b = d := by
  have ha := a.toNat_lt
  have hb := b.toNat_lt
  have hc := c.toNat_lt
  have hd := d.toNat_lt
  rw [word, word, ← UInt8.toNat_inj, ← UInt8.toNat_inj]
  omega

def u16At (p : List UInt8) (i : Nat) : UInt16 := UInt16.ofNat (wordAt p i)

/-- A `u16` in network order. -/
def beBytes (n : UInt16) : List UInt8 := [UInt8.ofNat (n.toNat / 256), UInt8.ofNat n.toNat]

/-- What is written is read. -/
theorem word_beBytes (n : UInt16) :
    word (UInt8.ofNat (n.toNat / 256)) (UInt8.ofNat n.toNat) = n.toNat := by
  have h := n.toNat_lt
  rw [word, UInt8.toNat_ofNat', UInt8.toNat_ofNat']
  omega

theorem ofNat_word_beBytes (n : UInt16) :
    UInt16.ofNat (word (UInt8.ofNat (n.toNat / 256)) (UInt8.ofNat n.toNat)) = n := by
  rw [word_beBytes, UInt16.ofNat_toNat]

/-- Replace the bytes at an offset. -/
def writeAt (p : List UInt8) (off : Nat) (bs : List UInt8) : Option (List UInt8) :=
  if off + bs.length ≤ p.length then some (p.take off ++ bs ++ p.drop (off + bs.length)) else none

/-- The view `p[start..stop]`. -/
def slice (p : List UInt8) (start stop : Nat) : Option (List UInt8) :=
  if start ≤ stop ∧ stop ≤ p.length then some ((p.take stop).drop start) else none

/-- Run a writer on the view `p[start..stop]`. -/
def overSlice (p : List UInt8) (start stop : Nat) (f : List UInt8 → Option (List UInt8)) :
    Option (List UInt8) :=
  match slice p start stop with
  | none => none
  | some v =>
      match f v with
      | none => none
      | some v => some (p.take start ++ v ++ p.drop stop)

/-- A write over the first bytes. -/
theorem writeAt_zero {p bs : List UInt8} (h : bs.length ≤ p.length) :
    writeAt p 0 bs = some (bs ++ p.drop bs.length) := by
  rw [writeAt, Nat.zero_add, if_pos h]
  rfl

/-- A write behind bytes that are known. -/
theorem writeAt_append {p bs : List UInt8} (k : List UInt8) (h : bs.length ≤ p.length) :
    writeAt (k ++ p) k.length bs = some (k ++ (bs ++ p.drop bs.length)) := by
  have hfit : k.length + bs.length ≤ (k ++ p).length := by
    rw [List.length_append]
    omega
  rw [writeAt, if_pos hfit, List.take_left, List.drop_length_add_append, List.append_assoc]

/-- The next field of a header of which the fields before are written. -/
theorem writeAt_next {p bs : List UInt8} (k : List UInt8) (h : k.length + bs.length ≤ p.length) :
    writeAt (k ++ p.drop k.length) k.length bs =
      some ((k ++ bs) ++ p.drop (k.length + bs.length)) := by
  have hroom : bs.length ≤ (p.drop k.length).length := by
    rw [List.length_drop]
    omega
  rw [writeAt_append k hroom, List.drop_drop, List.append_assoc]

theorem slice_zero {p : List UInt8} {n : Nat} (h : n ≤ p.length) : slice p 0 n = some (p.take n) := by
  rw [slice, if_pos ⟨Nat.zero_le n, h⟩]
  rfl

/-- The view of the `n` bytes behind those that are known. -/
theorem slice_append {p : List UInt8} (k : List UInt8) {n : Nat} (hn : n ≤ p.length) :
    slice (k ++ p) k.length (k.length + n) = some (p.take n) := by
  have hfit : k.length + n ≤ (k ++ p).length := by
    rw [List.length_append]
    omega
  rw [slice, if_pos ⟨Nat.le_add_right _ _, hfit⟩, List.take_length_add_append, List.drop_left]

theorem overSlice_append {p q : List UInt8} (k : List UInt8) {n : Nat} (hn : n ≤ p.length)
    {f : List UInt8 → Option (List UInt8)} (h : f (p.take n) = some q) :
    overSlice (k ++ p) k.length (k.length + n) f = some (k ++ (q ++ p.drop n)) := by
  rw [overSlice, slice_append k hn]
  simp only [h, List.take_left, List.drop_length_add_append, List.append_assoc]

/-- The view of all that follows. -/
theorem overSlice_append_all {p q : List UInt8} (k : List UInt8)
    {f : List UInt8 → Option (List UInt8)} (h : f p = some q) :
    overSlice (k ++ p) k.length (k ++ p).length f = some (k ++ q) := by
  rw [List.length_append, overSlice_append k (Nat.le_refl p.length) (by rw [List.take_length]; exact h),
    List.drop_length, List.append_nil]

/-- On every packet of at least `n` bytes, `f` goes through and leaves the length
    and the first `k` bytes alone. -/
def Keeps (n k : Nat) (f : List UInt8 → Option (List UInt8)) : Prop :=
  ∀ p, n ≤ p.length → ∃ q, f p = some q ∧ q.length = p.length ∧ q.take k = p.take k

theorem Keeps.bind {n k : Nat} {f g : List UInt8 → Option (List UInt8)} (hf : Keeps n k f)
    (hg : Keeps n k g) : Keeps n k (fun p => (f p).bind g) := by
  intro p hp
  obtain ⟨q, hq, hlen, htake⟩ := hf p hp
  obtain ⟨r, hr, hlen', htake'⟩ := hg q (by omega)
  refine ⟨r, ?_, hlen'.trans hlen, htake'.trans htake⟩
  show (f p).bind g = some r
  rw [hq]
  exact hr

/-- A write of `m` bytes behind the first `k`, whatever is written. -/
theorem keeps_writeAt {n k off : Nat} (m : Nat) (hk : k ≤ off) (hn : off + m ≤ n)
    {bs : List UInt8 → List UInt8} (hlen : ∀ p, (bs p).length = m) :
    Keeps n k (fun p => writeAt p off (bs p)) := by
  intro p hp
  have hfit : off + (bs p).length ≤ p.length := by
    rw [hlen]
    omega
  refine ⟨_, if_pos hfit, ?_, ?_⟩
  · simp only [List.length_append, List.length_take, List.length_drop, hlen] at *
    omega
  · rw [List.append_assoc, List.take_append_of_le_length, List.take_take, Nat.min_eq_left hk]
    rw [List.length_take]
    omega

/-- `f` goes through only on packets of at least `n` bytes, and leaves the length
    alone. -/
def Needs (n : Nat) (f : List UInt8 → Option (List UInt8)) : Prop :=
  ∀ p q, f p = some q → n ≤ p.length ∧ q.length = p.length

theorem Needs.mono {m n : Nat} {f : List UInt8 → Option (List UInt8)} (hf : Needs n f)
    (h : m ≤ n) : Needs m f := by
  intro p q hq
  obtain ⟨hn, hlen⟩ := hf p q hq
  exact ⟨Nat.le_trans h hn, hlen⟩

theorem Needs.bind {m n : Nat} {f g : List UInt8 → Option (List UInt8)} (hf : Needs m f)
    (hg : Needs n g) : Needs (max m n) (fun p => (f p).bind g) := by
  intro p r h
  obtain ⟨q, hq, hr⟩ := Option.bind_eq_some_iff.mp h
  obtain ⟨hm, hlen⟩ := hf p q hq
  obtain ⟨hn, hlen'⟩ := hg q r hr
  exact ⟨Nat.max_le.mpr ⟨hm, by omega⟩, hlen'.trans hlen⟩

/-- A write of `m` bytes needs room for them. -/
theorem needs_writeAt {off : Nat} (m : Nat) {bs : List UInt8 → List UInt8}
    (hlen : ∀ p, (bs p).length = m) : Needs (off + m) (fun p => writeAt p off (bs p)) := by
  intro p q h
  simp only [writeAt] at h
  split at h
  · rename_i hfit
    cases h
    simp only [List.length_append, List.length_take, List.length_drop, hlen] at *
    omega
  · cases h

/-- A view that goes through is within the packet, and so is what is written to
    it. -/
theorem overSlice_some {p q : List UInt8} {start stop : Nat}
    {f : List UInt8 → Option (List UInt8)} (h : overSlice p start stop f = some q) :
    start ≤ stop ∧ stop ≤ p.length ∧ ∃ v w, v.length = stop - start ∧ f v = some w := by
  rw [overSlice, slice] at h
  split at h
  · cases h
  · rename_i v hv
    split at hv
    · rename_i hfit
      cases hv
      split at h
      · cases h
      · rename_i w hw
        refine ⟨hfit.1, hfit.2, _, w, ?_, hw⟩
        rw [List.length_drop, List.length_take_of_le hfit.2]
    · cases hv

/-- Writing one part of a byte does away with what was in it. -/
theorem and_or_and_of_disjoint {m n : UInt8} (h : m &&& n = 0) (x a : UInt8) :
    ((x &&& m) ||| a) &&& n = a &&& n := by
  have hdist : ((x &&& m) ||| a) &&& n = ((x &&& m) &&& n) ||| (a &&& n) :=
    UInt8.eq_of_toBitVec_eq BitVec.and_or_distrib_right
  rw [hdist, UInt8.and_assoc, h, UInt8.and_zero, UInt8.zero_or]

end Wire
