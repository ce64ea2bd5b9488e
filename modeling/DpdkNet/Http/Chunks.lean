import DpdkNet.Http.ReadBoundaries

/-! # What the decoder takes for a chunked body

    The lines and chunks that `read_chunked_body` meets on a stream, as data: a
    size line, as many bytes as it announces, and whatever is left of the line
    behind them; at the end a size line that announces nothing and one more line.
    The decoder accepts a stream exactly if it starts with such a reading, and it
    panics exactly if, after some chunks, more is announced than can be
    allocated. -/

namespace DpdkNet

open RustStr Refine

/-- A line, without its line feed. -/
structure Line where
  raw : List UInt8
  noLf : 10 ∉ raw

def Line.bytes (l : Line) : List UInt8 := l.raw ++ [10]

/-- The text of a line, as `read_line` returns it. -/
def Line.text (l : Line) : List Char := finishLine l.raw

/-- A chunk as the decoder reads it. -/
structure Chunk where
  size : Line
  data : List UInt8
  after : Line
  announced : chunkSize size.text = some data.length
  nonempty : data ≠ []
  fits : data.length ≤ isizeMax

def Chunk.bytes (c : Chunk) : List UInt8 := c.size.bytes ++ (c.data ++ c.after.bytes)

/-- A chunked body as the decoder reads it. -/
structure ChunkedReading where
  chunks : List Chunk
  last : Line
  trailer : Line
  announced : chunkSize last.text = some 0

namespace ChunkedReading

def bytes (r : ChunkedReading) : List UInt8 :=
  r.chunks.flatMap Chunk.bytes ++ (r.last.bytes ++ r.trailer.bytes)

def body (r : ChunkedReading) : List UInt8 := r.chunks.flatMap Chunk.data

/-- The reading with one more chunk before it. -/
def cons (c : Chunk) (r : ChunkedReading) : ChunkedReading := { r with chunks := c :: r.chunks }

theorem bytes_cons (c : Chunk) (r : ChunkedReading) : (r.cons c).bytes = c.bytes ++ r.bytes := by
  rw [bytes, cons, List.flatMap_cons, List.append_assoc]
  rfl

theorem body_cons (c : Chunk) (r : ChunkedReading) : (r.cons c).body = c.data ++ r.body :=
  List.flatMap_cons

/-- Readings are built from their end. -/
@[elab_as_elim]
theorem induction {P : ChunkedReading → Prop}
    (nil : ∀ (last trailer : Line) (h : chunkSize last.text = some 0), P ⟨[], last, trailer, h⟩)
    (cons : ∀ (c : Chunk) (r : ChunkedReading), P r → P (r.cons c)) (r : ChunkedReading) : P r := by
  obtain ⟨chunks, last, trailer, h⟩ := r
  induction chunks with
  | nil => exact nil last trailer h
  | cons c chunks ih => exact cons c ⟨chunks, last, trailer, h⟩ ih

end ChunkedReading

/-- After some chunks, a size line that announces more than can be allocated. -/
structure HugeChunk (s : List UInt8) : Prop where
  reached : ∃ (chunks : List Chunk) (size : Line) (rest : List UInt8) (n : Nat),
    s = chunks.flatMap Chunk.bytes ++ (size.bytes ++ rest) ∧ chunkSize size.text = some n ∧
      isizeMax < n

theorem HugeChunk.cons {s : List UInt8} (c : Chunk) (h : HugeChunk s) : HugeChunk (c.bytes ++ s) := by
  obtain ⟨chunks, size, rest, n, rfl, hn⟩ := h.reached
  exact ⟨c :: chunks, size, rest, n, by rw [List.flatMap_cons, List.append_assoc], hn⟩

/-! ## Lines and exact reads -/

theorem Line.bytes_append (l : Line) (s : List UInt8) : l.bytes ++ s = l.raw ++ 10 :: s := by
  rw [Line.bytes, List.append_assoc]
  rfl

theorem Whole.line_bytes (l : Line) (s : List UInt8) :
    Whole.line (l.bytes ++ s) = .ok (l.text, s) := by
  have hfind : (l.raw ++ 10 :: s).findIdx? (· == 10) = some l.raw.length := by
    rw [Whole.findIdx?_append l.noLf, List.findIdx?_cons]
    simp
  have hdrop : (l.raw ++ 10 :: s).drop (l.raw.length + 1) = s := by
    rw [List.drop_length_add_append]
    rfl
  rw [l.bytes_append, Whole.line, hfind]
  simp only [hdrop, List.take_left]
  rfl

/-- A line is at the front of the stream, or the stream has none. -/
theorem Whole.line_cases (s : List UInt8) :
    (∃ (l : Line) (rest : List UInt8), s = l.bytes ++ rest) ∨
    Whole.line s = .error (.err .connectionClosed) := by
  rw [Whole.line]
  cases hf : s.findIdx? (· == 10) with
  | none => exact Or.inr rfl
  | some pos =>
      obtain ⟨hlt, hpos, hbefore⟩ := List.findIdx?_eq_some_iff_getElem.mp hf
      have hno : 10 ∉ s.take pos := by
        intro hm
        obtain ⟨i, hi, hi10⟩ := List.mem_take_iff_getElem.mp hm
        have := hbefore i (by omega)
        rw [hi10] at this
        exact this rfl
      refine Or.inl ⟨⟨s.take pos, hno⟩, s.drop (pos + 1), ?_⟩
      have h10 : s[pos] = 10 := beq_iff_eq.mp hpos
      rw [Line.bytes_append, ← h10, ← List.drop_eq_getElem_cons hlt, List.take_append_drop]

theorem Whole.exact_append {d : List UInt8} (hd : d.length ≤ isizeMax) (s : List UInt8) :
    Whole.exact d.length (d ++ s) = .ok (d, s) := by
  have hle : d.length ≤ (d ++ s).length := (List.prefix_append d s).length_le
  rw [Whole.exact, if_neg (Nat.not_lt.mpr hd), if_pos hle, List.take_left, List.drop_left]

/-- Too much to allocate, or at the front of the stream, or more than the stream
    has. -/
theorem Whole.exact_cases (n : Nat) (s : List UInt8) :
    (isizeMax < n ∧ Whole.exact n s = .error .panic) ∨
    (n ≤ isizeMax ∧ ∃ d rest, d.length = n ∧ s = d ++ rest) ∨
    Whole.exact n s = .error (.err .connectionClosed) := by
  rw [Whole.exact]
  by_cases hbig : isizeMax < n
  · rw [if_pos hbig]
    exact Or.inl ⟨hbig, rfl⟩
  · rw [if_neg hbig]
    by_cases hle : n ≤ s.length
    · exact Or.inr (Or.inl ⟨Nat.not_lt.mp hbig, s.take n, s.drop n, List.length_take_of_le hle,
        (List.take_append_drop n s).symm⟩)
    · rw [if_neg hle]
      exact Or.inr (Or.inr rfl)

/-! ## The loop -/

/-- What a round does once it has the size. -/
def Whole.chunkedRound (fuel : Nat) (body : List UInt8) : Option Nat → StreamM (List UInt8)
  | none => throw (.err .invalidContentLength)
  | some size =>
      if size = 0 then do
        let _ ← line
        pure body
      else do
        let chunk ← exact size
        let _ ← line
        chunkedLoop fuel (body ++ chunk)

/-- One round of the loop, the size line being there. -/
theorem Whole.chunkedLoop_size (fuel : Nat) (body : List UInt8) (size : Line) (s : List UInt8) :
    Whole.chunkedLoop (fuel + 1) body (size.bytes ++ s)
      = Whole.chunkedRound fuel body (chunkSize size.text) s := by
  rw [Whole.chunkedLoop, bind_of_ok (Whole.line_bytes size s)]
  cases chunkSize size.text with
  | none => rfl
  | some n => rfl

theorem Whole.chunkedLoop_chunk (fuel : Nat) (body : List UInt8) (c : Chunk) (s : List UInt8) :
    Whole.chunkedLoop (fuel + 1) body (c.bytes ++ s) = Whole.chunkedLoop fuel (body ++ c.data) s := by
  have hne : c.data.length ≠ 0 := fun h => c.nonempty (List.length_eq_zero_iff.mp h)
  rw [Chunk.bytes, List.append_assoc, List.append_assoc, Whole.chunkedLoop_size, c.announced]
  simp only [Whole.chunkedRound, hne, if_false]
  rw [bind_of_ok (Whole.exact_append c.fits _), bind_of_ok (Whole.line_bytes c.after s)]

theorem Whole.chunkedLoop_last (fuel : Nat) (body : List UInt8) {last : Line}
    (hlast : chunkSize last.text = some 0) (trailer : Line) (s : List UInt8) :
    Whole.chunkedLoop (fuel + 1) body (last.bytes ++ (trailer.bytes ++ s)) = .ok (body, s) := by
  rw [Whole.chunkedLoop_size, hlast]
  simp only [Whole.chunkedRound, if_true]
  rw [bind_of_ok (Whole.line_bytes trailer s)]
  rfl

theorem Whole.chunkedLoop_huge (fuel : Nat) (body : List UInt8) {size : Line} {n : Nat}
    (hsize : chunkSize size.text = some n) (hn : isizeMax < n) (s : List UInt8) :
    Whole.chunkedLoop (fuel + 1) body (size.bytes ++ s) = .error .panic := by
  have hne : n ≠ 0 := Nat.ne_of_gt (Nat.lt_of_le_of_lt (Nat.zero_le _) hn)
  have hexact : Whole.exact n s = .error .panic := if_pos hn
  rw [Whole.chunkedLoop_size, hsize]
  simp only [Whole.chunkedRound, hne, if_false]
  exact bind_of_error hexact

/-- **ONE ROUND**: an error; a size that cannot be allocated; the end of the
    body; or a chunk, and the loop goes on behind it. -/
theorem Whole.chunkedLoop_cases (fuel : Nat) (body s : List UInt8) :
    (∃ e, Whole.chunkedLoop (fuel + 1) body s = .error (.err e)) ∨
    (∃ (size : Line) (rest : List UInt8) (n : Nat), s = size.bytes ++ rest ∧
      chunkSize size.text = some n ∧ isizeMax < n) ∨
    (∃ (last trailer : Line) (rest : List UInt8), s = last.bytes ++ (trailer.bytes ++ rest) ∧
      chunkSize last.text = some 0) ∨
    (∃ (c : Chunk) (rest : List UInt8), s = c.bytes ++ rest) := by
  rcases Whole.line_cases s with ⟨size, t, rfl⟩ | hnone
  · cases hsize : chunkSize size.text with
    | none =>
        refine Or.inl ⟨.invalidContentLength, ?_⟩
        rw [Whole.chunkedLoop_size, hsize]
        rfl
    | some n =>
        by_cases h0 : n = 0
        · subst h0
          rcases Whole.line_cases t with ⟨trailer, rest, rfl⟩ | hnone
          · exact Or.inr (Or.inr (Or.inl ⟨size, trailer, rest, rfl, hsize⟩))
          · refine Or.inl ⟨.connectionClosed, ?_⟩
            rw [Whole.chunkedLoop_size, hsize]
            exact bind_of_error hnone
        · rcases Whole.exact_cases n t with ⟨hbig, -⟩ | ⟨hle, d, u, rfl, rfl⟩ | hshort
          · exact Or.inr (Or.inl ⟨size, t, n, rfl, hsize, hbig⟩)
          · have hd : d ≠ [] := fun h => h0 (List.length_eq_zero_iff.mpr h)
            rcases Whole.line_cases u with ⟨after, rest, rfl⟩ | hnone
            · refine Or.inr (Or.inr (Or.inr ⟨⟨size, d, after, hsize, hd, hle⟩, rest, ?_⟩))
              rw [Chunk.bytes, List.append_assoc, List.append_assoc]
            · refine Or.inl ⟨.connectionClosed, ?_⟩
              rw [Whole.chunkedLoop_size, hsize]
              simp only [Whole.chunkedRound, h0, if_false]
              rw [bind_of_ok (Whole.exact_append hle u)]
              exact bind_of_error hnone
          · refine Or.inl ⟨.connectionClosed, ?_⟩
            rw [Whole.chunkedLoop_size, hsize]
            simp only [Whole.chunkedRound, h0, if_false]
            exact bind_of_error hshort
  · exact Or.inl ⟨.connectionClosed, by rw [Whole.chunkedLoop]; exact bind_of_error hnone⟩

/-- The loop goes over whole chunks. -/
theorem Whole.chunkedLoop_chunks (fuel : Nat) (s : List UInt8) :
    ∀ (chunks : List Chunk) (body : List UInt8),
      Whole.chunkedLoop (fuel + chunks.length) body (chunks.flatMap Chunk.bytes ++ s)
        = Whole.chunkedLoop fuel (body ++ chunks.flatMap Chunk.data) s := by
  intro chunks
  induction chunks with
  | nil => intro body; rw [List.flatMap_nil, List.flatMap_nil, List.append_nil]; rfl
  | cons c chunks ih =>
      intro body
      rw [List.flatMap_cons, List.flatMap_cons, List.append_assoc, List.length_cons,
        ← Nat.add_assoc, Whole.chunkedLoop_chunk, ih, List.append_assoc]

/-- **OUTCOMES OF THE LOOP**: it accepts what it can read, and panics on what is
    too large. -/
theorem Whole.chunkedLoop_outcome :
    ∀ (fuel : Nat) (body s : List UInt8),
      (∃ e, Whole.chunkedLoop fuel body s = .error (.err e)) ∨
      Whole.chunkedLoop fuel body s = .error .outOfFuel ∨
      (Whole.chunkedLoop fuel body s = .error .panic ∧ HugeChunk s) ∨
      (∃ (r : ChunkedReading) (rest : List UInt8), s = r.bytes ++ rest ∧
        Whole.chunkedLoop fuel body s = .ok (body ++ r.body, rest)) := by
  intro fuel
  induction fuel with
  | zero => intro body s; exact Or.inr (Or.inl rfl)
  | succ fuel ih =>
      intro body s
      rcases Whole.chunkedLoop_cases fuel body s with
        herr | ⟨size, rest, n, rfl, hsize, hn⟩ | ⟨last, trailer, rest, rfl, hlast⟩ | ⟨c, rest, rfl⟩
      · exact Or.inl herr
      · exact Or.inr (Or.inr (Or.inl ⟨Whole.chunkedLoop_huge fuel body hsize hn rest,
          ⟨[], size, rest, n, rfl, hsize, hn⟩⟩))
      · refine Or.inr (Or.inr (Or.inr ⟨⟨[], last, trailer, hlast⟩, rest, ?_, ?_⟩))
        · rw [ChunkedReading.bytes, List.flatMap_nil, List.nil_append, List.append_assoc]
        · rw [Whole.chunkedLoop_last fuel body hlast, ChunkedReading.body, List.flatMap_nil,
            List.append_nil]
      · rw [Whole.chunkedLoop_chunk]
        rcases ih (body ++ c.data) rest with herr | hfuel | ⟨hpanic, hhuge⟩ | ⟨r, t, rfl, hok⟩
        · exact Or.inl herr
        · exact Or.inr (Or.inl hfuel)
        · exact Or.inr (Or.inr (Or.inl ⟨hpanic, hhuge.cons c⟩))
        · refine Or.inr (Or.inr (Or.inr ⟨r.cons c, t, ?_, ?_⟩))
          · rw [ChunkedReading.bytes_cons, List.append_assoc]
          · rw [hok, ChunkedReading.body_cons, List.append_assoc]

/-! ## The body -/

theorem Chunk.bytes_ne_nil (c : Chunk) : c.bytes ≠ [] := by
  rw [bytes, Line.bytes_append]
  exact List.append_ne_nil_of_right_ne_nil _ (List.cons_ne_nil _ _)

theorem length_le_flatMap_bytes (chunks : List Chunk) :
    chunks.length ≤ (chunks.flatMap Chunk.bytes).length := by
  induction chunks with
  | nil => exact Nat.le_refl 0
  | cons c chunks ih =>
      have := List.length_pos_of_ne_nil c.bytes_ne_nil
      rw [List.flatMap_cons, List.length_append, List.length_cons]
      omega

/-- The fuel of the body is enough for the chunks at its front, and one round
    more. -/
theorem Whole.chunkedBody_chunks (chunks : List Chunk) (s : List UInt8) :
    ∃ fuel, Whole.chunkedBody (chunks.flatMap Chunk.bytes ++ s)
      = Whole.chunkedLoop (fuel + 1) (chunks.flatMap Chunk.data) s := by
  have hle := length_le_flatMap_bytes chunks
  refine ⟨(chunks.flatMap Chunk.bytes ++ s).length - chunks.length, ?_⟩
  have hfuel : (chunks.flatMap Chunk.bytes ++ s).length + 1
      = (chunks.flatMap Chunk.bytes ++ s).length - chunks.length + 1 + chunks.length := by
    rw [List.length_append]
    omega
  rw [Whole.chunkedBody, hfuel, Whole.chunkedLoop_chunks, List.nil_append]

/-- **ACCEPTED**: the bytes of a reading, whatever follows. -/
theorem Whole.chunkedBody_reading (r : ChunkedReading) (s : List UInt8) :
    Whole.chunkedBody (r.bytes ++ s) = .ok (r.body, s) := by
  obtain ⟨fuel, h⟩ := Whole.chunkedBody_chunks r.chunks (r.last.bytes ++ (r.trailer.bytes ++ s))
  rw [ChunkedReading.bytes, List.append_assoc, List.append_assoc, h,
    Whole.chunkedLoop_last fuel _ r.announced]
  rfl

theorem Whole.chunkedBody_ok {s body rest : List UInt8}
    (h : Whole.chunkedBody s = .ok (body, rest)) :
    ∃ r : ChunkedReading, s = r.bytes ++ rest ∧ body = r.body := by
  rw [Whole.chunkedBody] at h
  rcases Whole.chunkedLoop_outcome (s.length + 1) [] s with
    ⟨e, he⟩ | he | ⟨he, -⟩ | ⟨r, t, hs, hok⟩
  · rw [he] at h
    cases h
  · rw [he] at h
    cases h
  · rw [he] at h
    cases h
  · rw [hok] at h
    cases h
    exact ⟨r, hs, rfl⟩

/-- **PANIC**: exactly on a size that is too large. -/
theorem Whole.chunkedBody_panic_iff (s : List UInt8) :
    Whole.chunkedBody s = .error .panic ↔ HugeChunk s := by
  constructor
  · intro h
    rw [Whole.chunkedBody] at h
    rcases Whole.chunkedLoop_outcome (s.length + 1) [] s with
      ⟨e, he⟩ | he | ⟨-, hhuge⟩ | ⟨r, t, -, hok⟩
    · rw [he] at h
      cases h
    · rw [he] at h
      cases h
    · exact hhuge
    · rw [hok] at h
      cases h
  · rintro ⟨chunks, size, rest, n, rfl, hsize, hn⟩
    obtain ⟨fuel, h⟩ := Whole.chunkedBody_chunks chunks (size.bytes ++ rest)
    rw [h, Whole.chunkedLoop_huge fuel _ hsize hn]

end DpdkNet
