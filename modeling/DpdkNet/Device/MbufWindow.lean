import DpdkNet.Lib.Runs
import DpdkNet.Lib.Window
import DpdkNet.Device.Mbuf

/-! # Headroom and tailroom

    All of `api/rte/mbuf.rs`: an `rte_mbuf` has a buffer of fixed size, and its
    packet is the part from `data_off` on, `data_len` bytes long.  `append` and
    `trim` move the end of the part, `prepend` and `adj` its beginning, and
    `reset` puts it, empty, behind the default headroom.

    As every safe call checks what it moves, the part stays inside the buffer;
    an `RteMbuf` cannot be built otherwise.  What the calls do to the bytes is
    what the operations of a `Window` do: they cross its borders and stay where
    they are.  The device uses the calls that leave the beginning alone; what is
    in front of it can then be forgotten, which gives the `Mbuf` of the device. -/

namespace DpdkNet

open Runs

/-- An `rte_mbuf` of one segment.  `buf_len` is a `u16`, so that no length within
    the buffer overflows one. -/
structure RteMbuf where
  buf : List UInt8
  dataOff : Nat
  dataLen : Nat
  pktLen : Nat
  bufLen_le : buf.length ≤ u16Max
  inside : dataOff + dataLen ≤ buf.length
  oneSegment : pktLen = dataLen

namespace RteMbuf

def headroom (m : RteMbuf) : Nat := m.dataOff

def tailroom (m : RteMbuf) : Nat := m.buf.length - m.dataOff - m.dataLen

def capacity (m : RteMbuf) : Nat := m.dataLen + m.tailroom

def data (m : RteMbuf) : List UInt8 := (m.buf.drop m.dataOff).take m.dataLen

/-- `rte_pktmbuf_append`, behind the check of the wrapper. -/
def append (m : RteMbuf) (len : Nat) : Option RteMbuf :=
  if u16Max < len then none
  else if h : m.tailroom < len then none
  else some
    { m with
      dataLen := m.dataLen + len
      pktLen := m.pktLen + len
      inside := by
        have := m.inside
        rw [tailroom] at h
        omega
      oneSegment := by rw [m.oneSegment] }

/-- `rte_pktmbuf_prepend` -/
def prepend (m : RteMbuf) (len : Nat) : Option RteMbuf :=
  if u16Max < len then none
  else if h : m.headroom < len then none
  else some
    { m with
      dataOff := m.dataOff - len
      dataLen := m.dataLen + len
      pktLen := m.pktLen + len
      inside := by
        have := m.inside
        rw [headroom] at h
        omega
      oneSegment := by rw [m.oneSegment] }

/-- `rte_pktmbuf_adj`: remove bytes from the beginning. -/
def adj (m : RteMbuf) (len : Nat) : Option RteMbuf :=
  if u16Max < len then none
  else if h : m.dataLen < len then none
  else some
    { m with
      dataOff := m.dataOff + len
      dataLen := m.dataLen - len
      pktLen := m.pktLen - len
      inside := by
        have := m.inside
        omega
      oneSegment := by rw [m.oneSegment] }

/-- `rte_pktmbuf_trim`: remove bytes from the end. -/
def trim (m : RteMbuf) (len : Nat) : Option RteMbuf :=
  if u16Max < len then none
  else if m.dataLen < len then none
  else some
    { m with
      dataLen := m.dataLen - len
      pktLen := m.pktLen - len
      inside := by
        have := m.inside
        omega
      oneSegment := by rw [m.oneSegment] }

/-- `rte_pktmbuf_reset`, with the headroom that DPDK was built with. -/
def reset (R : Nat) (m : RteMbuf) : RteMbuf :=
  { m with
    dataOff := min R m.buf.length
    dataLen := 0
    pktLen := 0
    inside := Nat.min_le_right _ _
    oneSegment := Nat.zero_add 0 }

/-- Within the tailroom, as its contract demands. -/
def extend (m : RteMbuf) (len : Nat) (h : len ≤ m.tailroom) : RteMbuf :=
  { m with
    dataLen := m.dataLen + len
    pktLen := m.pktLen + len
    inside := by
      have := m.inside
      rw [tailroom] at h
      omega
    oneSegment := by rw [m.oneSegment] }

/-- It saturates, so that it does not depend on its contract. -/
def shrink (m : RteMbuf) (len : Nat) : RteMbuf :=
  { m with
    dataLen := m.dataLen - len
    pktLen := m.pktLen - len
    inside := by
      have := m.inside
      omega
    oneSegment := by rw [m.oneSegment] }

/-- Write bytes from the `i`-th of the data on, through the slice of `data_mut`,
    `append` or `prepend`; a slice ends with the data. -/
def write (m : RteMbuf) (i : Nat) (bs : List UInt8) : RteMbuf :=
  if h : i + bs.length ≤ m.dataLen then
    { m with
      buf := Window.writeStore m.buf (m.dataOff + i) bs
      bufLen_le := by
        have := m.inside
        rw [Window.length_writeStore (by omega)]
        exact m.bufLen_le
      inside := by
        have := m.inside
        rw [Window.length_writeStore (by omega)]
        exact m.inside }
  else m

/-- Reset the mbuf, then append the bytes; without room it stays reset. -/
def copyFromSlice (R : Nat) (m : RteMbuf) (d : List UInt8) : Bool × RteMbuf :=
  match (m.reset R).append d.length with
  | some m' => (true, m'.write 0 d)
  | none => (false, m.reset R)

/-! ## As a window -/

def view (m : RteMbuf) : Window UInt8 := Window.slice m.buf m.dataOff m.dataLen

end RteMbuf

/-! ## Runs -/

/-- The calls, and writes through the slices they return. -/
inductive MbufOp where
  | append (len : Nat)
  | prepend (len : Nat)
  | adj (len : Nat)
  | trim (len : Nat)
  | reset
  | extend (len : Nat)
  | shrink (len : Nat)
  | write (i : Nat) (bs : List UInt8)
  | copyFromSlice (d : List UInt8)

/-- `extend` was called without room. -/
inductive Violation where
  | noTailroom
  deriving DecidableEq, Repr

/-- What a call that may fail leaves, and whether it has not. -/
def orKeep {σ : Type} (s : σ) (rs : List Bool) : Option σ → σ × List Bool
  | some s' => (s', rs ++ [true])
  | none => (s, rs ++ [false])

namespace RteMbuf

/-- One call; the results of the calls so far are written down. -/
def step (R : Nat) (s : RteMbuf × List Bool) :
    MbufOp → Except Violation (RteMbuf × List Bool)
  | .append len => .ok (orKeep s.1 s.2 (s.1.append len))
  | .prepend len => .ok (orKeep s.1 s.2 (s.1.prepend len))
  | .adj len => .ok (orKeep s.1 s.2 (s.1.adj len))
  | .trim len => .ok (orKeep s.1 s.2 (s.1.trim len))
  | .reset => .ok (s.1.reset R, s.2)
  | .extend len =>
      if h : len ≤ s.1.tailroom then .ok (s.1.extend len h, s.2) else .error .noTailroom
  | .shrink len => .ok (s.1.shrink len, s.2)
  | .write i bs => .ok (s.1.write i bs, s.2)
  | .copyFromSlice d =>
      .ok ((s.1.copyFromSlice R d).2, s.2 ++ [(s.1.copyFromSlice R d).1])

end RteMbuf

namespace RteMbuf

end RteMbuf

/-! ## Headers -/

/-- Put a header in front. -/
def push (h : List UInt8) : List MbufOp := [.prepend h.length, .write 0 h]

/-- Take a header off. -/
def pop (h : List UInt8) : MbufOp := .adj h.length

section Headers

variable (R : Nat)

end Headers

/-! ## The mbufs of the device -/

/-- The calls of the device, none of which moves the beginning of the data. -/
inductive DeviceOp where
  | reset
  | append (len : Nat)
  | extend (len : Nat)
  | write (i : Nat) (bs : List UInt8)
  | copyFromSlice (d : List UInt8)

def DeviceOp.op : DeviceOp → MbufOp
  | .reset => .reset
  | .append len => .append len
  | .extend len => .extend len
  | .write i bs => .write i bs
  | .copyFromSlice d => .copyFromSlice d

/-- A closure that writes bytes from the `i`-th on. -/
def SliceWriter.bytesAt (i : Nat) (bs : List UInt8) : SliceWriter where
  write b := if i + bs.length ≤ b.length then Window.writeStore b i bs else b
  length_write b := by
    by_cases h : i + bs.length ≤ b.length
    · rw [if_pos h, Window.length_writeStore h]
    · rw [if_neg h]

/-- The same on the mbufs of the device. -/
def Mbuf.step (s : Mbuf × List Bool) : DeviceOp → Except Violation (Mbuf × List Bool)
  | .reset => .ok (s.1.reset, s.2)
  | .append len => .ok (orKeep s.1 s.2 (s.1.append len))
  | .extend len => if len ≤ s.1.tailroom then .ok (s.1.extend len, s.2) else .error .noTailroom
  | .write i bs => .ok (s.1.writeData (.bytesAt i bs), s.2)
  | .copyFromSlice d => .ok ((s.1.copyFromSlice d).2, s.2 ++ [(s.1.copyFromSlice d).1])

namespace RteMbuf

/-- The data begins behind the default headroom, as it does in an mbuf that comes
    from the pool or from the driver. -/
def AtHeadroom (R : Nat) (m : RteMbuf) : Prop := m.dataOff = min R m.buf.length

variable {R : Nat} (inner : Nat)

theorem write_frame (m : RteMbuf) (i : Nat) (bs : List UInt8) :
    (m.write i bs).dataOff = m.dataOff ∧ (m.write i bs).dataLen = m.dataLen ∧
      (m.write i bs).pktLen = m.pktLen ∧ (m.write i bs).buf.length = m.buf.length := by
  have hin := m.inside
  rw [write]
  by_cases h : i + bs.length ≤ m.dataLen
  · rw [dif_pos h]
    exact ⟨rfl, rfl, rfl, Window.length_writeStore (by omega)⟩
  · rw [dif_neg h]
    exact ⟨rfl, rfl, rfl, rfl⟩

theorem append_frame {m m' : RteMbuf} {len : Nat} (h : m.append len = some m') :
    m'.dataOff = m.dataOff ∧ m'.buf = m.buf := by
  rw [append] at h
  split at h
  · cases h
  · split at h
    · cases h
    · cases h
      exact ⟨rfl, rfl⟩

theorem AtHeadroom.reset (m : RteMbuf) : AtHeadroom R (m.reset R) := rfl

theorem AtHeadroom.append {m m' : RteMbuf} {len : Nat} (h : AtHeadroom R m)
    (happ : m.append len = some m') : AtHeadroom R m' := by
  obtain ⟨hoff, hbuf⟩ := append_frame happ
  rw [AtHeadroom, hoff, hbuf]
  exact h

theorem AtHeadroom.write {m : RteMbuf} (h : AtHeadroom R m) (i : Nat) (bs : List UInt8) :
    AtHeadroom R (m.write i bs) := by
  obtain ⟨hoff, -, -, hbuf⟩ := m.write_frame i bs
  rw [AtHeadroom, hoff, hbuf]
  exact h

/-- No call of the device moves the beginning of the data. -/
theorem AtHeadroom.step {s s' : RteMbuf × List Bool} {op : DeviceOp} (h : AtHeadroom R s.1)
    (hstep : RteMbuf.step R s op.op = .ok s') : AtHeadroom R s'.1 := by
  obtain ⟨m, rs⟩ := s
  cases op with
  | reset =>
      cases hstep
      exact AtHeadroom.reset m
  | append len =>
      cases hstep
      cases happ : m.append len with
      | none => exact h
      | some m' => exact h.append happ
  | extend len =>
      simp only [DeviceOp.op, RteMbuf.step] at hstep
      split at hstep
      · cases hstep
        exact h
      · cases hstep
  | write i bs =>
      cases hstep
      exact h.write i bs
  | copyFromSlice d =>
      cases hstep
      simp only [RteMbuf.copyFromSlice]
      cases happ : (m.reset R).append d.length with
      | none => exact AtHeadroom.reset m
      | some m' => exact ((AtHeadroom.reset m).append happ).write 0 d

end RteMbuf

/-! ## A small buffer -/

end DpdkNet
