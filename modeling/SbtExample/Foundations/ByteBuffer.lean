import Mathlib

/-! # Byte buffers

The part of `java.nio.ByteBuffer` that relative reads and writes use: `get` and `put` move the
position towards the limit, and the setters check their bounds. The position and the limit of a
buffer are in bounds by construction.
-/
set_option autoImplicit false
set_option maxHeartbeats 250000

namespace SbtExample

inductive BufferException
  | bufferUnderflow
  | bufferOverflow
  | illegalArgument
  deriving DecidableEq

@[ext]
structure ByteBuffer where
  hb : List Int8
  position : ℕ
  limit : ℕ
  position_le : position ≤ limit
  limit_le : limit ≤ hb.length

namespace ByteBuffer

def allocate (capacity : ℕ) : ByteBuffer :=
  ⟨List.replicate capacity 0, 0, capacity, Nat.zero_le _, List.length_replicate.ge⟩

def wrap (bytes : List Int8) : ByteBuffer :=
  ⟨bytes, 0, bytes.length, Nat.zero_le _, le_rfl⟩

def capacity (buf : ByteBuffer) : ℕ := buf.hb.length

def remaining (buf : ByteBuffer) : ℕ := buf.limit - buf.position

def hasRemaining (buf : ByteBuffer) : Bool := decide (buf.position < buf.limit)

def get (buf : ByteBuffer) : Except BufferException (Int8 × ByteBuffer) :=
  if h : buf.position < buf.limit then
    .ok (buf.hb.get ⟨buf.position, h.trans_le buf.limit_le⟩,
      { buf with position := buf.position + 1, position_le := h })
  else .error .bufferUnderflow

def put (buf : ByteBuffer) (x : Int8) : Except BufferException ByteBuffer :=
  if h : buf.position < buf.limit then
    .ok ⟨buf.hb.set buf.position x, buf.position + 1, buf.limit, h,
      List.length_set.symm ▸ buf.limit_le⟩
  else .error .bufferOverflow

/-- `position(int)`. -/
def setPosition (buf : ByteBuffer) (newPosition : ℤ) : Except BufferException ByteBuffer :=
  if h : 0 ≤ newPosition ∧ newPosition ≤ buf.limit then
    .ok { buf with position := newPosition.toNat, position_le := Int.toNat_le.mpr h.2 }
  else .error .illegalArgument

/-- `limit(int)`: a position beyond the new limit moves down to it. -/
def setLimit (buf : ByteBuffer) (newLimit : ℤ) : Except BufferException ByteBuffer :=
  if h : 0 ≤ newLimit ∧ newLimit ≤ buf.capacity then
    .ok ⟨buf.hb, min buf.position newLimit.toNat, newLimit.toNat, min_le_right _ _,
      Int.toNat_le.mpr h.2⟩
  else .error .illegalArgument

/-- The bytes from the position to the limit. -/
def unread (buf : ByteBuffer) : List Int8 := (buf.hb.take buf.limit).drop buf.position

/-- The bytes before the position. -/
def passed (buf : ByteBuffer) : List Int8 := buf.hb.take buf.position

/-! ## Reading and writing -/

variable {buf : ByteBuffer}

theorem length_unread (buf : ByteBuffer) : buf.unread.length = buf.remaining := by
  rw [unread, List.length_drop, List.length_take, min_eq_left buf.limit_le, remaining]

theorem length_passed (buf : ByteBuffer) : buf.passed.length = buf.position := by
  rw [passed, List.length_take, min_eq_left (buf.position_le.trans buf.limit_le)]

theorem hasRemaining_iff : buf.hasRemaining = true ↔ buf.unread ≠ [] := by
  rw [← List.length_pos_iff, length_unread, remaining, hasRemaining, decide_eq_true_iff]
  omega

theorem unread_eq_nil (h : buf.limit ≤ buf.position) : buf.unread = [] :=
  List.length_eq_zero_iff.mp (by rw [length_unread, remaining]; omega)

theorem getElem?_unread (buf : ByteBuffer) (k : ℕ) :
    buf.unread[k]? = if buf.position + k < buf.limit then buf.hb[buf.position + k]? else none := by
  rw [unread, List.getElem?_drop, List.getElem?_take]

/-- `get` takes the first unread byte and moves the position only. -/
theorem get_of_unread {x : Int8} {t : List Int8} (h : buf.unread = x :: t) :
    ∃ buf', buf.get = .ok (x, buf') ∧ buf'.unread = t ∧ buf'.hb = buf.hb ∧
      buf'.limit = buf.limit ∧ buf'.position = buf.position + 1 := by
  have hlt : buf.position < buf.limit := by
    have hlen := length_unread buf
    rw [h, List.length_cons, remaining] at hlen
    omega
  have hlen : buf.position < (buf.hb.take buf.limit).length := by
    rw [List.length_take, min_eq_left buf.limit_le]
    exact hlt
  rw [unread, List.drop_eq_getElem_cons hlen] at h
  obtain ⟨rfl, rfl⟩ := List.cons.inj h
  rw [get, dif_pos hlt]
  refine ⟨{ buf with position := buf.position + 1, position_le := hlt }, ?_, rfl, rfl, rfl, rfl⟩
  rw [List.getElem_take]
  rfl

theorem get_remaining_lt {x : Int8} {buf' : ByteBuffer} (h : buf.get = .ok (x, buf')) :
    buf'.remaining < buf.remaining := by
  rw [get] at h
  split at h
  · obtain ⟨-, rfl⟩ := Prod.mk.inj (Except.ok.inj h)
    simp only [remaining]
    omega
  · cases h

/-- `put` appends to the bytes before the position. -/
theorem put_of_lt (x : Int8) (h : buf.position < buf.limit) :
    ∃ buf', buf.put x = .ok buf' ∧ buf'.passed = buf.passed ++ [x] ∧
      buf'.capacity = buf.capacity ∧ buf'.limit = buf.limit := by
  rw [put, dif_pos h]
  refine ⟨_, rfl, ?_, List.length_set, rfl⟩
  rw [passed, passed, List.take_add_one, List.take_set_of_le le_rfl,
    List.getElem?_set_self (h.trans_le buf.limit_le)]
  rfl

/-! ## Moving the position and the limit -/

theorem setPosition_eq {buf' : ByteBuffer} {n : ℤ} (hhb : buf'.hb = buf.hb)
    (hlimit : buf'.limit = buf.limit) (hposition : buf'.position = n) :
    buf.setPosition n = .ok buf' := by
  have hle := buf'.position_le
  rw [setPosition, dif_pos ⟨by omega, by omega⟩]
  congr 1
  ext1
  · exact hhb.symm
  · show n.toNat = buf'.position
    omega
  · exact hlimit.symm

/-- The bytes before the position become readable, less those from `n` on. -/
theorem flip_eq (buf : ByteBuffer) {n : ℕ} (h : n ≤ buf.position) :
    ∃ line, (do let sbuf ← buf.setLimit n; sbuf.setPosition 0) = .ok line ∧
      line.unread = buf.passed.take n := by
  have hcapacity := buf.position_le.trans buf.limit_le
  refine ⟨⟨buf.hb, 0, n, Nat.zero_le n, h.trans hcapacity⟩, ?_, ?_⟩
  · have hlimit : (0 : ℤ) ≤ n ∧ (n : ℤ) ≤ buf.capacity := ⟨by omega, by rw [capacity]; omega⟩
    rw [setLimit, dif_pos hlimit]
    show ByteBuffer.setPosition _ 0 = _
    exact setPosition_eq rfl rfl rfl
  · rw [unread, passed, List.take_take, min_eq_left h]
    rfl

end ByteBuffer

end SbtExample
