import SbtExample.Foundations.ByteBuffer
import SbtExample.Foundations.Delimiter

/-! # Reading a line of the handshake (`drafts/Draft.scala`)

`readLine` copies bytes until it has copied CR LF. A line without its end stays unread.
-/
set_option autoImplicit false
set_option maxHeartbeats 250000

namespace SbtExample.Websocket
open Delimiter

abbrev cr : Int8 := 13

abbrev lf : Int8 := 10

namespace Draft

/-- The `while` loop and what follows it. `cur` is the last byte read, or the character `0`. -/
def readLine.loop (buf sbuf : ByteBuffer) (cur : Int8) :
    Except BufferException (ByteBuffer × ByteBuffer) :=
  if buf.hasRemaining then
    let prev := cur
    match _hget : buf.get with
    | .error e => .error e
    | .ok (cur, buf) =>
      match sbuf.put cur with
      | .error e => .error e
      | .ok sbuf =>
        if prev = cr ∧ cur = lf then do
          let sbuf ← sbuf.setLimit (sbuf.position - 2)
          let sbuf ← sbuf.setPosition 0
          return (sbuf, buf)
        else readLine.loop buf sbuf cur
  else do
    let buf ← buf.setPosition (buf.position - sbuf.position)
    return (sbuf, buf)
termination_by buf.remaining
decreasing_by exact ByteBuffer.get_remaining_lt _hget

/-- The returned buffer and the buffer that was read, as the call leaves it. -/
def readLine (buf : ByteBuffer) : Except BufferException (ByteBuffer × ByteBuffer) :=
  readLine.loop buf (.allocate buf.remaining) 48

/-- What a call returns: either the first line, with the position behind its end, or an exhausted
buffer, with the position where it was. -/
inductive LineRead (buf : ByteBuffer) : ByteBuffer × ByteBuffer → Prop
  | line (sbuf buf' : ByteBuffer) (hfree : Free cr lf sbuf.unread)
      (hunread : buf.unread = sbuf.unread ++ [cr, lf] ++ buf'.unread) (hhb : buf'.hb = buf.hb)
      (hlimit : buf'.limit = buf.limit)
      (hposition : buf'.position = buf.position + (sbuf.unread.length + 2)) :
      LineRead buf (sbuf, buf')
  | rest (sbuf : ByteBuffer) (hfree : Free cr lf buf.unread) (hsbuf : sbuf.unread = [])
      (hpassed : sbuf.passed = buf.unread) : LineRead buf (sbuf, buf)

/-- The state of the loop of a call on `start`. -/
structure Copied (start buf sbuf : ByteBuffer) (cur : Int8) : Prop where
  unread : start.unread = sbuf.passed ++ buf.unread
  hb : buf.hb = start.hb
  limit : buf.limit = start.limit
  position : buf.position = start.position + sbuf.position
  room : sbuf.limit = start.remaining
  free : Free cr lf sbuf.passed
  last : sbuf.passed.getLast? = some cr ↔ cur = cr

theorem copied_start (start : ByteBuffer) :
    Copied start start (.allocate start.remaining) 48 where
  unread := rfl
  hb := rfl
  limit := rfl
  position := rfl
  room := rfl
  free := free_nil
  last := iff_of_false (fun h => nomatch h) (by decide)

/-- One pass of the loop that does not return. -/
theorem Copied.step {start buf sbuf buf' sbuf' : ByteBuffer} {cur x : Int8}
    (h : Copied start buf sbuf cur) (hget : buf.unread = x :: buf'.unread)
    (hhb : buf'.hb = buf.hb) (hlimit : buf'.limit = buf.limit)
    (hposition : buf'.position = buf.position + 1) (hput : sbuf'.passed = sbuf.passed ++ [x])
    (hroom : sbuf'.limit = sbuf.limit) (hcur : ¬ (cur = cr ∧ x = lf)) :
    Copied start buf' sbuf' x where
  unread := by rw [h.unread, hget, hput, List.append_assoc, List.singleton_append]
  hb := hhb.trans h.hb
  limit := hlimit.trans h.limit
  position := by
    have hlen := congrArg List.length hput
    rw [List.length_append, ByteBuffer.length_passed, ByteBuffer.length_passed] at hlen
    rw [hposition, h.position, hlen, List.length_singleton, Nat.add_assoc]
  room := hroom.trans h.room
  free := by
    rw [hput, free_concat_iff, h.last]
    exact ⟨h.free, hcur⟩
  last := by rw [hput, List.getLast?_concat, Option.some_inj]

/-- The copy has room for the unread bytes. -/
theorem Copied.position_lt {start buf sbuf : ByteBuffer} {cur : Int8}
    (h : Copied start buf sbuf cur) (hunread : buf.unread ≠ []) : sbuf.position < sbuf.limit := by
  have hlen := congrArg List.length h.unread
  have hpos := List.length_pos_iff.mpr hunread
  rw [List.length_append, ByteBuffer.length_unread, ByteBuffer.length_passed, ← h.room] at hlen
  omega

theorem loop_step {buf sbuf buf' sbuf' : ByteBuffer} {cur x : Int8}
    (hget : buf.get = .ok (x, buf')) (hput : sbuf.put x = .ok sbuf') :
    readLine.loop buf sbuf cur =
      if cur = cr ∧ x = lf then do
        let sbuf ← (do let sbuf ← sbuf'.setLimit (sbuf'.position - 2); sbuf.setPosition 0)
        return (sbuf, buf')
      else readLine.loop buf' sbuf' x := by
  have hremaining : buf.hasRemaining = true := by
    by_contra hnone
    rw [ByteBuffer.get, dif_neg (by simpa [ByteBuffer.hasRemaining] using hnone)] at hget
    cases hget
  rw [readLine.loop, if_pos hremaining]
  split
  · rename_i e h
    rw [hget] at h
    cases h
  · rename_i y buf'' h
    rw [hget] at h
    obtain ⟨rfl, rfl⟩ := Prod.mk.inj (Except.ok.inj h)
    rw [hput, bind_assoc]

theorem Copied.rest {start buf sbuf : ByteBuffer} {cur : Int8} (h : Copied start buf sbuf cur)
    (hu : buf.unread = []) : LineRead start (sbuf, start) := by
  have hall : start.unread = sbuf.passed := by rw [h.unread, hu, List.append_nil]
  refine .rest sbuf (hall ▸ h.free) (ByteBuffer.unread_eq_nil ?_) hall.symm
  rw [h.room, ← ByteBuffer.length_unread, hall, ByteBuffer.length_passed]

theorem Copied.line {start buf sbuf buf' line : ByteBuffer} {l : List Int8}
    (h : Copied start buf sbuf cr) (hget : buf.unread = lf :: buf'.unread)
    (hhb : buf'.hb = buf.hb) (hlimit : buf'.limit = buf.limit)
    (hposition : buf'.position = buf.position + 1) (hl : sbuf.passed = l ++ [cr])
    (hline : line.unread = l) : LineRead start (line, buf') := by
  subst hline
  have hlen : sbuf.position = line.unread.length + 1 := by
    rw [← ByteBuffer.length_passed, hl, List.length_append, List.length_singleton]
  have hfree := h.free
  rw [hl, free_concat_iff] at hfree
  refine .line line buf' hfree.1 ?_ (hhb.trans h.hb) (hlimit.trans h.limit) ?_
  · rw [h.unread, hget, hl]
    simp
  · rw [hposition, h.position, hlen, Nat.add_assoc]

theorem loop_spec {start buf sbuf : ByteBuffer} {cur : Int8} (h : Copied start buf sbuf cur) :
    ∃ r, readLine.loop buf sbuf cur = .ok r ∧ LineRead start r := by
  induction hu : buf.unread generalizing buf sbuf cur with
  | nil =>
    have hdone : ¬ buf.hasRemaining = true := by
      rw [ByteBuffer.hasRemaining_iff, hu]
      simp
    have hback : buf.setPosition (buf.position - sbuf.position) = .ok start :=
      ByteBuffer.setPosition_eq h.hb.symm h.limit.symm (by rw [h.position]; omega)
    rw [readLine.loop, if_neg hdone, hback]
    exact ⟨(sbuf, start), rfl, h.rest hu⟩
  | cons x t ih =>
    obtain ⟨buf', hget, rfl, hhb, hlimit, hposition⟩ := ByteBuffer.get_of_unread hu
    obtain ⟨sbuf', hput, hpassed, -, hroom⟩ :=
      ByteBuffer.put_of_lt x (h.position_lt (by rw [hu]; exact List.cons_ne_nil x _))
    rw [loop_step hget hput]
    by_cases hcur : cur = cr ∧ x = lf
    · obtain ⟨rfl, rfl⟩ := hcur
      rw [if_pos ⟨rfl, rfl⟩]
      obtain ⟨l, hl⟩ := List.getLast?_eq_some_iff.mp (h.last.mpr rfl)
      rw [hl, List.append_assoc, List.singleton_append] at hpassed
      have hlen : sbuf'.position = l.length + 2 := by
        rw [← ByteBuffer.length_passed, hpassed, List.length_append]
        rfl
      obtain ⟨line, hflip, hline⟩ := ByteBuffer.flip_eq sbuf' (n := l.length) (by omega)
      rw [show (sbuf'.position : ℤ) - 2 = l.length by omega, hflip]
      rw [hpassed, List.take_left] at hline
      exact ⟨(line, buf'), rfl, h.line hu hhb hlimit hposition hl hline⟩
    · rw [if_neg hcur]
      exact ih (h.step hu hhb hlimit hposition hpassed hroom hcur) rfl

/-- No call throws. -/
theorem readLine_spec (buf : ByteBuffer) :
    ∃ r, readLine buf = .ok r ∧ LineRead buf r := loop_spec (copied_start buf)

end Draft

end SbtExample.Websocket
