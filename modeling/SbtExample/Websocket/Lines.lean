import SbtExample.Websocket.Draft

/-! # Lines from a stream of chunks

A caller puts every chunk behind the bytes it has not read yet and reads lines until a call leaves
the position where it was. What it gets depends on the bytes only, not on where they were cut.
-/
set_option autoImplicit false
set_option maxHeartbeats 250000

namespace SbtExample.Websocket
open Delimiter Draft

def append (buf : ByteBuffer) (chunk : List Int8) : ByteBuffer :=
  ⟨buf.hb.take buf.limit ++ chunk, buf.position, buf.limit + chunk.length,
    buf.position_le.trans (Nat.le_add_right ..), by
      rw [List.length_append, List.length_take, min_eq_left buf.limit_le]⟩

/-- The lines that repeated calls return, and the buffer they leave; `none` when a call throws or
the fuel runs out. -/
def readLines : ℕ → ByteBuffer → Option (List (List Int8) × ByteBuffer)
  | 0, _ => none
  | fuel + 1, buf =>
    match readLine buf with
    | .error _ => none
    | .ok (line, buf') =>
      if buf'.position = buf.position then some ([], buf')
      else (readLines fuel buf').map fun r => (line.unread :: r.1, r.2)

def receive (fuel : ℕ) : ByteBuffer → List (List Int8) → Option (List (List Int8) × ByteBuffer)
  | buf, [] => some ([], buf)
  | buf, chunk :: chunks =>
    (readLines fuel (append buf chunk)).bind fun r =>
      (receive fuel r.2 chunks).map fun q => (r.1 ++ q.1, q.2)

theorem unread_append (buf : ByteBuffer) (chunk : List Int8) :
    (append buf chunk).unread = buf.unread ++ chunk := by
  have hlen : (buf.hb.take buf.limit ++ chunk).length = buf.limit + chunk.length := by
    rw [List.length_append, List.length_take, min_eq_left buf.limit_le]
  have hle : buf.position ≤ (buf.hb.take buf.limit).length := by
    rw [List.length_take, min_eq_left buf.limit_le]
    exact buf.position_le
  show List.drop buf.position
    (List.take (buf.limit + chunk.length) (buf.hb.take buf.limit ++ chunk)) = _
  rw [← hlen, List.take_length, List.drop_append_of_le_length hle]
  rfl

theorem length_rest_le {s rest : List Int8} {lines : List (List Int8)}
    (h : Splits cr lf s lines rest) : rest.length ≤ s.length := by
  rw [← h.concat, List.length_append]
  exact Nat.le_add_left ..

theorem readLines_spec (fuel : ℕ) (buf : ByteBuffer) (hfuel : buf.unread.length < fuel) :
    ∃ lines buf', readLines fuel buf = some (lines, buf') ∧
      Splits cr lf buf.unread lines buf'.unread := by
  induction fuel generalizing buf with
  | zero => omega
  | succ fuel ih =>
    obtain ⟨r, hr, hread⟩ := readLine_spec buf
    rw [readLines, hr]
    cases hread with
    | rest sbuf hfree hsbuf hpassed =>
      exact ⟨[], buf, if_pos rfl, splits_of_free hfree⟩
    | line sbuf buf' hfree hunread hhb hlimit hposition =>
      have hlen := congrArg List.length hunread
      rw [List.length_append, List.length_append] at hlen
      obtain ⟨lines, rest, hlines, hsplits⟩ := ih buf' (by simp at hlen; omega)
      refine ⟨sbuf.unread :: lines, rest, ?_, ?_⟩
      · show (if buf'.position = buf.position then _ else _) = _
        rw [if_neg (by omega), hlines]
        rfl
      · rw [hunread]
        exact hsplits.cons hfree

theorem receive_spec (fuel : ℕ) (buf : ByteBuffer) (chunks : List (List Int8))
    (hfree : Free cr lf buf.unread) (hfuel : (buf.unread ++ chunks.flatten).length < fuel) :
    ∃ lines buf', receive fuel buf chunks = some (lines, buf') ∧
      Splits cr lf (buf.unread ++ chunks.flatten) lines buf'.unread := by
  induction chunks generalizing buf with
  | nil =>
    rw [List.flatten_nil, List.append_nil]
    exact ⟨[], buf, rfl, splits_of_free hfree⟩
  | cons chunk chunks ih =>
    rw [List.flatten_cons, ← List.append_assoc, List.length_append] at hfuel
    obtain ⟨lines, rest, hlines, hsplits⟩ :=
      readLines_spec fuel (append buf chunk) (by rw [unread_append]; omega)
    rw [unread_append] at hsplits
    have hle := length_rest_le hsplits
    obtain ⟨more, rest', hmore, hsplits'⟩ :=
      ih rest hsplits.rest_free (by rw [List.length_append]; omega)
    refine ⟨lines ++ more, rest', ?_, ?_⟩
    · rw [receive, hlines, Option.bind_some, hmore]
      rfl
    · rw [List.flatten_cons, ← List.append_assoc]
      exact hsplits.append hsplits'

/-- The lines and the unread rest that the caller ends with. -/
def Obtains (chunks : List (List Int8)) (lines : List (List Int8)) (rest : List Int8) : Prop :=
  ∃ n, ∀ fuel ≥ n, (receive fuel (.allocate 0) chunks).map (fun r => (r.1, r.2.unread)) =
    some (lines, rest)

/-- The same for a single buffer that holds all the bytes. -/
def ObtainsAtOnce (s : List Int8) (lines : List (List Int8)) (rest : List Int8) : Prop :=
  ∃ n, ∀ fuel ≥ n, (readLines fuel (.wrap s)).map (fun r => (r.1, r.2.unread)) =
    some (lines, rest)

theorem unread_wrap (s : List Int8) : (ByteBuffer.wrap s).unread = s := List.take_length

/-- However the bytes are cut into chunks, the caller ends with the lines and the rest of one
buffer, and these are the cut of the bytes at every CR LF. -/
theorem lines_of_chunks (chunks : List (List Int8)) :
    ∃ lines rest, Obtains chunks lines rest ∧ ObtainsAtOnce chunks.flatten lines rest ∧
      Splits cr lf chunks.flatten lines rest := by
  have hne : cr ≠ lf := by decide
  have hempty : (ByteBuffer.allocate 0).unread = [] := rfl
  obtain ⟨lines, buf, -, hsplits⟩ :=
    readLines_spec _ (.wrap chunks.flatten) (Nat.lt_succ_self _)
  rw [unread_wrap] at hsplits
  refine ⟨lines, buf.unread, ⟨chunks.flatten.length + 1, fun fuel hfuel => ?_⟩,
    ⟨chunks.flatten.length + 1, fun fuel hfuel => ?_⟩, hsplits⟩
  · obtain ⟨lines', buf', hlines', hsplits'⟩ := receive_spec fuel (.allocate 0) chunks free_nil
      (by rw [hempty, List.nil_append]; omega)
    rw [hempty, List.nil_append] at hsplits'
    obtain ⟨rfl, hrest⟩ := hsplits'.unique hne hsplits
    rw [hlines', Option.map_some, hrest]
  · obtain ⟨lines', buf', hlines', hsplits'⟩ := readLines_spec fuel (.wrap chunks.flatten)
      (by rw [unread_wrap]; omega)
    rw [unread_wrap] at hsplits'
    obtain ⟨rfl, hrest⟩ := hsplits'.unique hne hsplits
    rw [hlines', Option.map_some, hrest]

end SbtExample.Websocket
