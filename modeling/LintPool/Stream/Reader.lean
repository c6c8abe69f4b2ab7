import LintPool.Stream

/-!
# Reading a stream message by message

A reader of a stream is asked for one message after another. It fetches lines until one of them is
not blank. Where there is no further message it says why, once, and from then on that the stream has
ended.

## Main definitions

* `LintPool.Stream.LineBuffer.fetch` : the next line of a stream.
* `LintPool.Stream.Reader` : a reader between two requests.
* `LintPool.Stream.Reader.next` : the answer to a request for the next message.
* `LintPool.Stream.Reader.answers` : the answers to some requests.
* `LintPool.Stream.Reader.messages` : all messages for an observer that may stop early.
-/

namespace LintPool.Stream

/-- What comes next on a stream. -/
inductive Fetched (limit : Nat) where
  /-- A line without its newline; then the buffer holds what has been read behind it, and there are
  further reads. -/
  | line (line : Bytes) (b : LineBuffer limit) (reads : List Bytes)
  /-- A line that does not fit in the buffer. -/
  | overflow
  | ended

/-- Fetches the next line of a stream that comes in by `reads`; the last line may lack its newline.
An empty piece is passed over. -/
def LineBuffer.fetch {limit : Nat} (b : LineBuffer limit) (reads : List Bytes) : Fetched limit :=
  match b.line? with
  | some (line, b) => .line line b reads
  | none =>
    match b.makeRoom?, reads with
    | none, _ => .overflow
    | some ⟨b, _⟩, [] =>
      if b.held.isEmpty then .ended else .line b.held (b.handOut b.held.length) []
    | some ⟨b, _⟩, [] :: reads => b.fetch reads
    | some ⟨b, _⟩, (x :: read) :: reads =>
      (b.fill (x :: read)).fetch ((x :: read).drop b.free :: reads)
termination_by reads.length + reads.flatten.length
decreasing_by
  · simp
  · simp only [List.length_cons, List.flatten_cons, List.length_append, List.length_drop]
    omega

/-- A line is taken off what is held and what is still to be read. -/
theorem LineBuffer.length_of_fetch {limit : Nat} {b b' : LineBuffer limit}
    {reads reads' : List Bytes} {line : Bytes} (h : b.fetch reads = .line line b' reads') :
    b'.held.length + reads'.flatten.length < b.held.length + reads.flatten.length := by
  fun_induction b.fetch reads with
  | case1 b reads l b₁ hline =>
    cases h
    exact Nat.add_lt_add_right (length_of_line? hline) _
  | case2 => cases h
  | case3 => cases h
  | case4 b hline b₁ hfree hroom hempty =>
    cases h
    have hheld : b₁.held = b.held := held_of_makeRoom? hroom
    have hpos : 0 < b₁.held.length := by
      cases hb : b₁.held with
      | nil => simp [hb] at hempty
      | cons => simp
    rw [handOut, List.length_drop, ← hheld]
    omega
  | case5 b hline b₁ hfree reads hroom ih =>
    have hheld : b₁.held = b.held := held_of_makeRoom? hroom
    have hlt := ih h
    rw [hheld] at hlt
    simpa using hlt
  | case6 b hline b₁ hfree x read reads hroom ih =>
    have hheld : b₁.held = b.held := held_of_makeRoom? hroom
    have hlt := ih h
    simp only [fill, hheld, List.length_append, List.length_take, List.length_drop,
      List.flatten_cons] at hlt ⊢
    omega

/-- A reader of a stream between two requests. -/
structure Reader where
  buffer : LineBuffer (maxSize + 1) := emptyBuffer
  /-- The reads that the rest of the stream comes in by. -/
  reads : List Bytes
  /-- How the stream ends after these. -/
  ending : Ending
  /-- Whether the reader has told why there is no further message. -/
  done : Bool := false

namespace Reader

/-- The reader of a stream that comes in by reads of the lengths `cuts`, and a last one. -/
def ofStream (s : Bytes) (ending : Ending) (cuts : List Nat := []) : Reader :=
  { reads := pieces cuts s, ending }

/-- The number of bytes that have not been handed out as part of a line. -/
def left (r : Reader) : Nat := r.buffer.held.length + r.reads.flatten.length

/-- The answer where a stream ends. -/
def atEnd : Ending → Answer
  | .closed => .eof
  | .broken cause => .error (.read cause)

/-- The answer to a request for the next message, and the reader after it. -/
def next (r : Reader) : Answer × Reader :=
  if r.done then (.eof, r)
  else
    match _h : r.buffer.fetch r.reads with
    | .line line buffer reads =>
      match decodeLine line with
      | none => next { r with buffer, reads }
      | some (.ok m) => (.message m, { r with buffer, reads })
      | some (.error e) => (.error e, { r with buffer, reads, done := true })
    | .overflow => (.error .tooLarge, { r with done := true })
    | .ended => (atEnd r.ending, { r with done := true })
termination_by r.left
decreasing_by exact LineBuffer.length_of_fetch _h

/-- The answers to the first `n` requests. -/
def answers (r : Reader) : Nat → List Answer
  | 0 => []
  | n + 1 => r.next.1 :: r.next.2.answers n

/-- With a message some bytes have been handed out. -/
theorem left_of_next {r r' : Reader} {m : Message} (h : r.next = (.message m, r')) :
    r'.left < r.left := by
  fun_induction next r with
  | case1 => cases h
  | case2 r hdone line buffer reads hfetch hblank ih =>
    exact Nat.lt_trans (ih h) (LineBuffer.length_of_fetch hfetch)
  | case3 r hdone line buffer reads hfetch m' hmessage =>
    cases h
    exact LineBuffer.length_of_fetch hfetch
  | case4 => cases h
  | case5 => cases h
  | case6 r hdone hfetch =>
    unfold atEnd at h
    split at h <;> cases h

/-- What an observer sees that is handed all messages and the error after them, and that stops after
`limit` messages unless this is zero; and the reader afterwards. -/
def messages (r : Reader) (limit : Nat := 0) : List Answer × Reader :=
  match _h : r.next with
  | (.eof, r) => ([], r)
  | (.error e, r) => ([.error e], r)
  | (.message m, r) =>
    if limit = 1 then ([.message m], r)
    else
      let (rest, r) := r.messages (limit - 1)
      (.message m :: rest, r)
termination_by r.left
decreasing_by exact left_of_next _h

end Reader

end LintPool.Stream
