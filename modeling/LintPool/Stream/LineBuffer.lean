import LintPool.Text.Bytes

/-!
# Reading lines through a buffer

The bytes of a stream come in by reads, which may cut it anywhere. What was read and not handed out
as a line yet is held in a buffer. The buffer grows as long as it has not got its greatest size; a
line that does not fit in together with its newline ends the reading.

The reads are those of a connection: each waits until it can bring at least one byte, and that there
are no more bytes is told by a read of its own, after all of them have been handed over. A list of
reads may have empty pieces in it, which stand for no read at all.

## Main definitions

* `LintPool.Stream.LineBuffer` : a buffer.
* `LintPool.Stream.LineBuffer.line?` : the next line, if all of it has been read.
* `LintPool.Stream.LineBuffer.makeRoom?` : the buffer made ready for the next read.
* `LintPool.Stream.LineBuffer.scan` : the lines of a stream.
* `LintPool.Stream.pieces` : a text cut into reads.
-/

namespace LintPool.Stream

/-- A buffer of at most `limit` bytes. -/
structure LineBuffer (limit : Nat) where
  size : Nat
  /-- The number of bytes at its front that have been handed out. -/
  spent : Nat
  /-- The bytes after these, which have not. -/
  held : Bytes
  size_pos : 0 < size
  size_le : size ≤ limit
  fits : spent + held.length ≤ size

namespace LineBuffer

variable {limit : Nat}

/-- The number of bytes for which there is room behind what is held. -/
def free (b : LineBuffer limit) : Nat := b.size - (b.spent + b.held.length)

/-- The buffer with some more bytes of what it holds handed out. -/
def handOut (b : LineBuffer limit) (n : Nat) : LineBuffer limit :=
  { b with
    spent := b.spent + min n b.held.length
    held := b.held.drop n
    fits := by
      have hfits := b.fits
      rw [List.length_drop]
      omega }

/-- The next line without its newline, if all of it has been read, and the buffer after it. -/
def line? (b : LineBuffer limit) : Option (Bytes × LineBuffer limit) :=
  let line := b.held.takeWhile (· != byte '\n')
  if line.length < b.held.length then some (line, b.handOut (line.length + 1)) else none

/-- A line and its newline are taken out of what is held. -/
theorem length_of_line? {b b' : LineBuffer limit} {line : Bytes} (h : b.line? = some (line, b')) :
    b'.held.length < b.held.length := by
  unfold line? at h
  dsimp only at h
  split at h
  · rename_i hlt
    cases h
    rw [handOut, List.length_drop]
    omega
  · cases h

/-- The buffer with what it holds moved to the front, if there is no room behind or more than half
of it has been handed out. -/
def shift (b : LineBuffer limit) : LineBuffer limit :=
  if 0 < b.spent ∧ (b.free = 0 ∨ b.size / 2 < b.spent) then
    { b with
      spent := 0
      fits := by
        have hfits := b.fits
        omega }
  else b

/-- Moving what is held to the front does not change it. -/
@[simp] theorem held_shift (b : LineBuffer limit) : b.shift.held = b.held := by
  unfold shift
  split
  · rfl
  · rfl

/-- The buffer made twice as large, or as large as can be. -/
def grow (b : LineBuffer limit) : LineBuffer limit where
  size := min (2 * b.size) limit
  spent := 0
  held := b.held
  size_pos := by
    have hpos := b.size_pos
    have hle := b.size_le
    omega
  size_le := Nat.min_le_right ..
  fits := by
    have hfits := b.fits
    have hle := b.size_le
    omega

/-- Growing does not change what is held. -/
@[simp] theorem held_grow (b : LineBuffer limit) : b.grow.held = b.held := rfl

/-- The buffer made ready for the next read; nothing if it is full and cannot grow. -/
def makeRoom? (b : LineBuffer limit) : Option { b : LineBuffer limit // 0 < b.free } :=
  if h : 0 < b.shift.free then some ⟨b.shift, h⟩
  else if h : 0 < b.shift.grow.free then some ⟨b.shift.grow, h⟩
  else none

/-- Making room does not change what is held. -/
theorem held_of_makeRoom? {b : LineBuffer limit} {r : { b : LineBuffer limit // 0 < b.free }}
    (h : b.makeRoom? = some r) : r.1.held = b.held := by
  unfold makeRoom? at h
  split at h
  · cases h
    exact held_shift b
  split at h
  · cases h
    rw [held_grow, held_shift]
  · cases h

/-- The buffer after a read, as far as there is room for it. -/
def fill (b : LineBuffer limit) (read : Bytes) : LineBuffer limit :=
  { b with
    held := b.held ++ read.take b.free
    fits := by
      have hfits := b.fits
      simp only [List.length_append, List.length_take, free]
      omega }

end LineBuffer

/-- The lines of a stream without their newlines, as far as it was read. -/
structure Scanned where
  lines : List Bytes
  /-- Whether the reading ended because a line did not fit in the buffer. -/
  overflow : Bool

/-- Hands out the lines of a stream that comes in by `reads`; at its end a last line may lack its
newline. An empty piece is passed over. `acc` holds the lines handed out so far, last first. -/
def LineBuffer.scan {limit : Nat} (b : LineBuffer limit) (acc : List Bytes) (reads : List Bytes) :
    Scanned :=
  match _h : b.line? with
  | some (line, b) => b.scan (line :: acc) reads
  | none =>
    match b.makeRoom?, reads with
    | none, _ => { lines := acc.reverse, overflow := true }
    | some ⟨b, _⟩, [] =>
      { lines := (if b.held.isEmpty then acc else b.held :: acc).reverse, overflow := false }
    | some ⟨b, _⟩, [] :: reads => b.scan acc reads
    | some ⟨b, _⟩, (x :: read) :: reads =>
      (b.fill (x :: read)).scan acc ((x :: read).drop b.free :: reads)
termination_by (reads.length + reads.flatten.length, b.held.length)
decreasing_by
  · exact Prod.Lex.right _ (length_of_line? _h)
  · exact Prod.Lex.left _ _ (by simp)
  · refine Prod.Lex.left _ _ ?_
    simp only [List.length_cons, List.flatten_cons, List.length_append, List.length_drop]
    omega

/-- A text cut into pieces of the given lengths; the last piece has all that is left. A piece may be
empty. -/
def pieces : (lengths : List Nat) → Bytes → List Bytes
  | [], s => [s]
  | n :: lengths, s => s.take n :: pieces lengths (s.drop n)

end LintPool.Stream
