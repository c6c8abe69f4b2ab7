import LintPool.Proofs.Source.Mask

/-!
# Masking in place

A buffer can be masked in place, with an index that runs through it in four loops: one through code,
and one each through quotes and the two kinds of comments. Every access to the buffer is checked
here, and a single one beyond its end would leave nothing at all. None is made, and what is left in
the buffer is the masked text.

## Main definitions

* `LintPool.Source.maskLoop?` : the loops.
* `LintPool.Source.maskInPlace?` : masking in place.
* `LintPool.Source.outcome` : what masking comes to from an index on.

## Main results

* `LintPool.Source.outcome_step` : a step of masking in a buffer.
* `LintPool.Source.maskLoop?_eq` : the loops mask a buffer.
* `LintPool.Source.mask_keeps_layout` : masking keeps the layout, and masked text stays as it is.
-/

namespace LintPool.Source

variable {n : Nat}

/-! ## The loops -/

/-- A buffer with a space at an index; none beyond its end. -/
def blankAt? (b : Vector UInt8 n) (i : Nat) : Option (Vector UInt8 n) :=
  if h : i < n then some (b.set i (byte ' ')) else none

/-- Whether the byte behind an index is a given one. The byte is only looked at if there is one. -/
def nextIs? (b : Vector UInt8 n) (i : Nat) (c : Char) : Option Bool :=
  if i + 1 < n then (b[i + 1]?).map (· == byte c) else some false

/-- Whether the byte `c` at an index starts a comment to the end of the line. -/
def startsLineAt? (b : Vector UInt8 n) (i : Nat) (c : UInt8) : Option Bool :=
  if c = byte '#' then (nextIs? b i '[').map (!·)
  else if c = byte '/' then nextIs? b i '/'
  else some false

/-- Whether the byte `c` at an index starts a block comment. -/
def startsBlockAt? (b : Vector UInt8 n) (i : Nat) (c : UInt8) : Option Bool :=
  if c = byte '/' then nextIs? b i '*' else some false

/-- Whether the byte `c` at an index starts the end of a block comment. -/
def endsBlockAt? (b : Vector UInt8 n) (i : Nat) (c : UInt8) : Option Bool :=
  if c = byte '*' then nextIs? b i '/' else some false

/-- The loop that an index runs in. -/
inductive Loop where
  | code
  | quoted (quote : UInt8)
  | lineComment
  | blockComment

/-- The mode in which a loop meets the byte at its index. -/
@[simp] def Loop.mode : Loop → Mode
  | .code => .code
  | .quoted quote => .quoted quote
  | .lineComment => .lineComment
  | .blockComment => .blockComment

/-- The loop through code enters the loop through a comment without a move of the index. -/
def Loop.rank : Loop → Nat
  | .code => 1
  | _ => 0

/-- The loops through a buffer, from an index on. -/
def maskLoop? (loop : Loop) (b : Vector UInt8 n) (i : Nat) : Option (Vector UInt8 n) :=
  if _hi : i < n then do
    let c ← b[i]?
    match loop with
    | .code =>
      if c = byte '\'' ∨ c = byte '"' then maskLoop? (.quoted c) b (i + 1)
      else if ← startsLineAt? b i c then maskLoop? .lineComment b i
      else if ← startsBlockAt? b i c then maskLoop? .blockComment b i
      else maskLoop? .code b (i + 1)
    | .quoted quote =>
      if c = quote ∨ c = byte '\n' then maskLoop? .code b (i + 1)
      else if c = byte '\\' then maskLoop? (.quoted quote) b (i + 2)
      else maskLoop? (.quoted quote) b (i + 1)
    | .lineComment =>
      if c = byte '\n' then maskLoop? .code b (i + 1)
      else maskLoop? .lineComment (← blankAt? b i) (i + 1)
    | .blockComment =>
      if ← endsBlockAt? b i c then
        maskLoop? .code (← blankAt? (← blankAt? b i) (i + 1)) (i + 2)
      else if c = byte '\n' then maskLoop? .blockComment b (i + 1)
      else maskLoop? .blockComment (← blankAt? b i) (i + 1)
  else some b
termination_by (n - i, loop.rank)
decreasing_by
  all_goals
    simp only [Prod.lex_def, Loop.rank, true_and]
    omega

/-- Masks a source in a buffer of its own. -/
def maskInPlace? (s : Bytes) : Option Bytes :=
  (maskLoop? .code (Vector.mk s.toArray rfl) 0).map Vector.toList

/-! ## Checked access -/

section Access

variable {b : Vector UInt8 n} {i : Nat}

/-- A byte of the buffer is there. -/
lemma getElem?_of_lt (hi : i < n) : b[i]? = some b[i] := Vector.getElem?_eq_getElem hi

/-- A byte of the buffer can be blanked out. -/
lemma blankAt?_of_lt (hi : i < n) : blankAt? b i = some (b.set i (byte ' ')) := dif_pos hi

/-- Looking at the byte behind an index never fails. -/
lemma nextIs?_eq (b : Vector UInt8 n) (i : Nat) (c : Char) :
    nextIs? b i c = some (b[i + 1]? == some (byte c)) := by
  by_cases hi : i + 1 < n
  · simp [nextIs?, hi]
  · have hi : n ≤ i + 1 := by omega
    simp [nextIs?, hi]

/-- Looking for the start of a comment never fails. -/
lemma startsLineAt?_eq (b : Vector UInt8 n) (i : Nat) (c : UInt8) :
    startsLineAt? b i c = some (startsLine c b[i + 1]?) := by
  have hne : byte '/' ≠ byte '#' := by decide
  by_cases hhash : c = byte '#'
  · subst hhash
    simp [startsLineAt?, startsLine, nextIs?_eq, hne.symm, bne]
  · by_cases hslash : c = byte '/'
    · simp [startsLineAt?, startsLine, nextIs?_eq, hslash, hne]
    · simp [startsLineAt?, startsLine, hhash, hslash]

/-- Looking for the start of a block comment never fails. -/
lemma startsBlockAt?_eq (b : Vector UInt8 n) (i : Nat) (c : UInt8) :
    startsBlockAt? b i c = some (startsBlock c b[i + 1]?) := by
  by_cases hslash : c = byte '/'
  · simp [startsBlockAt?, startsBlock, nextIs?_eq, hslash]
  · simp [startsBlockAt?, startsBlock, hslash]

/-- Looking for the end of a block comment never fails. -/
lemma endsBlockAt?_eq (b : Vector UInt8 n) (i : Nat) (c : UInt8) :
    endsBlockAt? b i c = some (c == byte '*' && b[i + 1]? == some (byte '/')) := by
  by_cases hstar : c = byte '*'
  · simp [endsBlockAt?, nextIs?_eq, hstar]
  · simp [endsBlockAt?, hstar]

end Access

/-! ## What the loops come to -/

/-- What masking comes to from an index on: what stands before it, and the masked rest. -/
def outcome (mode : Mode) (b : Vector UInt8 n) (i : Nat) : Bytes :=
  b.toList.take i ++ maskFrom mode (b.toList.drop i)

section Outcome

variable {b : Vector UInt8 n} {i : Nat}

/-- Beyond the end nothing is left to mask. -/
lemma outcome_of_le (mode : Mode) (hi : n ≤ i) : outcome mode b i = b.toList := by
  have hlength : b.toList.length ≤ i := by simpa using hi
  rw [outcome, List.drop_of_length_le hlength, List.take_of_length_le hlength, maskFrom_nil,
    List.append_nil]

/-- **A step of masking in a buffer**: the byte at the index is replaced, and the index moves on. -/
lemma outcome_step {mode mode' : Mode} {c : UInt8} (hi : i < n)
    (hstep : mode.step b[i] b[i + 1]? = (mode', c)) :
    outcome mode b i = outcome mode' (b.set i c) (i + 1) := by
  have hlength : i < b.toList.length := by simpa using hi
  have hdrop : b.toList.drop i = b[i] :: b.toList.drop (i + 1) := by
    rw [List.drop_eq_getElem_cons hlength, Vector.getElem_toList]
  have hhead : (b.toList.drop (i + 1)).head? = b[i + 1]? := by
    rw [List.head?_drop, Vector.getElem?_toList]
  rw [outcome, outcome, hdrop, maskFrom_cons, hhead, hstep, Vector.toList_set,
    List.drop_set_of_lt (by omega), List.take_add_one, List.take_set_of_le (Nat.le_refl i)]
  simp [hi]

/-- A step that keeps the byte leaves the buffer as it is. -/
lemma outcome_keep {mode mode' : Mode} (hi : i < n)
    (hstep : mode.step b[i] b[i + 1]? = (mode', b[i])) :
    outcome mode b i = outcome mode' b (i + 1) := by
  rw [outcome_step hi hstep, Vector.set_getElem_self]

/-- Modes that make the same step come to the same. -/
lemma outcome_congr {mode mode' : Mode} (hi : i < n)
    (hstep : mode.step b[i] b[i + 1]? = mode'.step b[i] b[i + 1]?) :
    outcome mode b i = outcome mode' b i := by
  cases hpair : mode'.step b[i] b[i + 1]? with
  | mk next c => rw [outcome_step hi (hstep.trans hpair), outcome_step hi hpair]

end Outcome

/-! ## Entering and leaving comments -/

section Comments

variable {c : UInt8} {next : Option UInt8}

/-- On the first byte of a comment to the end of the line, the mode of the comment makes the step
that code does. -/
lemma step_lineComment_of_starts (hquote : ¬ (c = byte '\'' ∨ c = byte '"'))
    (hline : startsLine c next = true) :
    Mode.lineComment.step c next = Mode.code.step c next := by
  have hc := ne_newline_of_starts (.inl hline)
  simp [Mode.step, hquote, hline, blank, hc]

/-- On the first byte of a block comment, the mode of the comment makes the step that code does. -/
lemma step_blockComment_of_starts (hquote : ¬ (c = byte '\'' ∨ c = byte '"'))
    (hline : startsLine c next = false) (hblock : startsBlock c next = true) :
    Mode.blockComment.step c next = Mode.code.step c next := by
  have hc := ne_newline_of_starts (.inr hblock)
  have hslash : c = byte '/' := by
    simp only [startsBlock, Bool.and_eq_true, beq_iff_eq] at hblock
    exact hblock.1
  have hstar : c ≠ byte '*' := by
    rw [hslash]
    decide
  simp [Mode.step, hquote, hline, hblock, hstar, blank, hc]

/-- A backslash in quotes skips a byte, or leads beyond the end of the buffer. -/
lemma outcome_escape {b : Vector UInt8 n} {i : Nat} {quote : UInt8} (hi : i < n)
    (hclose : ¬ (b[i] = quote ∨ b[i] = byte '\n')) (hescape : b[i] = byte '\\') :
    outcome (.quoted quote) b i = outcome (.quoted quote) b (i + 2) := by
  have hfirst : (Mode.quoted quote).step b[i] b[i + 1]? = (.escaped quote, b[i]) := by
    simp only [Mode.step, if_neg hclose, if_pos hescape]
  rw [outcome_keep hi hfirst]
  by_cases hnext : i + 1 < n
  · exact outcome_keep hnext rfl
  · rw [outcome_of_le _ (by omega), outcome_of_le _ (by omega)]

/-- The two bytes that end a block comment are blanked out together. -/
lemma outcome_closeBlock {b : Vector UInt8 n} {i : Nat} (hnext : i + 1 < n)
    (hstar : b[i] = byte '*') (hslash : b[i + 1]? = some (byte '/')) :
    outcome .blockComment b i =
      outcome .code ((b.set i (byte ' ')).set (i + 1) (byte ' ')) (i + 2) := by
  have hi : i < n := by omega
  have hfirst : Mode.blockComment.step b[i] b[i + 1]? = (.blockEnd, byte ' ') := by
    simp [Mode.step, hstar, hslash]
  rw [outcome_step hi hfirst]
  exact outcome_step hnext rfl

end Comments

/-! ## Iterations -/

/-- One iteration of a loop: the run goes on in some loop, at a later index or inside of a comment,
and comes to the same. -/
structure Iterates (loop loop' : Loop) (b b' : Vector UInt8 n) (i i' : Nat) : Prop where
  run : maskLoop? loop b i = maskLoop? loop' b' i'
  outcome_eq : outcome loop.mode b i = outcome loop'.mode b' i'
  closer : i < i' ∨ (i = i' ∧ loop'.rank < loop.rank)

section Iterations

variable {b : Vector UInt8 n} {i : Nat}

/-- An iteration of the loop through code. -/
lemma iterates_code (hi : i < n) : ∃ loop b' i', Iterates .code loop b b' i i' := by
  have hrun := maskLoop?.eq_def .code b i
  simp only [dif_pos hi, getElem?_of_lt hi, startsLineAt?_eq, startsBlockAt?_eq,
    Option.bind_eq_bind, Option.bind_some] at hrun
  by_cases hquote : b[i] = byte '\'' ∨ b[i] = byte '"'
  · rw [if_pos hquote] at hrun
    exact ⟨_, _, _, hrun, outcome_keep hi (by simp [Mode.step, hquote]), .inl (by omega)⟩
  · rw [if_neg hquote] at hrun
    cases hline : startsLine b[i] b[i + 1]? with
    | true =>
      rw [if_pos hline] at hrun
      have hsame := step_lineComment_of_starts hquote hline
      exact ⟨_, _, _, hrun, outcome_congr hi hsame.symm, .inr ⟨rfl, by decide⟩⟩
    | false =>
      rw [if_neg (by simp [hline])] at hrun
      cases hblock : startsBlock b[i] b[i + 1]? with
      | true =>
        rw [if_pos hblock] at hrun
        have hsame := step_blockComment_of_starts hquote hline hblock
        exact ⟨_, _, _, hrun, outcome_congr hi hsame.symm, .inr ⟨rfl, by decide⟩⟩
      | false =>
        rw [if_neg (by simp [hblock])] at hrun
        refine ⟨_, _, _, hrun, outcome_keep hi ?_, .inl (by omega)⟩
        simp [Mode.step, hquote, hline, hblock]

/-- An iteration of the loop through quotes. -/
lemma iterates_quoted {quote : UInt8} (hi : i < n) :
    ∃ loop b' i', Iterates (.quoted quote) loop b b' i i' := by
  have hrun := maskLoop?.eq_def (.quoted quote) b i
  simp only [dif_pos hi, getElem?_of_lt hi, Option.bind_eq_bind, Option.bind_some] at hrun
  by_cases hclose : b[i] = quote ∨ b[i] = byte '\n'
  · rw [if_pos hclose] at hrun
    exact ⟨_, _, _, hrun, outcome_keep hi (by simp [Mode.step, hclose]), .inl (by omega)⟩
  · rw [if_neg hclose] at hrun
    by_cases hescape : b[i] = byte '\\'
    · rw [if_pos hescape] at hrun
      exact ⟨_, _, _, hrun, outcome_escape hi hclose hescape, .inl (by omega)⟩
    · rw [if_neg hescape] at hrun
      refine ⟨_, _, _, hrun, outcome_keep hi ?_, .inl (by omega)⟩
      simp only [Loop.mode, Mode.step, if_neg hclose, if_neg hescape]

/-- An iteration of the loop through a comment to the end of the line. -/
lemma iterates_lineComment (hi : i < n) :
    ∃ loop b' i', Iterates .lineComment loop b b' i i' := by
  have hrun := maskLoop?.eq_def .lineComment b i
  simp only [dif_pos hi, getElem?_of_lt hi, blankAt?_of_lt hi, Option.bind_eq_bind,
    Option.bind_some] at hrun
  by_cases hbreak : b[i] = byte '\n'
  · rw [if_pos hbreak] at hrun
    refine ⟨_, _, _, hrun, outcome_keep hi ?_, .inl (by omega)⟩
    simp [Mode.step, blank, hbreak]
  · rw [if_neg hbreak] at hrun
    refine ⟨_, _, _, hrun, outcome_step hi ?_, .inl (by omega)⟩
    simp [Mode.step, blank, hbreak]

/-- An iteration of the loop through a block comment. -/
lemma iterates_blockComment (hi : i < n) :
    ∃ loop b' i', Iterates .blockComment loop b b' i i' := by
  have hrun := maskLoop?.eq_def .blockComment b i
  simp only [dif_pos hi, getElem?_of_lt hi, blankAt?_of_lt hi, endsBlockAt?_eq,
    Option.bind_eq_bind, Option.bind_some] at hrun
  by_cases hclose : b[i] = byte '*' ∧ b[i + 1]? = some (byte '/')
  · obtain ⟨hstar, hslash⟩ := hclose
    have hnext : i + 1 < n := (Vector.getElem?_eq_some_iff.mp hslash).1
    rw [if_pos (by simp [hstar, hslash]), blankAt?_of_lt hnext, Option.bind_some] at hrun
    exact ⟨_, _, _, hrun, outcome_closeBlock hnext hstar hslash, .inl (by omega)⟩
  · rw [if_neg (by simpa using hclose)] at hrun
    by_cases hbreak : b[i] = byte '\n'
    · rw [if_pos hbreak] at hrun
      refine ⟨_, _, _, hrun, outcome_keep hi ?_, .inl (by omega)⟩
      simp only [Loop.mode, Mode.step, if_neg hclose, blank, if_pos hbreak]
    · rw [if_neg hbreak] at hrun
      refine ⟨_, _, _, hrun, outcome_step hi ?_, .inl (by omega)⟩
      simp only [Loop.mode, Mode.step, if_neg hclose, blank, if_neg hbreak]

end Iterations

/-- **The loops mask a buffer**, and no access fails.

**Proof sketch.** By induction on what is left of the buffer. An iteration of any loop comes to the
same as the run that it goes on with. -/
theorem maskLoop?_eq (loop : Loop) (b : Vector UInt8 n) (i : Nat) :
    (maskLoop? loop b i).map Vector.toList = some (outcome loop.mode b i) := by
  by_cases hi : i < n
  · have hiterates : ∃ loop' b' i', Iterates loop loop' b b' i i' := by
      cases loop with
      | code => exact iterates_code hi
      | quoted quote => exact iterates_quoted hi
      | lineComment => exact iterates_lineComment hi
      | blockComment => exact iterates_blockComment hi
    obtain ⟨loop', b', i', hrun, houtcome, hcloser⟩ := hiterates
    rw [hrun, houtcome]
    exact maskLoop?_eq loop' b' i'
  · have hi : n ≤ i := by omega
    rw [maskLoop?.eq_def, dif_neg (by omega), Option.map_some, outcome_of_le _ hi]
termination_by (n - i, loop.rank)
decreasing_by
  simp only [Prod.lex_def]
  omega

/-- Masking in place never fails and comes to the masked text. -/
lemma maskInPlace?_eq (s : Bytes) : maskInPlace? s = some (mask s) := by
  rw [maskInPlace?, maskLoop?_eq, outcome]
  rfl

/-- **Masking keeps the layout, and masked text stays as it is.** Masking in place makes no access
beyond the end of the buffer and comes to the masked text. This has the length of the source and the
same line breaks, differs from it only where it has a space, and stays as it is if it is masked
again. -/
theorem mask_keeps_layout (s : Bytes) :
    maskInPlace? s = some (mask s) ∧ (mask s).length = s.length ∧
      (∀ i : Nat, (mask s)[i]? = some (byte '\n') ↔ s[i]? = some (byte '\n')) ∧
      (∀ i : Nat, (mask s)[i]? = s[i]? ∨ (mask s)[i]? = some (byte ' ')) ∧
      mask (mask s) = mask s := by
  refine ⟨maskInPlace?_eq s, length_mask s, ?_, ?_, maskFrom_maskFrom .code s⟩
  · intro i
    rcases getElem?_mask s i with ⟨hsource, hmasked⟩ | ⟨b, c, hsource, hmasked, hblanked⟩
    · rw [hsource, hmasked]
    · rw [hsource, hmasked]
      rcases hblanked with rfl | ⟨rfl, hb⟩
      · rfl
      · have hspace : byte ' ' ≠ byte '\n' := by decide
        simp [hspace, hb]
  · intro i
    rcases getElem?_mask s i with ⟨hsource, hmasked⟩ | ⟨b, c, hsource, hmasked, hblanked⟩
    · left
      rw [hsource, hmasked]
    · rw [hsource, hmasked]
      rcases hblanked with rfl | ⟨rfl, -⟩
      · exact .inl rfl
      · exact .inr rfl

end LintPool.Source
