import LintPool.Proofs.Stream.RoundTrip

/-!
# What arrives of a message

A path, or a text that an analyzer reports, need not be valid text, but a message carries valid text
only: damaged bytes are mended on the way. What arrives of a batch of files so are the mended paths,
and what arrives of a result is the result with its diagnostics mended. Nothing arrives of a message
that is too long or not understood.

## Main definitions

* `LintPool.Stream.carry?` : what arrives of a message.
* `LintPool.Stream.carryFiles?`, `LintPool.Stream.carryResult?` : what arrives of a batch of files,
  and of a result.

## Main results

* `LintPool.Stream.carry?_eq_some_iff` : when a message arrives.
* `LintPool.Stream.of_carryFiles?`, `LintPool.Stream.of_carryResult?` : what arrives is mended.
-/

namespace LintPool

namespace Stream

/-- What arrives of a message, if it is sent and understood, on a connection that is then closed.
The frame is read in pieces of the lengths `cuts`, and a last one. -/
def carry? (m : Message) (cuts : List Nat) : Option Message :=
  match encode m with
  | .error _ => none
  | .ok frame =>
    match decode frame .closed cuts with
    | { messages := [m'], error := none } => some m'
    | _ => none

section Carrying

variable {m m' : Message} {cuts : List Nat}

/-- A message arrives if its text fits and is understood. -/
lemma carry?_eq_some_iff :
    carry? m cuts = some m' ↔
      ∃ text, m.print = .ok text ∧ text.length ≤ maxSize ∧ Message.parse text = .ok m' := by
  constructor
  · intro h
    unfold carry? at h
    split at h
    · cases h
    · rename_i frame hframe
      obtain ⟨text, htext, hlength, rfl⟩ := text_of_encode hframe
      refine ⟨text, htext, hlength, ?_⟩
      split at h
      · rename_i hdecode
        obtain rfl := Option.some.inj h
        exact (decode_frame htext hlength cuts).mp hdecode
      · cases h
  · rintro ⟨text, htext, hlength, hparse⟩
    have hframe : encode m = .ok (text ++ [byte '\n']) := by
      rw [encode, htext]
      exact if_neg (Nat.not_lt.mpr hlength)
    rw [carry?, hframe]
    simp only [(decode_frame htext hlength cuts).mpr hparse]

/-- A message that is sent and understood arrives. -/
lemma carry?_of_encode (hsent : (encode m).toOption.isSome = true)
    (hparse : ∀ text, m.print = .ok text → Message.parse text = .ok m') :
    carry? m cuts = some m' := by
  cases hframe : encode m with
  | error e =>
    rw [hframe] at hsent
    cases hsent
  | ok frame =>
    obtain ⟨text, htext, hlength, -⟩ := text_of_encode hframe
    exact carry?_eq_some_iff.mpr ⟨text, htext, hlength, hparse text htext⟩

end Carrying

/-! ## Batches and results -/

/-- The paths that arrive of a batch of files. -/
def carryFiles? (files : List Bytes) (cuts : List Nat) : Option (List Bytes) :=
  match carry? (.analyse files) cuts with
  | some (.analyse arrived) => some arrived
  | _ => none

/-- What arrives of a result. -/
def carryResult? (r : Result) (cuts : List Nat) : Option Result :=
  match carry? (.result r) cuts with
  | some (.result heard) => some heard
  | _ => none

section Mending

variable {files arrived : List Bytes} {r heard : Result} {cuts : List Nat}

/-- **The paths that arrive are mended.** -/
theorem of_carryFiles? (h : carryFiles? files cuts = some arrived) :
    arrived = files.map Utf8.mend := by
  unfold carryFiles? at h
  split at h
  · rename_i harrived
    obtain rfl := Option.some.inj h
    obtain ⟨text, htext, -, hparse⟩ := carry?_eq_some_iff.mp harrived
    cases (Message.parse_analyse htext).1 _ hparse
    rfl
  · cases h

/-- **The diagnostics that arrive are mended.** -/
theorem of_carryResult? (h : carryResult? r cuts = some heard) : heard = r.mended := by
  unfold carryResult? at h
  split at h
  · rename_i hheard
    obtain rfl := Option.some.inj h
    obtain ⟨text, htext, -, hparse⟩ := carry?_eq_some_iff.mp hheard
    cases (Message.parse_result htext).1 _ hparse
    rfl
  · cases h

/-- A batch arrives if its frame is sent and no path is empty. -/
lemma carryFiles?_eq (hne : ∀ f ∈ files, f ≠ [])
    (hsent : (encode (.analyse files)).toOption.isSome = true) :
    carryFiles? files cuts = some (files.map Utf8.mend) := by
  have hcarry : carry? (.analyse files) cuts = some (.analyse (files.map Utf8.mend)) :=
    carry?_of_encode hsent fun _ htext => (Message.parse_analyse htext).2 hne
  rw [carryFiles?, hcarry]

/-- A result arrives if its frame is sent and its counts are not negative. -/
lemma carryResult?_eq (hcounts : 0 ≤ r.files ∧ 0 ≤ r.internal)
    (hsent : (encode (.result r)).toOption.isSome = true) :
    carryResult? r cuts = some r.mended := by
  have hcarry : carry? (.result r) cuts = some (.result r.mended) :=
    carry?_of_encode hsent fun _ htext => (Message.parse_result htext).2 hcounts
  rw [carryResult?, hcarry]

end Mending

end Stream

/-! ## A damaged path -/

/-- A path that is not valid text. -/
def damagedPath : Bytes := 0xFF :: utf8 ".php"

/-- This path is not valid. -/
lemma isValid_damagedPath : Utf8.isValid damagedPath = false := by decide +kernel

end LintPool
