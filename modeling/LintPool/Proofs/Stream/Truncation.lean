import LintPool.Proofs.Json.Cut
import LintPool.Proofs.Stream.RoundTrip
import Mathlib

/-!
# A stream that breaks off

A worker that is killed in the middle of a write leaves a stream that breaks off anywhere. Its
reader yields the messages whose text came in whole, be it without the newline, and then reports one
malformed message if there is the beginning of another. It never takes such a beginning for a
message: the text of a message is an object, and an object that is cut off cannot be read.

## Main definitions

* `LintPool.Stream.arrived` : the number of frames that came in with the first bytes of a stream.
* `LintPool.Stream.Begun` : whether something of the next frame came in with them.
* `LintPool.Stream.fragment` : what came in of it.

## Main results

* `LintPool.Stream.decodeLine_cut` : the beginning of a message is malformed.
* `LintPool.Stream.decode_take_frames` : what a stream that breaks off holds.
-/

namespace LintPool

/-! ## Trimming -/

namespace Blank

section Open

variable {blanks : List Bytes} {a : UInt8} {s rest : Bytes}

/-- A byte at the end that is in no white space is not dropped with what stands before it. -/
lemma dropOne?_concat (ha : ∀ blank ∈ blanks, a ∉ blank)
    (h : dropOne? blanks (s ++ [a]) = some rest) : ∃ t, rest = t ++ [a] ∧ t <:+ s := by
  obtain ⟨blank, hmem, hdrop⟩ := List.exists_of_findSome?_eq_some h
  rcases List.append_eq_append_iff.mp (Bytes.eq_append_of_dropPrefix? hdrop) with
    ⟨as, hblank, has⟩ | ⟨bs, hs, hrest⟩
  · cases as with
    | nil => exact ⟨[], has.symm, List.nil_suffix⟩
    | cons b as =>
      -- the byte would be in the white space
      obtain rfl : a = b := (List.cons.inj has).1
      exact absurd (by rw [hblank]; simp) (ha blank hmem)
  · exact ⟨bs, hrest, hs ▸ List.suffix_append blank bs⟩

/-- Trimming backwards stops at a brace. -/
lemma trimBackwards_brace (s : Bytes) :
    ∃ t, trimBackwards (s ++ [byte '{']) = t ++ [byte '{'] ∧ t <:+ s := by
  induction hn : s.length using Nat.strongRecOn generalizing s with
  | _ n ih =>
    rw [trimBackwards]
    split
    · rename_i rest hdrop
      have hbrace : ∀ blank ∈ encodingsBackwards, byte '{' ∉ blank := by decide
      have hlength := length_of_dropOne? nil_notMem_encodingsBackwards hdrop
      obtain ⟨t, rfl, ht⟩ := dropOne?_concat hbrace hdrop
      simp only [List.length_append, List.length_singleton] at hlength
      obtain ⟨t', htrim, ht'⟩ := ih t.length (by omega) t rfl
      exact ⟨t', htrim, ht'.trans ht⟩
    · exact ⟨s, rfl, List.suffix_refl s⟩

/-- A text that starts with a brace is trimmed behind it at most. -/
lemma trim_brace (s : Bytes) : ∃ t, trim (byte '{' :: s) = byte '{' :: t ∧ t <+: s := by
  obtain ⟨t, htrim, ht⟩ := trimBackwards_brace s.reverse
  refine ⟨t.reverse, ?_, ?_⟩
  · rw [trim, trimStart_brace, trimEnd, List.reverse_cons, htrim, List.reverse_append,
      List.reverse_singleton, List.singleton_append]
  · rw [← List.reverse_suffix, List.reverse_reverse]
    exact ht

end Open

end Blank

namespace Stream

/-! ## The beginning of a message -/

section Beginning

variable {m : Message} {text : Bytes} {n : Nat}

/-- The text of a message can be read as JSON, up to its end. -/
lemma read?_of_print (htext : m.print = .ok text) : ∃ v, Json.read? text = some (v, []) := by
  obtain ⟨payload, -, hfits, rfl⟩ := Message.of_print htext
  exact ⟨_, (Message.fits_envelope m.action hfits).read?_print⟩

/-- A text that starts an object but cannot be read as JSON is no message. -/
lemma parse_unreadable {s : Bytes} (hread : Json.read? (byte '{' :: s) = none) :
    Message.parse (byte '{' :: s) = .error (.envelope (.malformed (byte '{' :: s))) := by
  rw [Message.parse, Message.readStrict, hread, Blank.trimStart_brace]
  rfl

/-- A line without control characters ends with no carriage return. -/
lemma dropReturn_of_le {line : Bytes} (h : ∀ a ∈ line, 0x20 ≤ a) : dropReturn line = line := by
  rw [dropReturn, if_neg]
  intro hlast
  have hle := h _ (List.mem_of_getLast? hlast)
  exact absurd hle (by decide)

/-- **The beginning of a message is malformed.**

**Proof sketch.** The text of the message is an object. What is left of it when it is cut off, and
trimmed where the cut went through a string, starts with the brace but is not the whole object, so
that it cannot be read. -/
lemma decodeLine_cut (htext : m.print = .ok text) (hpos : 0 < n) (hn : n < text.length) :
    decodeLine (text.take n) =
      some (.error (.malformed (.envelope (.malformed (Blank.trim (text.take n)))))) := by
  obtain ⟨v, hread⟩ := read?_of_print htext
  obtain ⟨⟨s, rfl⟩, hcontrol⟩ := Message.text_of_print htext
  obtain ⟨k, rfl⟩ : ∃ k, n = k + 1 := ⟨n - 1, by omega⟩
  generalize s ++ [byte '}'] = s at hread hcontrol hn ⊢
  rw [List.length_cons] at hn
  have hreturn : dropReturn (byte '{' :: s.take k) = byte '{' :: s.take k := by
    refine dropReturn_of_le fun a ha => hcontrol a ?_
    exact List.mem_of_mem_take (i := k + 1) ha
  obtain ⟨t, htrim, w, hw⟩ := Blank.trim_brace (s.take k)
  have hcut : Json.read? (byte '{' :: t) = none := by
    have hs : s = t ++ (w ++ s.drop k) := by
      rw [← List.append_assoc, hw, List.take_append_drop]
    rw [hs] at hread
    refine Json.read?_eq_none_of_cut hread fun hnil => ?_
    have hdrop := (List.append_eq_nil_iff.mp hnil).2
    rw [List.drop_eq_nil_iff] at hdrop
    omega
  rw [List.take_succ_cons, decodeLine, hreturn, htrim, parse_unreadable hcut]
  rfl

end Beginning

/-! ## Frames that came in -/

/-- The number of frames that came in with the first `n` bytes of a stream: as many as lie inside of
them, but perhaps for the newline at the end. -/
def arrived (frames : List Bytes) (n : Nat) : Nat :=
  Nat.findGreatest (fun k => (frames.take k).flatten.length ≤ n + 1) frames.length

/-- Whether the beginning of another frame came in with the first `n` bytes of a stream. -/
def Begun (frames : List Bytes) (n : Nat) : Prop :=
  (frames.take (arrived frames n)).flatten.length < (frames.flatten.take n).length

instance (frames : List Bytes) (n : Nat) : Decidable (Begun frames n) :=
  inferInstanceAs (Decidable (_ < _))

/-- The beginning of another frame that came in with the first `n` bytes of a stream. -/
def fragment (frames : List Bytes) (n : Nat) : Bytes :=
  (frames.flatten.take n).drop (frames.take (arrived frames n)).flatten.length

section Arrival

variable {frame : Bytes} {frames : List Bytes} {n : Nat}

/-- The frames that come in after the first one. -/
lemma length_take_cons (frame : Bytes) (frames : List Bytes) (k : Nat) :
    ((frame :: frames).take (k + 1)).flatten.length =
      frame.length + (frames.take k).flatten.length := by
  rw [List.take_succ_cons, List.flatten_cons, List.length_append]

/-- No frame came in if the first one did not. -/
lemma arrived_eq_zero (h : n + 1 < frame.length) : arrived (frame :: frames) n = 0 := by
  rw [arrived, Nat.findGreatest_eq_zero_iff]
  intro k hk _
  obtain ⟨k, rfl⟩ := Nat.exists_eq_succ_of_ne_zero (Nat.pos_iff_ne_zero.mp hk)
  rw [length_take_cons]
  omega

/-- One frame came in if nothing follows it, not even its newline. -/
lemma arrived_eq_one (h : n + 1 = frame.length) (hframes : ∀ f ∈ frames, f ≠ []) :
    arrived (frame :: frames) n = 1 := by
  rw [arrived, Nat.findGreatest_eq_iff]
  refine ⟨by simp, fun _ => by simp [h], fun k hk hle => ?_⟩
  obtain ⟨k, rfl⟩ := Nat.exists_eq_add_of_le hk
  obtain ⟨next, frames, rfl⟩ : ∃ next rest, frames = next :: rest := by
    rw [← List.ne_nil_iff_exists_cons]
    rintro rfl
    rw [List.length_singleton] at hle
    omega
  have hpos := List.length_pos_iff.mpr (hframes next List.mem_cons_self)
  rw [show Nat.succ 1 + k = k + 1 + 1 by omega, length_take_cons, length_take_cons]
  omega

/-- A frame that lies inside of the first bytes came in before the others. -/
lemma arrived_cons (frame : Bytes) (frames : List Bytes) (n : Nat) :
    arrived (frame :: frames) (frame.length + n) = arrived frames n + 1 := by
  obtain ⟨hle, hfits, hmax⟩ := (Nat.findGreatest_eq_iff (m := arrived frames n)).mp rfl
  rw [arrived, Nat.findGreatest_eq_iff]
  refine ⟨Nat.succ_le_succ hle, fun _ => ?_, fun k hk hk' => ?_⟩
  · rw [length_take_cons]
    by_cases hzero : arrived frames n = 0
    · rw [hzero]
      simp
      omega
    · have := hfits hzero
      omega
  · obtain ⟨k, rfl⟩ := Nat.exists_eq_succ_of_ne_zero (by omega : k ≠ 0)
    have := hmax (Nat.lt_of_succ_lt_succ hk) (Nat.le_of_succ_le_succ hk')
    rw [length_take_cons]
    omega

/-- The same frame is begun after a frame that came in. -/
lemma begun_cons_iff (frame : Bytes) (frames : List Bytes) (n : Nat) :
    Begun (frame :: frames) (frame.length + n) ↔ Begun frames n := by
  rw [Begun, Begun, arrived_cons, length_take_cons, List.flatten_cons, List.take_length_add_append,
    List.length_append]
  omega

/-- The same has come in of it. -/
lemma fragment_cons (frame : Bytes) (frames : List Bytes) (n : Nat) :
    fragment (frame :: frames) (frame.length + n) = fragment frames n := by
  rw [fragment, fragment, arrived_cons, length_take_cons, List.flatten_cons,
    List.take_length_add_append, List.drop_length_add_append]

end Arrival

section Lines

variable {text : Bytes} {texts : List Bytes} {n : Nat}

/-- A stream that breaks off in its first text. -/
lemma begun_framesOf_of_lt (hn : n < text.length) (texts : List Bytes) :
    arrived (framesOf (text :: texts)) n = 0 ∧
      (Begun (framesOf (text :: texts)) n ↔ 0 < n) ∧
      (framesOf (text :: texts)).flatten.take n = text.take n := by
  have harrived : arrived (framesOf (text :: texts)) n = 0 := arrived_eq_zero (by simpa using hn)
  have htake : (framesOf (text :: texts)).flatten.take n = text.take n := by
    rw [flatten_framesOf_cons, List.take_append_of_le_length (Nat.le_of_lt hn)]
  refine ⟨harrived, ?_, htake⟩
  rw [Begun, harrived, htake, List.length_take, Nat.min_eq_left (Nat.le_of_lt hn)]
  rfl

/-- A stream that breaks off before its first newline. -/
lemma begun_framesOf_of_eq (hn : n = text.length) (texts : List Bytes) :
    arrived (framesOf (text :: texts)) n = 1 ∧ ¬ Begun (framesOf (text :: texts)) n ∧
      (framesOf (text :: texts)).flatten.take n = text := by
  have harrived : arrived (framesOf (text :: texts)) n = 1 := by
    refine arrived_eq_one (by simp [hn]) fun frame hframe => ?_
    obtain ⟨t, -, rfl⟩ := List.mem_map.mp hframe
    simp
  have htake : (framesOf (text :: texts)).flatten.take n = text := by
    rw [flatten_framesOf_cons, hn, List.take_left]
  refine ⟨harrived, ?_, htake⟩
  rw [Begun, harrived, htake]
  simp [framesOf]

/-- **The lines of a stream that breaks off** are the texts of the frames that came in, and the
beginning of the next text if there is one.

**Proof sketch.** By induction on the texts: the stream breaks off in the first text, before its
newline or after it. -/
lemma lines_take_framesOf (htexts : ∀ text ∈ texts, byte '\n' ∉ text ∧ text ≠ []) (n : Nat) :
    (¬ Begun (framesOf texts) n ∧
        Bytes.lines ((framesOf texts).flatten.take n) =
          texts.take (arrived (framesOf texts) n)) ∨
      (Begun (framesOf texts) n ∧ ∃ text ∈ texts, ∃ j, 0 < j ∧ j < text.length ∧
        fragment (framesOf texts) n = text.take j ∧
        Bytes.lines ((framesOf texts).flatten.take n) =
          texts.take (arrived (framesOf texts) n) ++ [text.take j]) := by
  induction texts generalizing n with
  | nil =>
    refine .inl ⟨by simp [framesOf, Begun], ?_⟩
    rw [List.take_nil]
    exact congrArg Bytes.lines List.take_nil
  | cons text texts ih =>
    obtain ⟨⟨hnewline, hne⟩, htexts⟩ := List.forall_mem_cons.mp htexts
    rcases Nat.lt_trichotomy n text.length with hlt | heq | hgt
    · obtain ⟨harrived, hbegun, htake⟩ := begun_framesOf_of_lt hlt texts
      have hmem : byte '\n' ∉ text.take n := fun h => hnewline (List.mem_of_mem_take h)
      rw [hbegun, harrived, htake, Bytes.lines_of_notMem hmem, List.take_zero]
      cases n with
      | zero => exact .inl ⟨Nat.not_lt_zero 0, rfl⟩
      | succ n =>
        refine .inr ⟨Nat.succ_pos n, text, List.mem_cons_self, n + 1, Nat.succ_pos n, hlt, ?_, ?_⟩
        · rw [fragment, harrived, htake]
          rfl
        · obtain ⟨a, s, rfl⟩ := List.ne_nil_iff_exists_cons.mp hne
          rfl
    · obtain ⟨harrived, hbegun, htake⟩ := begun_framesOf_of_eq heq texts
      refine .inl ⟨hbegun, ?_⟩
      rw [harrived, htake, Bytes.lines_of_notMem hnewline]
      obtain ⟨a, s, rfl⟩ := List.ne_nil_iff_exists_cons.mp hne
      rfl
    · -- the first frame came in with its newline
      obtain ⟨n, rfl⟩ := Nat.exists_eq_add_of_le hgt
      have hlength : text.length.succ + n = (text ++ [byte '\n']).length + n := by simp
      have hlines : Bytes.lines ((framesOf (text :: texts)).flatten.take (text.length.succ + n)) =
          text :: Bytes.lines ((framesOf texts).flatten.take n) := by
        rw [hlength, framesOf, List.map_cons, List.flatten_cons, List.take_length_add_append,
          List.append_assoc, List.singleton_append, Bytes.lines_append hnewline]
        rfl
      have harrived : arrived (framesOf (text :: texts)) (text.length.succ + n) =
          arrived (framesOf texts) n + 1 := by
        rw [hlength]
        exact arrived_cons _ _ n
      have hbegun : Begun (framesOf (text :: texts)) (text.length.succ + n) ↔
          Begun (framesOf texts) n := by
        rw [hlength]
        exact begun_cons_iff _ _ n
      have hfragment : fragment (framesOf (text :: texts)) (text.length.succ + n) =
          fragment (framesOf texts) n := by
        rw [hlength]
        exact fragment_cons _ _ n
      rw [hlines, harrived, hbegun, hfragment, List.take_succ_cons]
      rcases ih htexts n with ⟨hnot, hih⟩ | ⟨hsome, t, ht, j, hj, hj', hcut, hih⟩
      · exact .inl ⟨hnot, by rw [hih]⟩
      · exact .inr ⟨hsome, t, List.mem_cons_of_mem _ ht, j, hj, hj', hcut, by rw [hih]; rfl⟩

end Lines

/-- The error of a stream that breaks off in the middle of a frame. -/
def fragmentError (frames : List Bytes) (n : Nat) : StreamError :=
  .malformed (.envelope (.malformed (Blank.trim (fragment frames n))))

section Frames

variable {ms : List Message} {frames : List Bytes}

/-- **What a stream that breaks off holds.** If the frames of some messages break off after any
number of bytes, the reader yields the messages that came in, in order. Then comes one malformed
message if there is the beginning of another frame, and the end of the stream. -/
theorem decode_take_frames (hframes : ms.map encode = frames.map .ok)
    (hms : ∀ m ∈ ms, m.Conforms) (n : Nat) (cuts : List Nat) :
    decode (frames.flatten.take n) .closed cuts =
        { messages := ms.take (arrived frames n)
          error := if Begun frames n then some (fragmentError frames n) else none } ∧
      ∀ i, (decode (frames.flatten.take n) .closed cuts).answer i =
        ((ms.take (arrived frames n)).map Answer.message ++
          if Begun frames n then [Answer.error (fragmentError frames n)] else []).getD i .eof := by
  have hdecode : decode (frames.flatten.take n) .closed cuts =
      { messages := ms.take (arrived frames n)
        error := if Begun frames n then some (fragmentError frames n) else none } := by
    obtain ⟨texts, htexts, hlengths, rfl⟩ := texts_of_frames hframes
    have hlines := lines_take_framesOf (newline_notMem_texts htexts) n
    unfold fragmentError
    generalize arrived (framesOf texts) n = k at hlines ⊢
    have htake : (ms.take k).map Message.print = (texts.take k).map .ok := by
      rw [List.map_take, List.map_take, htexts]
    have hms' : ∀ m ∈ ms.take k, m.Conforms := fun m hm => hms m (List.mem_of_mem_take hm)
    have hlengths' : ∀ text ∈ texts.take k, text.length ≤ maxSize := fun text htext =>
      hlengths text (List.mem_of_mem_take htext)
    rcases hlines with ⟨hbegun, hlines⟩ | ⟨hbegun, text, htext, j, hj, hj', hfragment, hlines⟩
    · rw [decode_of_fit (hlines ▸ hlengths'), hlines, if_neg hbegun]
      exact decodeLines_print htake hms' none []
    · obtain ⟨m, hm, hprint⟩ := List.mem_map.mp (htexts ▸ List.mem_map_of_mem htext)
      have hcut : (text.take j).length ≤ maxSize :=
        Nat.le_trans (List.length_take_le' j text) (hlengths text htext)
      have hfit := List.forall_mem_append.mpr ⟨hlengths', List.forall_mem_singleton.mpr hcut⟩
      rw [decode_of_fit (hlines ▸ hfit), hlines, if_pos hbegun, decodeLines_append htake hms',
        decodeLines, decodeLine_cut hprint hj hj', hfragment]
      simp only [List.append_nil, List.reverse_reverse]
  refine ⟨hdecode, fun i => ?_⟩
  rw [hdecode, Decoded.answer, Decoded.yields]
  split
  · rfl
  · rfl

end Frames

/-- A stream that breaks off in its second frame, and one that lacks its last newline. -/
theorem decode_take_sampleFrames :
    (sample.map encode = sampleFrames.map .ok ∧
        decode (sampleFrames.flatten.take 100) .closed [7] =
          { messages := sample.take 1, error := some (fragmentError sampleFrames 100) }) ∧
      decode (sampleFrames.flatten.take (sampleFrames.flatten.length - 1)) .closed =
        { messages := sample, error := none } := by
  have htake := decode_take_frames encode_sample conforms_sample
  have hcut : (arrived sampleFrames 100 = 1 ∧ Begun sampleFrames 100) ∧
      arrived sampleFrames (sampleFrames.flatten.length - 1) = 3 ∧
        ¬ Begun sampleFrames (sampleFrames.flatten.length - 1) := by decide +kernel
  obtain ⟨⟨hone, hbegun⟩, hall, hwhole⟩ := hcut
  refine ⟨⟨encode_sample, ?_⟩, ?_⟩
  · rw [(htake 100 [7]).1, hone, if_pos hbegun]
  · rw [(htake _ []).1, hall, if_neg hwhole]
    rfl

end Stream

end LintPool
