import LintPool.Proofs.Message
import LintPool.Proofs.Stream.Lines
import LintPool.Stream
import Mathlib

/-!
# Messages come out of a stream as they were sent

However the frames of some messages are cut into reads, a reader of the stream yields these messages
and then its end. The frame of a message holds no newline but its last byte, is not trimmed, and the
longest text that is ever sent still fits in the reader's buffer. A payload that would nest too
deeply inside of its message is not sent in the first place.

## Main results

* `LintPool.Stream.decode_eq` : what a stream holds does not depend on its reads.
* `LintPool.Stream.decode_frames` : messages come out of a stream as they were sent.
-/

namespace LintPool.Stream

section Lines

variable {m : Message} {text frame : Bytes}

/-- **What a stream holds does not depend on its reads**: they are the messages of the lines before
the first one that is too long. -/
theorem decode_eq (s : Bytes) (ending : Ending) (cuts : List Nat) :
    decode s ending cuts =
      decodeLines
        (if (Bytes.lines s).any (maxSize < ·.length) then some .tooLarge else ending.error?) []
        ((Bytes.lines s).takeWhile (·.length ≤ maxSize)) := by
  rw [decode, LineBuffer.scan_eq, flatten_pieces]
  simp only [scanned, emptyBuffer, List.nil_append, List.reverse_nil, Nat.lt_add_one_iff,
    Nat.add_one_le_iff]

/-- A stream whose lines all fit holds the messages of its lines. -/
lemma decode_of_fit {s : Bytes} (hfit : ∀ line ∈ Bytes.lines s, line.length ≤ maxSize)
    (ending : Ending) (cuts : List Nat) :
    decode s ending cuts = decodeLines ending.error? [] (Bytes.lines s) := by
  have hall : (Bytes.lines s).takeWhile (·.length ≤ maxSize) = Bytes.lines s :=
    List.takeWhile_eq_self_iff.mpr fun line hline => decide_eq_true (hfit line hline)
  have hlong : (Bytes.lines s).any (maxSize < ·.length) = false :=
    List.any_eq_false.mpr fun line hline => by simpa using hfit line hline
  rw [decode_eq, hall, hlong]
  rfl

/-- The frame of a message is its text and a newline. -/
lemma text_of_encode (h : encode m = .ok frame) :
    ∃ text, m.print = .ok text ∧ text.length ≤ maxSize ∧ frame = text ++ [byte '\n'] := by
  unfold encode at h
  split at h
  · cases h
  · rename_i text htext
    split at h
    · cases h
    · rename_i hlength
      exact ⟨text, htext, Nat.not_lt.mp hlength, (Except.ok.inj h).symm⟩

/-- A text in braces ends with no carriage return. -/
lemma dropReturn_braces (s : Bytes) :
    dropReturn (byte '{' :: (s ++ [byte '}'])) = byte '{' :: (s ++ [byte '}']) := by
  have hlast : (byte '{' :: (s ++ [byte '}'])).getLast? = some (byte '}') := by
    rw [← List.cons_append, List.getLast?_concat]
  rw [dropReturn, hlast, if_neg (by decide)]

/-- A line that holds the text of a message holds what is read off this text. -/
lemma decodeLine_text (htext : m.print = .ok text) :
    decodeLine text = some ((Message.parse text).mapError .malformed) := by
  obtain ⟨⟨s, rfl⟩, -⟩ := Message.text_of_print htext
  rw [decodeLine, dropReturn_braces, Blank.trim_braces]
  cases Message.parse (byte '{' :: (s ++ [byte '}'])) <;> rfl

/-- A line that holds the text of a message holds this message. -/
lemma decodeLine_of_print (hm : m.Conforms) (htext : m.print = .ok text) :
    decodeLine text = some (.ok m) := by
  rw [decodeLine_text htext, Message.parse_print hm htext]
  rfl

end Lines

section Frames

variable {ms : List Message} {frames texts : List Bytes}

/-- The frames of some texts. -/
def framesOf (texts : List Bytes) : List Bytes := texts.map (· ++ [byte '\n'])

/-- The bytes of some frames. -/
lemma flatten_framesOf_cons (text : Bytes) (texts : List Bytes) :
    (framesOf (text :: texts)).flatten = text ++ byte '\n' :: (framesOf texts).flatten := by
  rw [framesOf, List.map_cons, List.flatten_cons, List.append_assoc, List.singleton_append]
  rfl

/-- The frames of some messages are those of their texts. -/
lemma texts_of_frames (hframes : ms.map encode = frames.map .ok) :
    ∃ texts, ms.map Message.print = texts.map .ok ∧ (∀ text ∈ texts, text.length ≤ maxSize) ∧
      frames = framesOf texts := by
  induction ms generalizing frames with
  | nil =>
    obtain rfl := List.map_eq_nil_iff.mp hframes.symm
    exact ⟨[], rfl, nofun, rfl⟩
  | cons m ms ih =>
    obtain ⟨frame, frames, rfl, hframe, hrest⟩ := List.map_eq_cons_iff.mp hframes.symm
    obtain ⟨text, htext, hlength, rfl⟩ := text_of_encode hframe.symm
    obtain ⟨texts, htexts, hlengths, rfl⟩ := ih hrest.symm
    refine ⟨text :: texts, ?_, List.forall_mem_cons.mpr ⟨hlength, hlengths⟩, rfl⟩
    rw [List.map_cons, List.map_cons, htext, htexts]

/-- The texts of some messages are lines, and not empty. -/
lemma newline_notMem_texts (htexts : ms.map Message.print = texts.map .ok) :
    ∀ text ∈ texts, byte '\n' ∉ text ∧ text ≠ [] := by
  intro text htext
  obtain ⟨m, hm, hprint⟩ := List.mem_map.mp (htexts ▸ List.mem_map_of_mem htext)
  obtain ⟨⟨s, rfl⟩, hcontrol⟩ := Message.text_of_print hprint
  exact ⟨fun hmem => absurd (hcontrol _ hmem) (by decide), List.cons_ne_nil _ _⟩

/-- The lines of some frames are the texts in them; the lines of what follows come after. -/
lemma lines_framesOf_append (htexts : ∀ text ∈ texts, byte '\n' ∉ text) (s : Bytes) :
    Bytes.lines ((framesOf texts).flatten ++ s) = texts ++ Bytes.lines s := by
  induction texts with
  | nil => rfl
  | cons text texts ih =>
    obtain ⟨hnewline, htexts⟩ := List.forall_mem_cons.mp htexts
    rw [flatten_framesOf_cons, List.append_assoc, List.cons_append, Bytes.lines_append hnewline,
      ih htexts, List.cons_append]

/-- The lines of some frames are the texts in them. -/
lemma lines_framesOf (htexts : ∀ text ∈ texts, byte '\n' ∉ text) :
    Bytes.lines (framesOf texts).flatten = texts := by
  have hlines := lines_framesOf_append htexts []
  have hnil : Bytes.lines [] = [] := rfl
  rwa [hnil, List.append_nil, List.append_nil] at hlines

/-- **The frame of a message holds what is read off its text.** -/
lemma decode_frame {m m' : Message} {text : Bytes} (htext : m.print = .ok text)
    (hlength : text.length ≤ maxSize) (cuts : List Nat) :
    decode (text ++ [byte '\n']) .closed cuts = { messages := [m'], error := none } ↔
      Message.parse text = .ok m' := by
  have htexts : [m].map Message.print = [text].map .ok := congrArg (fun x => [x]) htext
  have hnewline := newline_notMem_texts htexts
  have hlines : Bytes.lines (text ++ [byte '\n']) = [text] := by
    have hframe := lines_framesOf fun t ht => (hnewline t ht).1
    rwa [framesOf, List.map_singleton, List.flatten_singleton] at hframe
  have hfit : ∀ line ∈ Bytes.lines (text ++ [byte '\n']), line.length ≤ maxSize := by
    rw [hlines]
    exact List.forall_mem_singleton.mpr hlength
  rw [decode_of_fit hfit, hlines, decodeLines, decodeLine_text htext]
  cases Message.parse text with
  | error e => exact ⟨nofun, nofun⟩
  | ok m =>
    constructor
    · intro h
      cases h
      rfl
    · intro h
      cases h
      rfl

/-- Lines that start with the texts of some messages hold these messages first. -/
lemma decodeLines_append (htexts : ms.map Message.print = texts.map .ok)
    (hms : ∀ m ∈ ms, m.Conforms) (last : Option StreamError)
    (acc : List Message) (lines : List Bytes) :
    decodeLines last acc (texts ++ lines) = decodeLines last (ms.reverse ++ acc) lines := by
  induction ms generalizing texts acc with
  | nil =>
    obtain rfl := List.map_eq_nil_iff.mp htexts.symm
    rfl
  | cons m ms ih =>
    obtain ⟨text, texts, rfl, htext, hrest⟩ := List.map_eq_cons_iff.mp htexts.symm
    obtain ⟨hm, hms⟩ := List.forall_mem_cons.mp hms
    rw [List.cons_append, decodeLines, decodeLine_of_print hm htext.symm]
    simp only
    rw [ih hrest.symm hms, List.reverse_cons, List.append_assoc, List.singleton_append]

/-- Lines that hold the texts of some messages hold these messages. -/
lemma decodeLines_print (htexts : ms.map Message.print = texts.map .ok)
    (hms : ∀ m ∈ ms, m.Conforms) (last : Option StreamError) (acc : List Message) :
    decodeLines last acc texts = { messages := acc.reverse ++ ms, error := last } := by
  have hlines := decodeLines_append htexts hms last acc []
  rw [List.append_nil] at hlines
  rw [hlines, decodeLines, List.reverse_append, List.reverse_reverse]

/-- A stream that starts with the frames of some messages holds these messages first. -/
lemma decode_frames_append (hframes : ms.map encode = frames.map .ok)
    (hms : ∀ m ∈ ms, m.Conforms) {s : Bytes}
    (hfit : ∀ line ∈ Bytes.lines s, line.length ≤ maxSize) (ending : Ending) (cuts : List Nat) :
    decode (frames.flatten ++ s) ending cuts =
      decodeLines ending.error? ms.reverse (Bytes.lines s) := by
  obtain ⟨texts, htexts, hlengths, rfl⟩ := texts_of_frames hframes
  have hlines : Bytes.lines ((framesOf texts).flatten ++ s) = texts ++ Bytes.lines s :=
    lines_framesOf_append (fun text htext => (newline_notMem_texts htexts text htext).1) s
  have hall : ∀ line ∈ Bytes.lines ((framesOf texts).flatten ++ s), line.length ≤ maxSize := by
    rw [hlines]
    exact List.forall_mem_append.mpr ⟨hlengths, hfit⟩
  rw [decode_of_fit hall, hlines, decodeLines_append htexts hms, List.append_nil]

/-- **Messages come out of a stream as they were sent.** However the frames of some messages are cut
into reads, the reader yields these messages in order and then the end of the stream. -/
theorem decode_frames (hframes : ms.map encode = frames.map .ok) (hms : ∀ m ∈ ms, m.Conforms)
    (cuts : List Nat) :
    decode frames.flatten .closed cuts = { messages := ms, error := none } ∧
      ∀ n, (decode frames.flatten .closed cuts).answer n =
        (ms[n]?.map Answer.message).getD .eof := by
  have hdecode : decode frames.flatten .closed cuts = { messages := ms, error := none } := by
    have hnil : Bytes.lines [] = [] := rfl
    have hfit : ∀ line ∈ Bytes.lines [], line.length ≤ maxSize := hnil ▸ List.forall_mem_nil _
    have happend := decode_frames_append hframes hms hfit .closed cuts
    rw [List.append_nil, hnil, decodeLines, List.reverse_reverse] at happend
    exact happend
  refine ⟨hdecode, fun n => ?_⟩
  rw [hdecode, Decoded.answer, Decoded.yields, Option.map_none, Option.toList_none,
    List.append_nil, List.getD_eq_getElem?_getD, List.getElem?_map]

end Frames

/-- A few messages, among them a bare failure and an action that is not known. -/
def sample : List Message :=
  [.hello (utf8 "w<1"), .result { errors := [.failure (utf8 "no")], internal := 1 },
    .unknown (utf8 "ping") (utf8 "[1]")]

/-- Their frames. -/
def sampleFrames : List Bytes :=
  [utf8 "\x7b\"action\":\"hello\",\"payload\":\x7b\"identifier\":\"w\\u003c1\"\x7d\x7d\n",
    utf8 ("\x7b\"action\":\"result\",\"payload\":\x7b\"errors\":[\"no\"],\"filesCount\":0," ++
      "\"internalErrorsCount\":1,\"hasInferrablePropertyTypesFromConstructor\":false\x7d\x7d\n"),
    utf8 "\x7b\"action\":\"ping\",\"payload\":[1]\x7d\n"]

set_option maxRecDepth 4000 in
/-- These messages are sent in these frames. -/
lemma encode_sample : sample.map encode = sampleFrames.map .ok := by cbv

/-- The payload of the unknown action. -/
lemma parse?_samplePayload : Json.parse? (utf8 "[1]") = some (.array [.int 1]) := by cbv

/-- These messages follow the schema. -/
lemma conforms_sample : ∀ m ∈ sample, m.Conforms := by
  have hcompact : Json.IsCompact (utf8 "[1]") := ⟨_, parse?_samplePayload, by cbv⟩
  simp only [sample, List.forall_mem_cons, List.not_mem_nil, false_implies, implies_true,
    and_true, Message.Conforms, Diagnostic.IsText]
  exact ⟨by decide +kernel, by decide +kernel, by decide +kernel, hcompact⟩

/-- These messages come out of a stream of short reads. -/
theorem decode_sampleFrames :
    sample.map encode = sampleFrames.map .ok ∧
      decode sampleFrames.flatten .closed [1, 40, 3] = { messages := sample, error := none } :=
  ⟨encode_sample, (decode_frames encode_sample conforms_sample [1, 40, 3]).1⟩

end LintPool.Stream
