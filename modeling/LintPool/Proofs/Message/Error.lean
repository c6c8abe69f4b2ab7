import LintPool.Proofs.Json.Quoted
import LintPool.Proofs.Message

/-!
# How long the errors of messages are

The error of a text that is no message names at most one thing that comes from the text: a key that
no field has, a member whose value has a wrong type, or the place of a path in a list. If the texts
that the program does not word itself keep to that, the error is not much longer than the text when
it is sent itself, where every byte may be replaced by an escape of six bytes.

## Main definitions

* `LintPool.Json.Wording.Concise` : texts that are not much longer than what they are about.
* `LintPool.Json.Mismatch.Names` : whether a mismatch names a member of limited length only.
* `LintPool.Json.Kept` : whether the reading of a record went on as it should.

## Main results

* `LintPool.Json.kept_readRecord` : the mismatches of a record name members of its value.
* `LintPool.Message.length_escape_message_le` : how long the error of a text is when it is sent.
-/

namespace LintPool.Json

/-! ## Records -/

/-- Whether texts are not much longer, when they are sent, than what they are about. -/
structure Wording.Concise (w : Wording) : Prop where
  malformed : ∀ s, (escape (w.malformed s)).length ≤ 6 * s.length + 1000
  wrongType : ∀ fields key value,
    (escape (w.wrongType fields key value)).length ≤ 6 * (key.length + value.length) + 1000

/-- Whether a mismatch names nothing but a member, or a key, of at most `n` bytes. -/
def Mismatch.Names (n : Nat) : Mismatch → Prop
  | .wrongType _ key value => key.length + value.length ≤ n
  | .unknownField name => ∃ key, Body key ∧ key.length ≤ n ∧ name = unescape key

/-- Whether the reading of a record went on as it should: the record has the property `R`, a
mismatch names a member of at most `n` bytes, or the error of a part has the property `E`. -/
def Kept {σ ε : Type} (n : Nat) (R : σ → Prop) (E : ε → Prop) : Except (Fault ε) σ → Prop
  | .ok record => R record
  | .error (.mismatch m) => m.Names n
  | .error (.part e) => E e

/-- Whether a field took a value as it should. -/
def Taken {σ ε : Type} (R : σ → Prop) (E : ε → Prop) : Except (Refusal ε) σ → Prop
  | .ok record => R record
  | .error .wrongType => True
  | .error (.part e) => E e

/-- Whether a field takes every value as it should whose text has at most `n` bytes. -/
def Field.Keeps {σ ε : Type} (n : Nat) (R : σ → Prop) (E : ε → Prop) (f : Field σ ε) : Prop :=
  ∀ record v, WellFormed v → (print v).length ≤ n → R record → Taken R E (f.set record v)

section Records

variable {σ ε α : Type} {n : Nat} {R : σ → Prop} {E : ε → Prop} {fields : List (Field σ ε)}
  {record : σ} {m : Mismatch} {v : Json} {w : Wording}

/-- The message of a mismatch, when it is sent. -/
lemma Mismatch.Names.length_le (hw : w.Concise) (hm : m.Names n) :
    (escape (m.message w)).length ≤ 6 * n + 1000 := by
  cases m with
  | wrongType fields key value =>
    have hlength := hw.wrongType fields key value
    have hn : key.length + value.length ≤ n := hm
    rw [Mismatch.message]
    omega
  | unknownField name =>
    obtain ⟨key, hkey, hn, rfl⟩ := hm
    have hlead : Inert (utf8 "json: unknown field ") := by decide
    have hlength : (utf8 "json: unknown field ").length = 20 := by decide
    have hquoted := hkey.length_escape_quoted_le
    rw [Mismatch.message, hlead.length_escape_append, hlength]
    omega

/-- A field that can only meet a wrong type keeps on if its values do. -/
lemma Field.keeps_simple {name : String} {get : σ → α} {put : σ → α → σ}
    {read : α → Json → Option α}
    (h : ∀ r v x, R r → WellFormed v → (print v).length ≤ n → read (get r) v = some x →
      R (put r x)) :
    (Field.simple name get put read : Field σ ε).Keeps n R E := by
  intro record v hv hn hrecord
  simp only [Field.simple]
  cases hread : read (get record) v with
  | none => trivial
  | some x => exact h _ v x hrecord hv hn hread

/-- A member of an object keeps on. -/
lemma kept_readMember (hfields : ∀ f ∈ fields, f.Keeps n R E) {member : Bytes × Json}
    (hkey : Body member.1) (hvalue : WellFormed member.2)
    (hn : member.1.length + (print member.2).length ≤ n) (hrecord : R record) :
    Kept n R E (readMember .strict fields record member) := by
  unfold readMember
  simp only
  split
  · rename_i f hlookup
    have htaken := hfields f (List.mem_of_find?_eq_some hlookup) record _ hvalue
      (Nat.le_trans (Nat.le_add_left _ _) hn) hrecord
    cases hset : f.set record member.2 with
    | ok record' =>
      rw [hset] at htaken
      exact htaken
    | error e =>
      rw [hset] at htaken
      cases e with
      | wrongType => exact hn
      | part e => exact htaken
  · exact ⟨member.1, hkey, Nat.le_trans (Nat.le_add_right _ _) hn, rfl⟩
  · exact hrecord

/-- The members of an object keep on, one after another. -/
lemma kept_foldlM (hfields : ∀ f ∈ fields, f.Keeps n R E) {members : List (Bytes × Json)}
    (hmembers : ∀ m ∈ members,
      Body m.1 ∧ WellFormed m.2 ∧ m.1.length + (print m.2).length ≤ n)
    (hrecord : R record) : Kept n R E (members.foldlM (readMember .strict fields) record) := by
  induction members generalizing record with
  | nil => exact hrecord
  | cons m members ih =>
    obtain ⟨⟨hkey, hvalue, hn⟩, hmembers⟩ := List.forall_mem_cons.mp hmembers
    have hstep := kept_readMember hfields hkey hvalue hn hrecord
    rw [List.foldlM_cons]
    cases hread : readMember .strict fields record m with
    | ok record' =>
      rw [hread] at hstep
      exact ih hmembers hstep
    | error e =>
      rw [hread] at hstep
      exact hstep

/-- **The mismatches of a record name members of its value**, and its fields keep on. -/
theorem kept_readRecord (hfields : ∀ f ∈ fields, f.Keeps n R E) (initial : σ)
    (hinitial : R initial) (hv : WellFormed v) (hn : (print v).length ≤ n) :
    Kept n R E (readRecord .strict fields initial v) := by
  have hwhole : ([] : Bytes).length + (print v).length ≤ n := by
    rw [List.length_nil]
    omega
  cases hv with
  | null => exact hinitial
  | object hkeys hvalues =>
    refine kept_foldlM hfields (fun m hm => ?_) hinitial
    exact ⟨hkeys m hm, hvalues m hm, Nat.le_trans (length_le_object hm) hn⟩
  | bool | number | string | array => exact hwhole

end Records

/-! ## Lists -/

/-- Whether a list that was read has `k` items, or there is the error of an item. -/
def ItemsRead {α ε : Type} (read : α → Json → Except ε α) (k : Nat) (items : List Json) :
    Except ε (Slots α) → Prop
  | .ok slots => slots.items.length = k
  | .error e => ∃ v ∈ items, ∃ x, read x v = .error e

section Items

variable {α ε : Type} {read : α → Json → Except ε α} {fresh x : α} {acc old : List α}
  {items : List Json} {v : Json} {k : Nat}

/-- Reading a list goes on after its first item, unless there is an error. -/
lemma itemsRead_cons
    (h : ∀ y, ItemsRead read k items (readItems read fresh (y :: acc) old items)) :
    ItemsRead read k (v :: items) (read x v >>= fun y => readItems read fresh (y :: acc) old items)
    := by
  cases hread : read x v with
  | error e => exact ⟨v, List.mem_cons_self, x, hread⟩
  | ok y =>
    change ItemsRead read k (v :: items) (readItems read fresh (y :: acc) old items)
    have hrest := h y
    cases hitems : readItems read fresh (y :: acc) old items with
    | ok slots =>
      rw [hitems] at hrest
      exact hrest
    | error e =>
      rw [hitems] at hrest
      obtain ⟨w, hw, hitem⟩ := hrest
      exact ⟨w, List.mem_cons_of_mem v hw, hitem⟩

/-- **A list has as many items as its array**, unless there is an error of one of them. -/
theorem itemsRead_readItems (read : α → Json → Except ε α) (fresh : α) (acc old : List α)
    (items : List Json) :
    ItemsRead read (acc.length + items.length) items (readItems read fresh acc old items) := by
  fun_induction readItems read fresh acc old items with
  | case1 acc old => exact List.length_reverse
  | case2 acc v vs ih =>
    refine itemsRead_cons fun y => ?_
    have hrest := ih y
    rwa [List.length_cons, Nat.add_right_comm] at hrest
  | case3 acc x old v vs ih =>
    refine itemsRead_cons fun y => ?_
    have hrest := ih y
    rwa [List.length_cons, Nat.add_right_comm] at hrest

end Items

end LintPool.Json

namespace LintPool.Diagnostic

section Reading

variable {n : Nat} {v : Json} {e : ReadError} {w : Json.Wording}

/-- The error of a value that is no diagnostic, when it is sent. -/
lemma length_escape_message_le (hw : w.Concise) (hv : Json.WellFormed v) (hn : v.print.length ≤ n)
    (h : ofJson v = .error e) : (Json.escape (e.message w)).length ≤ 6 * n + 1012 := by
  have hfields : ∀ f ∈ fields, f.Keeps n (fun _ => True) fun _ => True := by
    simp only [fields, List.forall_mem_cons, List.not_mem_nil, false_implies, implies_true,
      and_true]
    refine ⟨?_, ?_, ?_, ?_⟩ <;> exact Json.Field.keeps_simple fun _ _ _ _ _ _ _ => trivial
  have hkept := Json.kept_readRecord hfields {} trivial hv hn
  unfold ofJson at h
  split at h
  · cases h
  split at h
  · split at h
    · cases h
    · obtain rfl := Except.error.inj h
      have hinert : Json.Inert (utf8 "diagnostic: message is required") := by decide
      have hlength : (utf8 "diagnostic: message is required").length = 31 := by decide
      rw [ReadError.message, hinert.length_escape, hlength]
      omega
  · rename_i m hread
    obtain rfl := Except.error.inj h
    rw [hread] at hkept
    have hinert : Json.Inert (utf8 "diagnostic: ") := by decide
    have hlength : (utf8 "diagnostic: ").length = 12 := by decide
    have hm := Json.Mismatch.Names.length_le hw hkept
    rw [ReadError.message, hinert.length_escape_append, hlength]
    omega

end Reading

end LintPool.Diagnostic

namespace LintPool.Message

/-! ## Payloads -/

/-- Whether a record was read that has the property `R`, or there is an error that a text of `n`
bytes can have. -/
def ShapeRead {σ : Type} (w : Json.Wording) (n : Nat) (R : σ → Prop) : Except ShapeError σ → Prop
  | .ok r => R r
  | .error e => (Json.escape (e.message w)).length ≤ 6 * n + 1012

/-- The errors of diagnostics that a text of `n` bytes can have. -/
def IsDiagnosticError (w : Json.Wording) (n : Nat) (e : Diagnostic.ReadError) : Prop :=
  (Json.escape (e.message w)).length ≤ 6 * n + 1012

section Payloads

variable {n : Nat} {s : Bytes} {e : PayloadError} {w : Json.Wording}

/-- A fixed message without escapes, when it is sent. -/
lemma length_escape_fixed {p : Bytes} {k : Nat} (h : Json.Inert p ∧ p.length ≤ k) :
    (Json.escape p).length ≤ 6 * n + k := by
  rw [h.1.length_escape]
  exact Nat.le_trans h.2 (Nat.le_add_left k (6 * n))

/-- A record that is read off a text. -/
lemma shapeRead_readStrict {σ : Type} {R : σ → Prop} (hw : w.Concise)
    {fields : List (Json.Field σ Diagnostic.ReadError)}
    (hfields : ∀ f ∈ fields, f.Keeps n R (IsDiagnosticError w n)) (initial : σ)
    (hinitial : R initial) (hn : s.length ≤ n) :
    ShapeRead w n R (readStrict fields initial s) := by
  unfold readStrict
  split
  · exact length_escape_fixed (p := utf8 "empty payload") (by decide)
  split
  · exact Nat.le_trans (hw.malformed s) (by omega)
  rename_i v rest hread
  have hlength := Json.length_print_le hread
  have hkept := Json.kept_readRecord hfields initial hinitial (Json.wellFormed_of_read? hread)
    (show v.print.length ≤ n by omega)
  split
  · rename_i m hrecord
    rw [hrecord] at hkept
    exact Nat.le_trans (Json.Mismatch.Names.length_le hw hkept) (by omega)
  · rename_i e hrecord
    rw [hrecord] at hkept
    exact hkept
  · rename_i hrecord
    rw [hrecord] at hkept
    split
    · exact hkept
    · exact length_escape_fixed (p := utf8 "trailing data after object") (by decide)

/-- A list of files has at most as many items as its text has bytes. -/
lemma length_of_readFiles {old files : Option (Json.Slots Bytes)} {v : Json}
    (hn : v.print.length ≤ n) (h : readFiles old v = some files) :
    ∀ slots ∈ files, slots.items.length ≤ n := by
  unfold readFiles at h
  split at h
  · obtain rfl := Option.some.inj h
    nofun
  · rename_i items
    have hitems := Json.itemsRead_readItems readPath [] [] ((old.map Json.Slots.all).getD []) items
    split at h
    · rename_i slots hslots
      obtain rfl := Option.some.inj h
      rintro _ ⟨rfl⟩
      rw [hslots] at hitems
      have hlength := (Json.length_le_array items).1
      refine Nat.le_trans (Nat.le_of_eq hitems) ?_
      rw [List.length_nil]
      omega
    · cases h
  · cases h

/-- The field with the diagnostics of a result keeps on. -/
lemma keeps_errorsField (hw : w.Concise) :
    errorsField.Keeps n (fun _ => True) (IsDiagnosticError w n) := by
  intro parts v hv hn _
  cases hv with
  | null => trivial
  | @array items hitems =>
    have hread := Json.itemsRead_readItems (fun _ v => Diagnostic.ofJson v) { message := [] } []
      ((parts.errors.map Json.Slots.all).getD []) items
    rw [← Diagnostic.readList] at hread
    simp only [errorsField]
    split
    · trivial
    · rename_i e hlist
      rw [hlist] at hread
      obtain ⟨v, hv, x, hitem⟩ := hread
      have hlength := (Json.length_le_array items).2 v hv
      exact Diagnostic.length_escape_message_le hw (hitems v hv) (Nat.le_trans hlength hn) hitem
  | bool | number | string | object => trivial

/-- The error of a hello's payload. -/
lemma length_of_parseHello (hw : w.Concise) (hn : s.length ≤ n) (h : parseHello s = .error e) :
    (Json.escape (e.message w)).length ≤ 6 * n + 1012 := by
  have hfields : ∀ f ∈ helloFields, f.Keeps n (fun _ => True) (IsDiagnosticError w n) :=
    List.forall_mem_singleton.mpr (Json.Field.keeps_simple fun _ _ _ _ _ _ _ => trivial)
  have hread := shapeRead_readStrict hw hfields none trivial hn
  unfold parseHello at h
  split at h
  · rename_i hstrict
    obtain rfl := Except.error.inj h
    rw [hstrict] at hread
    exact hread
  · obtain rfl := Except.error.inj h
    exact length_escape_fixed (p := utf8 "identifier is required") (by decide)
  · split at h
    · obtain rfl := Except.error.inj h
      exact length_escape_fixed (p := utf8 "identifier is required") (by decide)
    · cases h

/-- The digits of a number are their own escapes, and there are not more of them than the number
says. -/
lemma inert_natural (k : Nat) :
    Json.Inert (Bytes.natural k) ∧ (Bytes.natural k).length ≤ k + 1 := by
  have hall : ∀ d < 10, Json.Inert [byte (Nat.digitChar d)] := by decide
  induction k using Json.natural_induction with
  | one k hk => exact ⟨hall k hk, by simp⟩
  | more k d s hk hd ih =>
    refine ⟨ih.1.append (hall d hd), ?_⟩
    rw [List.length_append, List.length_singleton]
    omega

/-- The error of an empty path in a list. -/
lemma length_pathEmpty {index : Nat} (hindex : index < n) :
    (Json.escape ((PayloadError.pathEmpty index).message w)).length ≤ 6 * n + 1012 := by
  obtain ⟨hinert, hlength⟩ := inert_natural index
  have hlead : Json.Inert (utf8 "files[") ∧ (utf8 "files[").length = 6 := by decide
  have htail : Json.Inert (utf8 "] is empty") ∧ (utf8 "] is empty").length = 10 := by
    decide
  rw [PayloadError.message, List.append_assoc, hlead.1.length_escape_append,
    hinert.length_escape_append, htail.1.length_escape, hlead.2, htail.2]
  omega

/-- The error of an analyse message's payload. -/
lemma length_of_parseAnalyse (hw : w.Concise) (hn : s.length ≤ n) (h : parseAnalyse s = .error e) :
    (Json.escape (e.message w)).length ≤ 6 * n + 1012 := by
  have hfields : ∀ f ∈ analyseFields,
      f.Keeps n (fun r => ∀ slots ∈ r, slots.items.length ≤ n) (IsDiagnosticError w n) :=
    List.forall_mem_singleton.mpr
      (Json.Field.keeps_simple fun _ _ _ _ _ hn hread => length_of_readFiles hn hread)
  have hread := shapeRead_readStrict hw hfields none nofun hn
  unfold parseAnalyse at h
  split at h
  · rename_i hstrict
    obtain rfl := Except.error.inj h
    rw [hstrict] at hread
    exact hread
  · obtain rfl := Except.error.inj h
    exact length_escape_fixed (p := utf8 "files is required") (by decide)
  · rename_i slots hstrict
    rw [hstrict] at hread
    split at h
    · rename_i index hindex
      obtain rfl := Except.error.inj h
      have hlt := (List.findIdx?_eq_some_iff_findIdx_eq.mp hindex).1
      exact length_pathEmpty (Nat.lt_of_lt_of_le hlt (hread slots rfl))
    · cases h

/-- The error of a result's payload. -/
lemma length_of_parseResult (hw : w.Concise) (hn : s.length ≤ n) (h : parseResult s = .error e) :
    (Json.escape (e.message w)).length ≤ 6 * n + 1012 := by
  have hfields : ∀ f ∈ resultFields, f.Keeps n (fun _ => True) (IsDiagnosticError w n) := by
    simp only [resultFields, List.forall_mem_cons, List.not_mem_nil, false_implies, implies_true,
      and_true]
    refine ⟨keeps_errorsField hw, ?_, ?_, ?_⟩ <;>
      exact Json.Field.keeps_simple fun _ _ _ _ _ _ _ => trivial
  have hread := shapeRead_readStrict hw hfields {} trivial hn
  unfold parseResult at h
  split at h
  · rename_i hstrict
    obtain rfl := Except.error.inj h
    rw [hstrict] at hread
    exact hread
  · split at h
    · obtain rfl := Except.error.inj h
      exact length_escape_fixed (p := utf8 "errors is required") (by decide)
    · obtain rfl := Except.error.inj h
      exact length_escape_fixed (p := utf8 "filesCount must be a non-negative integer") (by decide)
    · obtain rfl := Except.error.inj h
      exact length_escape_fixed
          (p := utf8 "internalErrorsCount must be a non-negative integer") (by decide)
    · cases h

/-- Only the payloads of known actions have errors. -/
lemma length_of_parsePayload {action : Bytes} (hw : w.Concise) (hn : s.length ≤ n)
    (h : parsePayload action s = .error e) :
    action ∈ knownActions ∧ (Json.escape (e.message w)).length ≤ 6 * n + 1012 := by
  unfold parsePayload at h
  split at h
  · rename_i haction
    exact ⟨haction ▸ .head _, length_of_parseHello hw hn h⟩
  split at h
  · rename_i haction
    exact ⟨haction ▸ .tail _ (.head _), length_of_parseAnalyse hw hn h⟩
  split at h
  · rename_i haction
    exact ⟨haction ▸ .tail _ (.tail _ (.head _)), length_of_parseResult hw hn h⟩
  · cases h

end Payloads

/-! ## Messages -/

/-- The payload of a message is a part of its text. -/
lemma length_payloadSource_le (s : Bytes) : (payloadSource s).length ≤ s.length := by
  unfold payloadSource
  simp only
  generalize hlast : List.getLast? _ = last
  cases last with
  | none => exact Nat.zero_le _
  | some m =>
    exact Json.length_of_mem_sourceMembers (List.mem_filter.mp (List.mem_of_getLast? hlast)).1

/-- **The error of a text that is no message** is at most six times as long as the text, and some
bytes, when it is sent itself. -/
theorem length_escape_message_le {w : Json.Wording} {s : Bytes} {e : ParseError} (hw : w.Concise)
    (h : parse s = .error e) :
    (Json.escape (e.message w)).length ≤ 6 * s.length + 1046 := by
  have hlead : Json.Inert (utf8 "invalid message: ") ∧
      (utf8 "invalid message: ").length = 17 := by decide
  have hfields : ∀ f ∈ envelopeFields,
      f.Keeps s.length (fun _ => True) (IsDiagnosticError w s.length) := by
    simp only [envelopeFields, List.forall_mem_cons, List.not_mem_nil, false_implies, implies_true,
      and_true]
    refine ⟨?_, ?_⟩ <;> exact Json.Field.keeps_simple fun _ _ _ _ _ _ _ => trivial
  have hread := shapeRead_readStrict hw hfields [] trivial (Nat.le_refl s.length)
  unfold parse at h
  split at h
  · rename_i hstrict
    obtain rfl := Except.error.inj h
    rw [hstrict] at hread
    rw [ParseError.message, hlead.1.length_escape_append, hlead.2]
    exact Nat.le_trans (Nat.add_le_add_left hread 17) (by omega)
  split at h
  · obtain rfl := Except.error.inj h
    exact length_escape_fixed (p := utf8 "invalid message: " ++ utf8 "missing action") (by decide)
  split at h
  · cases h
  · rename_i hpayload
    obtain rfl := Except.error.inj h
    obtain ⟨haction, hlength⟩ := length_of_parsePayload hw (length_payloadSource_le s) hpayload
    have hknown : ∀ action ∈ knownActions,
        Json.Inert (action ++ utf8 " payload: ") ∧
          (action ++ utf8 " payload: ").length ≤ 17 := by decide
    obtain ⟨hinert, hle⟩ := hknown _ haction
    rw [ParseError.message, hlead.1.length_escape_append, hlead.2,
      hinert.length_escape_append]
    omega

end LintPool.Message
