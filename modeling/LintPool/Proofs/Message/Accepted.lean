import LintPool.Proofs.Json.Source
import LintPool.Proofs.Message.Error

/-!
# Messages that are accepted

A text may spell a message in many ways: with blanks, with members in any order and more than once,
with escapes and with damaged bytes. What is accepted nevertheless follows the schema of its action
and has a normal form, which is what is read back from the message's own text. A message of a known
action is its own normal form. The payload of an unknown action is kept as it was spelled, and its
normal form is the compact text of the same value.

That an accepted message can be written again rests on three facts about what is read: texts that
are read are valid, the payload that is kept is the source text of a single value, and this value
nests less deeply than a text may, since the message around it was read as a whole.

## Main definitions

* `LintPool.Message.Allowed` : whether the schema of its action allows a message.
* `LintPool.Message.NormalForm` : whether a message is the normal form of another.

## Main results

* `LintPool.Diagnostic.isText_of_ofJson` : the texts of a diagnostic that is read are valid.
* `LintPool.Message.payload_of_read?` : the payload that is kept is that of a value.
* `LintPool.Message.of_parse` : what is known about a message that is accepted.
* `LintPool.Message.accepted_normal_form` : an accepted message is allowed and has a normal form.
-/

namespace LintPool.Json

/-! ## Values that are read -/

section Values

variable {σ ε α : Type} {v : Json} {s : Bytes}

/-- What is missing has every property. -/
lemma forall_mem_none (P : α → Prop) : ∀ x ∈ (none : Option α), P x :=
  fun x hx => absurd hx (Option.not_mem_none x)

/-- A text that is read over a valid one is valid. -/
lemma Field.isValid_of_text {old : Bytes} (hv : WellFormed v) (hold : Utf8.isValid old = true)
    (h : Field.text old v = some s) : Utf8.isValid s = true := by
  cases hv with
  | null =>
    obtain rfl := Option.some.inj h
    exact hold
  | string hbody =>
    obtain rfl := Option.some.inj h
    exact hbody.isValid_unescape
  | bool | number | array | object => cases h

/-- A text that is read and may be missing is valid. -/
lemma Field.isValid_of_text? {old x : Option Bytes} (hv : WellFormed v)
    (h : Field.text? old v = some x) : ∀ s ∈ x, Utf8.isValid s = true := by
  cases hv with
  | null =>
    obtain rfl := Option.some.inj h
    exact forall_mem_none _
  | string hbody =>
    obtain rfl := Option.some.inj h
    rintro _ ⟨rfl⟩
    exact hbody.isValid_unescape
  | bool | number | array | object => cases h

/-- **What all items of a list have in common**: a property that every item passes on to the one
read over it is one of the items that are read and of those kept aside. -/
lemma forall_mem_of_readItems {P : α → Prop} {read : α → Json → Except ε α} {fresh : α}
    {acc old : List α} {items : List Json} {slots : Slots α} (hfresh : P fresh)
    (hread : ∀ v ∈ items, ∀ x y, P x → read x v = .ok y → P y) (hacc : ∀ x ∈ acc, P x)
    (hold : ∀ x ∈ old, P x) (h : readItems read fresh acc old items = .ok slots) :
    ∀ x ∈ slots.all, P x := by
  fun_induction readItems read fresh acc old items with
  | case1 acc old =>
    obtain rfl := Except.ok.inj h
    refine List.forall_mem_append.mpr ⟨fun x hx => hacc x (List.mem_reverse.mp hx), ?_⟩
    simp only
    split
    · exact List.forall_mem_nil _
    · exact hold
  | case2 acc v vs ih =>
    obtain ⟨hv, hvs⟩ := List.forall_mem_cons.mp hread
    cases hx : read fresh v with
    | error e =>
      rw [hx] at h
      cases h
    | ok x =>
      rw [hx] at h
      exact ih x hvs (List.forall_mem_cons.mpr ⟨hv _ _ hfresh hx, hacc⟩) hold h
  | case3 acc x old v vs ih =>
    obtain ⟨hv, hvs⟩ := List.forall_mem_cons.mp hread
    obtain ⟨hx, hold⟩ := List.forall_mem_cons.mp hold
    cases hy : read x v with
    | error e =>
      rw [hy] at h
      cases h
    | ok y =>
      rw [hy] at h
      exact ih y hvs (List.forall_mem_cons.mpr ⟨hv _ _ hx hy, hacc⟩) hold h

/-- What all items of an earlier list have in common. -/
lemma forall_mem_earlier {P : α → Prop} {old : Option (Slots α)}
    (hold : ∀ slots ∈ old, ∀ x ∈ slots.all, P x) : ∀ x ∈ (old.map Slots.all).getD [], P x := by
  cases old with
  | none => exact List.forall_mem_nil _
  | some slots => exact hold slots rfl

/-- What the fields of a record keep is kept by the record. -/
lemma record_of_readRecord {R : σ → Prop} {fields : List (Field σ ε)} {initial record : σ}
    (hfields : ∀ n, ∀ f ∈ fields, f.Keeps n R fun _ => True) (hinitial : R initial)
    (hv : WellFormed v) (h : readRecord .strict fields initial v = .ok record) : R record := by
  have hkept := kept_readRecord (hfields _) initial hinitial hv (Nat.le_refl _)
  rw [h] at hkept
  exact hkept

end Values

end LintPool.Json

namespace LintPool.Diagnostic

/-- Whether the texts among the parts of a diagnostic are valid. -/
def Parts.IsText (p : Parts) : Prop :=
  (∀ s ∈ p.message, Utf8.isValid s = true) ∧ Utf8.isValid p.file = true

/-- **The texts of a diagnostic that is read are valid.** -/
theorem isText_of_ofJson {v : Json} {d : Diagnostic} (hv : Json.WellFormed v)
    (h : ofJson v = .ok d) : d.IsText := by
  have hempty : Utf8.isValid [] = true := Utf8.isValid_encodeAll []
  have hfields : ∀ n, ∀ f ∈ fields, f.Keeps n Parts.IsText fun _ => True := by
    intro n
    simp only [fields, List.forall_mem_cons, List.not_mem_nil, false_implies, implies_true,
      and_true]
    refine ⟨?_, ?_, ?_, ?_⟩
    · exact Json.Field.keeps_simple fun p v x hp hv _ hread =>
        ⟨Json.Field.isValid_of_text? hv hread, hp.2⟩
    · exact Json.Field.keeps_simple fun p v x hp hv _ hread =>
        ⟨hp.1, Json.Field.isValid_of_text hv hp.2 hread⟩
    · exact Json.Field.keeps_simple fun p v x hp _ _ _ => hp
    · exact Json.Field.keeps_simple fun p v x hp _ _ _ => hp
  unfold ofJson at h
  split at h
  · obtain rfl := Except.ok.inj h
    cases hv with
    | string hbody => exact ⟨hbody.isValid_unescape, hempty⟩
  split at h
  · rename_i record hread
    have hrecord := Json.record_of_readRecord hfields ⟨Json.forall_mem_none _, hempty⟩ hv hread
    split at h
    · rename_i message hmessage
      obtain rfl := Except.ok.inj h
      exact ⟨hrecord.1 message hmessage, hrecord.2⟩
    · cases h
  · cases h

end LintPool.Diagnostic

namespace LintPool.Message

/-! ## Payloads that are accepted -/

section Payloads

variable {σ : Type} {m : Message} {s payload action : Bytes}

/-- A record that is read off a text is that of its value. -/
lemma of_readStrict {fields : List (Json.Field σ Diagnostic.ReadError)} {initial r : σ}
    (h : readStrict fields initial s = .ok r) :
    ∃ v rest, Json.read? s = some (v, rest) ∧
      Json.readRecord .strict fields initial v = .ok r := by
  unfold readStrict at h
  split at h
  · cases h
  split at h
  · cases h
  rename_i v rest hread
  split at h
  · cases h
  · cases h
  · rename_i hrecord
    split at h
    · obtain rfl := Except.ok.inj h
      exact ⟨v, rest, hread, hrecord⟩
    · cases h

/-- What the fields of a record keep is kept by a record that is read off a text. -/
lemma record_of_readStrict {R : σ → Prop} {fields : List (Json.Field σ Diagnostic.ReadError)}
    {initial r : σ} (hfields : ∀ n, ∀ f ∈ fields, f.Keeps n R fun _ => True)
    (hinitial : R initial) (h : readStrict fields initial s = .ok r) : R r := by
  obtain ⟨v, rest, hread, hrecord⟩ := of_readStrict h
  exact Json.record_of_readRecord hfields hinitial (Json.wellFormed_of_read? hread) hrecord

/-- A hello that is accepted follows its schema. -/
lemma of_parseHello (h : parseHello payload = .ok m) :
    ∃ identifier, m = .hello identifier ∧ m.Conforms := by
  have hfields : ∀ n, ∀ f ∈ helloFields,
      f.Keeps n (fun r => ∀ s ∈ r, Utf8.isValid s = true) fun _ => True :=
    fun n => List.forall_mem_singleton.mpr <| Json.Field.keeps_simple
      fun _ _ _ _ hv _ hread => Json.Field.isValid_of_text? hv hread
  unfold parseHello at h
  split at h
  · cases h
  · cases h
  · rename_i identifier hread
    split at h
    · cases h
    · rename_i hne
      obtain rfl := Except.ok.inj h
      exact ⟨identifier, rfl, fun hnil => hne (List.isEmpty_iff.mpr hnil),
        record_of_readStrict hfields (Json.forall_mem_none _) hread identifier rfl⟩

/-- The paths of a list that is read are valid. -/
lemma isValid_of_readFiles {old files : Option (Json.Slots Bytes)} {v : Json}
    (hv : Json.WellFormed v) (hold : ∀ slots ∈ old, ∀ f ∈ slots.all, Utf8.isValid f = true)
    (h : readFiles old v = some files) :
    ∀ slots ∈ files, ∀ f ∈ slots.all, Utf8.isValid f = true := by
  cases hv with
  | null =>
    obtain rfl := Option.some.inj h
    exact Json.forall_mem_none _
  | @array items hitems =>
    simp only [readFiles] at h
    split at h
    · rename_i slots hslots
      obtain rfl := Option.some.inj h
      rintro _ ⟨rfl⟩
      refine Json.forall_mem_of_readItems (Utf8.isValid_encodeAll []) (fun v hv x y hx hread => ?_)
        (List.forall_mem_nil _) (Json.forall_mem_earlier hold) hslots
      rw [readPath] at hread
      cases htext : Json.Field.text x v with
      | none =>
        rw [htext] at hread
        cases hread
      | some z =>
        rw [htext] at hread
        obtain rfl := Except.ok.inj hread
        exact Json.Field.isValid_of_text (hitems v hv) hx htext
    · cases h
  | bool | number | string | object => cases h

/-- A batch of files that is accepted follows its schema. -/
lemma of_parseAnalyse (h : parseAnalyse payload = .ok m) :
    ∃ files, m = .analyse files ∧ m.Conforms := by
  have hfields : ∀ n, ∀ f ∈ analyseFields,
      f.Keeps n (fun r => ∀ slots ∈ r, ∀ f ∈ slots.all, Utf8.isValid f = true) fun _ => True :=
    fun n => List.forall_mem_singleton.mpr <| Json.Field.keeps_simple
      fun _ _ _ hold hv _ hread => isValid_of_readFiles hv hold hread
  unfold parseAnalyse at h
  split at h
  · cases h
  · cases h
  · rename_i slots hread
    split at h
    · cases h
    · rename_i hpaths
      obtain rfl := Except.ok.inj h
      refine ⟨slots.items, rfl, fun f hf => ?_⟩
      have hne := List.findIdx?_eq_none_iff.mp hpaths f hf
      have hvalid := record_of_readStrict hfields (Json.forall_mem_none _) hread slots rfl
      refine ⟨fun hnil => ?_, hvalid f (List.mem_append_left _ hf)⟩
      rw [hnil] at hne
      cases hne

/-- Whether the diagnostics among the parts of a result have valid texts. -/
def ResultParts.IsText (p : ResultParts) : Prop :=
  ∀ slots ∈ p.errors, ∀ d ∈ slots.all, d.IsText

/-- The diagnostics that are read into a result have valid texts. -/
lemma keeps_isText_errorsField (n : Nat) :
    errorsField.Keeps n ResultParts.IsText fun _ => True := by
  intro parts v hv hn hparts
  cases hv with
  | null => exact Json.forall_mem_none _
  | @array items hitems =>
    simp only [errorsField]
    split
    · rename_i slots hlist
      rintro _ ⟨rfl⟩
      exact Json.forall_mem_of_readItems ⟨Utf8.isValid_encodeAll [], Utf8.isValid_encodeAll []⟩
        (fun v hv x d _ hread => Diagnostic.isText_of_ofJson (hitems v hv) hread)
        (List.forall_mem_nil _) (Json.forall_mem_earlier hparts) hlist
    · trivial
  | bool | number | string | object => trivial

/-- A count that is present is not negative. -/
lemma le_of_count? {n : Option Int64} {k : Int64} (h : count? n = some k) : 0 ≤ k := by
  rw [count?, Option.filter_eq_some_iff] at h
  exact of_decide_eq_true h.2

/-- A result that is accepted follows its schema. -/
lemma of_parseResult (h : parseResult payload = .ok m) : ∃ r, m = .result r ∧ m.Conforms := by
  have hfields : ∀ n, ∀ f ∈ resultFields, f.Keeps n ResultParts.IsText fun _ => True := by
    intro n
    simp only [resultFields, List.forall_mem_cons, List.not_mem_nil, false_implies, implies_true,
      and_true]
    refine ⟨keeps_isText_errorsField n, ?_, ?_, ?_⟩ <;>
      exact Json.Field.keeps_simple fun _ _ _ hp _ _ _ => hp
  unfold parseResult at h
  split at h
  · cases h
  rename_i parts hread
  split at h
  · cases h
  · cases h
  · cases h
  · rename_i slots files internal hslots hfiles hinternal
    obtain rfl := Except.ok.inj h
    have hinitial : ResultParts.IsText {} := Json.forall_mem_none _
    have htext := record_of_readStrict hfields hinitial hread
    exact ⟨_, rfl, le_of_count? hfiles, le_of_count? hinternal,
      fun d hd => htext slots hslots d (List.mem_append_left _ hd)⟩

/-- The action of a message that is accepted is valid. -/
lemma isValid_of_readStrict (h : readStrict envelopeFields [] s = .ok action) :
    Utf8.isValid action = true := by
  have hfields : ∀ n, ∀ f ∈ envelopeFields,
      f.Keeps n (fun r => Utf8.isValid r = true) fun _ => True := by
    intro n
    simp only [envelopeFields, List.forall_mem_cons, List.not_mem_nil, false_implies, implies_true,
      and_true]
    refine ⟨?_, ?_⟩
    · exact Json.Field.keeps_simple fun _ _ _ hr hv _ hread =>
        Json.Field.isValid_of_text hv hr hread
    · exact Json.Field.keeps_simple fun _ _ _ hr _ _ _ => hr
  have hvalid := record_of_readStrict hfields (Utf8.isValid_encodeAll []) h
  exact hvalid

/-- A message with an action is an object. -/
lemma object_of_readStrict (h : readStrict envelopeFields [] s = .ok action) (hne : action ≠ []) :
    ∃ ms rest, Json.read? s = some (.object ms, rest) := by
  obtain ⟨v, rest, hread, hrecord⟩ := of_readStrict h
  cases v with
  | object ms => exact ⟨ms, rest, hread⟩
  | null =>
    cases hrecord
    exact absurd rfl hne
  | bool | number | string | array => cases hrecord

/-- **The payload that is kept is that of a value**, which leaves room for the message around it,
or there is none. -/
lemma payload_of_read? {ms : List (Bytes × Json)} {rest : Bytes}
    (h : Json.read? s = some (.object ms, rest)) :
    payloadSource s = [] ∨
      ∃ v, Json.parse? (payloadSource s) = some v ∧ v.depth < Json.maxDepth := by
  rw [payloadSource]
  generalize hlast : List.getLast? _ = last
  cases last with
  | none => exact .inl rfl
  | some source =>
    have hsource := (List.mem_filter.mp (List.mem_of_getLast? hlast)).1
    obtain ⟨m, hm, -, hread⟩ := Json.exists_member h hsource
    refine .inr ⟨m.2, ?_, Nat.lt_of_lt_of_le (Json.depth_lt_object hm) (Json.depth_le_of_read? h)⟩
    simp only [Option.map_some, Option.getD_some, Json.parse?, hread, List.all_nil, if_true]

end Payloads

/-! ## Normal forms -/

/-- Whether the schema of its action allows a message. -/
def Allowed : Message → Prop
  | .hello identifier => identifier ≠ []
  | .analyse files => ∀ f ∈ files, f ≠ []
  | .result r => 0 ≤ r.files ∧ 0 ≤ r.internal
  | .unknown name _ => name ≠ [] ∧ name ∉ knownActions

/-- Whether a message is the normal form of another. -/
inductive NormalForm : Message → Message → Prop
  | hello (identifier : Bytes) : NormalForm (.hello identifier) (.hello identifier)
  | analyse (files : List Bytes) : NormalForm (.analyse files) (.analyse files)
  | result (r : Result) : NormalForm (.result r) (.result r)
  /-- A missing payload becomes an empty object. -/
  | absent (name : Bytes) : NormalForm (.unknown name []) (.unknown name (utf8 "{}"))
  /-- A payload becomes the compact text of its value, with escapes. -/
  | given (name : Bytes) {payload : Bytes} {v : Json} (h : Json.parse? payload = some v) :
    NormalForm (.unknown name payload) (.unknown name v.shield.print)

section Accepted

variable {m : Message} {s name : Bytes} {v : Json}

/-- What follows its schema is allowed by it. -/
lemma Conforms.allowed (hm : m.Conforms) : m.Allowed := by
  cases m with
  | hello => exact hm.1
  | analyse => exact fun f hf => (hm f hf).1
  | result => exact ⟨hm.1, hm.2.1⟩
  | unknown => exact ⟨hm.1.1, hm.1.2.2⟩

/-- A shielded value that leaves room for the message around it, as the payload of an unknown
action. -/
lemma conforms_unknown (hname : name ≠ [] ∧ Utf8.isValid name = true ∧ name ∉ knownActions)
    (hfits : Json.Fits (Json.maxDepth - 1) v) (hshield : v.shield = v) :
    (unknown name v.print).Conforms ∧ (unknown name v.print).payloadJson? = some v := by
  have hparse : Json.parse? v.print = some v := (hfits.mono (Nat.sub_le _ _)).parse?_print
  refine ⟨⟨hname, v, hparse, by rw [hshield]⟩, ?_⟩
  rw [payloadJson?_unknown hparse, hshield]

/-- A message of an unknown action has a normal form if its payload is missing or that of a value
that leaves room for the message around it. -/
lemma exists_normalForm_unknown {payload : Bytes}
    (hname : name ≠ [] ∧ Utf8.isValid name = true ∧ name ∉ knownActions)
    (hpayload : payload = [] ∨
      ∃ v, Json.parse? payload = some v ∧ v.depth < Json.maxDepth) :
    ∃ m' text, NormalForm (unknown name payload) m' ∧ m'.Conforms ∧
      (unknown name payload).print = .ok text ∧ m'.print = .ok text := by
  obtain rfl | ⟨v, hv, hdepth⟩ := hpayload
  · have hshield : (Json.object []).shield = .object [] := by
      rw [Json.shield]
      rfl
    have hfits : Json.Fits (Json.maxDepth - 1) (.object []) :=
      (Json.MembersFit.nil (n := 0)).object.mono (by decide)
    obtain ⟨hconforms, hjson⟩ := conforms_unknown hname hfits hshield
    have hempty : (Json.object []).print = utf8 "{}" := Json.print_object []
    exact ⟨_, _, hempty ▸ .absent name, hconforms, print_of_fits rfl hfits,
      print_of_fits hjson hfits⟩
  · have hwellFormed := Json.wellFormed_of_parse? hv
    have hfits : Json.Fits (Json.maxDepth - 1) v := ⟨hwellFormed, Nat.le_sub_one_of_lt hdepth⟩
    obtain ⟨hconforms, hjson⟩ :=
      conforms_unknown hname hfits.shield hwellFormed.shield_shield
    exact ⟨_, _, .given name hv, hconforms, print_of_fits (payloadJson?_unknown hv) hfits.shield,
      print_of_fits hjson hfits.shield⟩

/-- **A message that is accepted is allowed, can be written and has a normal form**, which follows
its schema and has the same text. -/
theorem of_parse (h : parse s = .ok m) :
    m.Allowed ∧ ∃ m' text, NormalForm m m' ∧ m'.Conforms ∧ m.print = .ok text ∧
      m'.print = .ok text := by
  unfold parse at h
  split at h
  · cases h
  rename_i action haction
  split at h
  · cases h
  rename_i hempty
  have hne : action ≠ [] := fun hnil => hempty (List.isEmpty_iff.mpr hnil)
  split at h
  · rename_i m hpayload
    obtain rfl := Except.ok.inj h
    unfold parsePayload at hpayload
    split at hpayload
    · obtain ⟨identifier, rfl, hconforms⟩ := of_parseHello hpayload
      have hprint := print_of_fits (m := .hello identifier) rfl
        ((fits_identifier identifier).mono (by decide))
      exact ⟨hconforms.allowed, _, _, .hello identifier, hconforms, hprint, hprint⟩
    rename_i hhello
    split at hpayload
    · obtain ⟨files, rfl, hconforms⟩ := of_parseAnalyse hpayload
      have hprint := print_analyse files
      exact ⟨hconforms.allowed, _, _, .analyse files, hconforms, hprint, hprint⟩
    rename_i hanalyse
    split at hpayload
    · obtain ⟨r, rfl, hconforms⟩ := of_parseResult hpayload
      have hprint := print_result r
      exact ⟨hconforms.allowed, _, _, .result r, hconforms, hprint, hprint⟩
    rename_i hresult
    obtain rfl := Except.ok.inj hpayload
    have hknown : action ∉ knownActions := by
      simp only [knownActions, List.mem_cons, List.not_mem_nil, or_false, not_or]
      exact ⟨hhello, hanalyse, hresult⟩
    obtain ⟨ms, rest, hread⟩ := object_of_readStrict haction hne
    exact ⟨⟨hne, hknown⟩, exists_normalForm_unknown
      ⟨hne, isValid_of_readStrict haction, hknown⟩ (payload_of_read? hread)⟩
  · cases h

/-- **An accepted message is allowed by its schema and has a normal form.** Its text is read back as
the normal form, and the normal form has the same text, so that it is read back as it is. What is
not accepted is an invalid message. -/
theorem accepted_normal_form (w : Json.Wording) (raw : Bytes) :
    match parse raw with
    | .ok m => m.Allowed ∧ ∃ text m', m.print = .ok text ∧ parse text = .ok m' ∧
        NormalForm m m' ∧ m'.print = .ok text
    | .error e => utf8 "invalid message: " <+: e.message w := by
  split
  · rename_i m h
    obtain ⟨hallowed, m', text, hnormal, hconforms, htext, htext'⟩ := of_parse h
    exact ⟨hallowed, text, m', htext, parse_print hconforms htext', hnormal, htext'⟩
  · exact List.prefix_append _ _

end Accepted

end LintPool.Message
