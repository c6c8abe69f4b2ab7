import LintPool.Json.Reader
import LintPool.Proofs.Json.Number

/-!
# Values are read back as they were printed

A value is well-formed if the reader of tokens accepts its literals, bodies and keys. What the
reader of values gives is always well-formed, and a well-formed value is read back from its compact
text, unless it nests too deeply.

## Main definitions

* `LintPool.Json.WellFormed` : well-formed values.
* `LintPool.Json.depth` : how deeply a value nests.
* `LintPool.Json.Token.text` : the text of a token.

## Main results

* `LintPool.Json.read?_print` : a value is read back.
* `LintPool.Json.wellFormed_of_read?` : what is read is well-formed.
* `LintPool.Json.WellFormed.shield` : shielding keeps values well-formed.
* `LintPool.Json.WellFormed.le_of_mem_print` : there is no control character in a compact text.
-/

namespace LintPool.Json

/-- Values with literals, bodies and keys that the reader of tokens accepts. -/
inductive WellFormed : Json → Prop
  | null : WellFormed .null
  | bool (b : Bool) : WellFormed (.bool b)
  | number {l : Bytes} (hl : Literal l) : WellFormed (.number l)
  | string {b : Bytes} (hb : Body b) : WellFormed (.string b)
  | array {items : List Json} (hitems : ∀ v ∈ items, WellFormed v) : WellFormed (.array items)
  | object {members : List (Bytes × Json)} (hkeys : ∀ m ∈ members, Body m.1)
      (hvalues : ∀ m ∈ members, WellFormed m.2) : WellFormed (.object members)

/-! ## Tokens -/

section Tokens

variable {a : UInt8} {s rest body l : Bytes} {token : Token}

/-- A token that does not start with a blank is read where it stands. -/
lemma next?_cons (ha : isBlank a = false) (s : Bytes) :
    Token.next? (a :: s) = Token.here? (a :: s) := by
  rw [Token.next?, List.dropWhile_cons_of_neg (by rw [ha]; decide)]

/-- Punctuation is no blank, and does not continue a number. -/
lemma of_punctuation :
    (Token.punctuation? a).isSome = true → isBlank a = false ∧ continuesNumber a = false :=
  Utf8.forall_byte (P := fun a => (Token.punctuation? a).isSome = true →
    isBlank a = false ∧ continuesNumber a = false) (by decide +kernel) a

/-- What begins a number begins no other token, and is no blank. -/
lemma of_begins_number :
    a = byte '-' ∨ Bytes.isDigit a = true →
      isBlank a = false ∧ (Token.punctuation? a).isNone = true ∧ a ≠ byte '"' :=
  Utf8.forall_byte (P := fun a => a = byte '-' ∨ Bytes.isDigit a = true →
    isBlank a = false ∧ (Token.punctuation? a).isNone = true ∧ a ≠ byte '"') (by decide +kernel) a

/-- The tokens of one byte. -/
lemma next?_punctuation (ha : Token.punctuation? a = some token) (s : Bytes) :
    Token.next? (a :: s) = some (token, s) := by
  rw [next?_cons (of_punctuation (by rw [ha]; rfl)).1, Token.here?, ha]

/-- A string is a token. -/
lemma next?_quote (hb : Body body) (rest : Bytes) :
    Token.next? (quote body ++ rest) = some (.scalar (.string body), rest) := by
  have hcons : quote body ++ rest = byte '"' :: (body ++ byte '"' :: rest) := by simp [quote]
  rw [hcons, next?_cons (by decide), Token.here?]
  change Option.map _ (Token.body? [] (body ++ byte '"' :: rest)) = _
  rw [hb.body?_append]
  rfl

/-- A number is a token, up to what does not continue it. -/
lemma next?_number (hl : Literal l) (hrest : Ends rest) :
    Token.next? (l ++ rest) = some (.scalar (.number l), rest) := by
  obtain ⟨a, t, rfl, ha⟩ := hl.exists_cons
  obtain ⟨hblank, hpunctuation, hquote⟩ := of_begins_number ha
  rw [List.cons_append, next?_cons hblank, Token.here?, Option.isNone_iff_eq_none.mp hpunctuation]
  simp only [if_neg hquote, if_pos ha]
  rw [← List.cons_append, hl.number?_append hrest]
  rfl

/-- The words are tokens. -/
lemma next?_word (rest : Bytes) :
    Token.next? (print .null ++ rest) = some (.scalar .null, rest) ∧
      ∀ b, Token.next? (print (.bool b) ++ rest) = some (.scalar (.bool b), rest) := by
  refine ⟨?_, fun b => ?_⟩
  · rw [print]
    rfl
  · cases b with
    | false =>
      rw [print]
      rfl
    | true =>
      rw [print]
      rfl

end Tokens

/-! ## Printing -/

section Printing

variable {v : Json} {vs : List Json} {m : Bytes × Json} {ms : List (Bytes × Json)}

/-- The text of a member. -/
def printMember (m : Bytes × Json) : Bytes := quote m.1 ++ byte ':' :: print m.2

/-- The text of an array. -/
lemma print_array (vs : List Json) :
    print (.array vs) = byte '[' :: (Bytes.join [byte ','] (vs.map print) ++ [byte ']']) := by
  rw [print, List.cons_append]

/-- The text of an object. -/
lemma print_object (ms : List (Bytes × Json)) :
    print (.object ms) =
      byte '{' :: (Bytes.join [byte ','] (ms.map printMember) ++ [byte '}']) := by
  rw [print, List.cons_append]
  rfl

/-- A single part is joined with nothing. -/
@[simp] lemma join_singleton (sep p : Bytes) : Bytes.join sep [p] = p := by
  simp [Bytes.join, List.intercalate]

/-- Between two parts stands the separator. -/
@[simp] lemma join_cons_cons (sep p q : Bytes) (parts : List Bytes) :
    Bytes.join sep (p :: q :: parts) = p ++ (sep ++ Bytes.join sep (q :: parts)) := by
  simp [Bytes.join, List.intercalate]

end Printing

/-! ## Reading -/

section Reading

variable {stack stack' : List Frame} {await await' : Await} {token : Token} {s s' rest : Bytes}
  {v : Json}

/-- The reader goes on after a token. -/
lemma resume?_step (htoken : Token.next? s = some (token, s'))
    (hstep : step? stack await token = some (stack', await')) :
    resume? stack await s = resume? stack' await' s' := by
  rw [resume?.eq_def]
  split
  · -- outside of all containers no token follows a complete value
    cases token <;> cases hstep
  · split
    · rename_i heq
      cases heq.symm.trans htoken
    · rename_i heq
      obtain ⟨rfl, rfl⟩ := Prod.mk.inj (Option.some.inj (heq.symm.trans htoken))
      rw [hstep]

/-- A complete value outside of all containers ends the reading. -/
lemma resume?_done (v : Json) (s : Bytes) : resume? [] (.next v) s = some (v, s) := by
  rw [resume?]

/-- Whether the reader waits for a value, which may be the first item of an array. -/
def Await.IsOpen (await : Await) : Prop := await = .value ∨ await = .item

/-- A value starts in the same way wherever one is awaited. -/
lemma step?_of_begin? (hopen : await.IsOpen) (hbegin : begin? stack token = some (stack', await')) :
    step? stack await token = some (stack', await') := by
  rcases hopen with rfl | rfl
  · rw [step?]
    exact hbegin
  · rw [step?]
    · exact hbegin
    · rintro stack - rfl
      cases hbegin

/-- Whether the text of a value is read as that value with these containers open, whatever follows
that does not continue a literal. -/
def ReadsBack (v : Json) (stack : List Frame) : Prop :=
  ∀ (await : Await) (rest : Bytes), await.IsOpen → Ends rest →
    resume? stack await (print v ++ rest) = resume? stack (.next v) rest

/-- A byte that is punctuation does not continue a literal. -/
lemma ends_punctuation {a : UInt8} (ha : (Token.punctuation? a).isSome = true) (s : Bytes) :
    Ends (a :: s) := by
  rintro b ⟨rfl⟩
  exact (of_punctuation ha).2

/-- A value of one token is read back. -/
lemma readsBack_scalar
    (h : ∀ rest, Ends rest → Token.next? (print v ++ rest) = some (.scalar v, rest))
    (stack : List Frame) : ReadsBack v stack :=
  fun _ rest hopen hrest => resume?_step (h rest hrest) (step?_of_begin? hopen rfl)

/-- The items of an array are read back, the first of them perhaps in place of its end. -/
lemma resume?_items (vs : List Json) (acc : List Json) {await : Await} (hopen : await.IsOpen)
    (hvs : ∀ w ∈ v :: vs, ∀ acc, ReadsBack w (.array acc :: stack)) (rest : Bytes) :
    resume? (.array acc :: stack) await
        (Bytes.join [byte ','] ((v :: vs).map print) ++ byte ']' :: rest) =
      resume? stack (.next (.array (acc.reverse ++ v :: vs))) rest := by
  induction vs generalizing v acc await with
  | nil =>
    rw [List.map_singleton, join_singleton,
      hvs v List.mem_cons_self acc _ _ hopen (ends_punctuation (by decide) rest),
      resume?_step (next?_punctuation rfl rest) rfl, List.reverse_cons]
  | cons w vs ih =>
    rw [List.map_cons, List.map_cons, join_cons_cons, List.append_assoc, List.append_assoc,
      List.singleton_append,
      hvs v List.mem_cons_self acc _ _ hopen (ends_punctuation (by decide) _),
      resume?_step (next?_punctuation rfl _) rfl, ← List.map_cons,
      ih (v :: acc) (.inl rfl) fun u hu => hvs u (List.mem_cons_of_mem v hu)]
    simp

/-- Whether the reader waits for a key, which may be the first one of an object. -/
def Await.IsKey (await : Await) : Prop := await = .member ∨ await = .key

/-- A key is read wherever one is awaited. -/
lemma step?_key {key : Bytes} (hkey : await.IsKey) :
    step? stack await (.scalar (.string key)) = some (stack, .colon key) := by
  rcases hkey with rfl | rfl <;> rw [step?]

/-- A member of an object is read back. -/
lemma resume?_member {m : Bytes × Json} {members : List (Bytes × Json)} {key : Bytes}
    (hkey : await.IsKey) (hbody : Body m.1)
    (hvalue : ReadsBack m.2 (.object members m.1 :: stack)) (hrest : Ends rest) :
    resume? (.object members key :: stack) await (printMember m ++ rest) =
      resume? (.object members m.1 :: stack) (.next m.2) rest := by
  rw [printMember, List.append_assoc, resume?_step (next?_quote hbody _) (step?_key hkey),
    List.cons_append, resume?_step (next?_punctuation rfl _) rfl,
    hvalue _ _ (.inl rfl) hrest]

/-- The members of an object are read back, the first of them perhaps in place of its end. -/
lemma resume?_members {m : Bytes × Json} (ms acc : List (Bytes × Json)) {key : Bytes}
    {await : Await} (hkey : await.IsKey) (hbodies : ∀ p ∈ m :: ms, Body p.1)
    (hvalues : ∀ p ∈ m :: ms, ∀ acc, ReadsBack p.2 (.object acc p.1 :: stack)) (rest : Bytes) :
    resume? (.object acc key :: stack) await
        (Bytes.join [byte ','] ((m :: ms).map printMember) ++ byte '}' :: rest) =
      resume? stack (.next (.object (acc.reverse ++ m :: ms))) rest := by
  have hbody := hbodies m List.mem_cons_self
  have hvalue := hvalues m List.mem_cons_self acc
  induction ms generalizing m acc key await with
  | nil =>
    rw [List.map_singleton, join_singleton,
      resume?_member hkey hbody hvalue (ends_punctuation (by decide) rest),
      resume?_step (next?_punctuation rfl rest) rfl, List.reverse_cons]
  | cons p ms ih =>
    have hbodies' : ∀ q ∈ p :: ms, Body q.1 := fun q hq => hbodies q (List.mem_cons_of_mem m hq)
    have hvalues' : ∀ q ∈ p :: ms, ∀ acc, ReadsBack q.2 (.object acc q.1 :: stack) :=
      fun q hq => hvalues q (List.mem_cons_of_mem m hq)
    rw [List.map_cons, List.map_cons, join_cons_cons, List.append_assoc, List.append_assoc,
      List.singleton_append, resume?_member hkey hbody hvalue (ends_punctuation (by decide) _),
      resume?_step (next?_punctuation rfl _) rfl, ← List.map_cons,
      ih ((m.1, m.2) :: acc) (.inr rfl) hbodies' hvalues' (hbodies' p List.mem_cons_self)
        (hvalues' p List.mem_cons_self _)]
    simp

/-- The depth of what is in a list. -/
lemma le_foldr_max {n : Nat} {ns : List Nat} (hn : n ∈ ns) : n ≤ ns.foldr max 0 := by
  induction ns with
  | nil => cases hn
  | cons m ns ih =>
    rw [List.foldr_cons]
    rcases List.mem_cons.mp hn with rfl | hn
    · exact Nat.le_max_left ..
    · exact Nat.le_trans (ih hn) (Nat.le_max_right ..)

/-- An array nests more deeply than its items. -/
lemma depth_lt_array {items : List Json} (hv : v ∈ items) : v.depth < (Json.array items).depth := by
  rw [depth.eq_def (.array items)]
  exact Nat.lt_succ_of_le (le_foldr_max (List.mem_map_of_mem hv))

/-- An object nests more deeply than its values. -/
lemma depth_lt_object {members : List (Bytes × Json)} {m : Bytes × Json} (hm : m ∈ members) :
    m.2.depth < (Json.object members).depth := by
  rw [depth.eq_def (.object members)]
  exact Nat.lt_succ_of_le (le_foldr_max (List.mem_map_of_mem hm))

/-- **A well-formed value is read back**, as long as it does not nest too deeply.

**Proof sketch.** By induction on the value. A container opens a frame on the stack, its parts are
read back one after another with this frame open, and its end closes the frame. -/
theorem WellFormed.readsBack (hv : WellFormed v) (hdepth : stack.length + v.depth ≤ maxDepth) :
    ReadsBack v stack := by
  induction hv generalizing stack with
  | null => exact readsBack_scalar (fun rest _ => (next?_word rest).1) stack
  | bool b => exact readsBack_scalar (fun rest _ => (next?_word rest).2 b) stack
  | number hl =>
    refine readsBack_scalar (fun rest hrest => ?_) stack
    rw [print]
    exact next?_number hl hrest
  | string hb =>
    refine readsBack_scalar (fun rest _ => ?_) stack
    rw [print]
    exact next?_quote hb rest
  | @array items _ ih =>
    intro await rest hopen hrest
    have hpush : begin? stack .beginArray = some (.array [] :: stack, .item) := by
      have hpos : 0 < (Json.array items).depth := by
        rw [depth.eq_def]
        exact Nat.succ_pos _
      exact if_pos (by omega)
    have hitems : ∀ v ∈ items, ∀ acc, ReadsBack v (.array acc :: stack) := by
      intro v hv acc
      have hlt := depth_lt_array hv
      refine ih v hv ?_
      rw [List.length_cons]
      omega
    rw [print_array, List.cons_append, List.append_assoc, List.singleton_append,
      resume?_step (next?_punctuation rfl _) (step?_of_begin? hopen hpush)]
    cases items with
    | nil => exact resume?_step (next?_punctuation rfl rest) rfl
    | cons v vs => exact resume?_items vs [] (.inr rfl) hitems rest
  | @object members hkeys _ ih =>
    intro await rest hopen hrest
    have hpush : begin? stack .beginObject = some (.object [] [] :: stack, .member) := by
      have hpos : 0 < (Json.object members).depth := by
        rw [depth.eq_def]
        exact Nat.succ_pos _
      exact if_pos (by omega)
    have hvalues : ∀ m ∈ members, ∀ acc, ReadsBack m.2 (.object acc m.1 :: stack) := by
      intro m hm acc
      have hlt := depth_lt_object hm
      refine ih m hm ?_
      rw [List.length_cons]
      omega
    rw [print_object, List.cons_append, List.append_assoc, List.singleton_append,
      resume?_step (next?_punctuation rfl _) (step?_of_begin? hopen hpush)]
    cases members with
    | nil => exact resume?_step (next?_punctuation rfl rest) rfl
    | cons m ms => exact resume?_members ms [] (.inl rfl) hkeys hvalues rest

/-- **A well-formed value is read back from its compact text.** -/
theorem read?_print (hv : WellFormed v) (hdepth : v.depth ≤ maxDepth) (hrest : Ends rest) :
    read? (print v ++ rest) = some (v, rest) := by
  have hreads : ReadsBack v [] := hv.readsBack (by simpa using hdepth)
  rw [read?, hreads _ _ (.inl rfl) hrest, resume?_done]

end Reading

/-! ## What is read -/

section Soundness

variable {stack stack' : List Frame} {await await' : Await} {token : Token} {s rest : Bytes}
  {v : Json}

/-- Whether a token can be a part of a well-formed value. -/
def Token.Sound : Token → Prop
  | .scalar v => WellFormed v
  | _ => True

/-- Whether an open container holds well-formed parts only. -/
def Frame.Sound : Frame → Prop
  | .array items => ∀ v ∈ items, WellFormed v
  | .object members key => (∀ m ∈ members, Body m.1 ∧ WellFormed m.2) ∧ Body key

/-- Whether what was read last is well-formed. -/
def Await.Sound : Await → Prop
  | .colon k => Body k
  | .next v => WellFormed v
  | _ => True

/-- The text of a token. -/
def Token.text : Token → Bytes
  | .beginArray => [byte '[']
  | .endArray => [byte ']']
  | .beginObject => [byte '{']
  | .endObject => [byte '}']
  | .comma => [byte ',']
  | .colon => [byte ':']
  | .scalar v => print v

/-- Whether a token is read wherever its text stands, unless it is a scalar and what follows could
continue a literal. -/
def Token.Readable (token : Token) : Prop :=
  ∀ rest, (∀ v, token = .scalar v → Ends rest) →
    Token.next? (token.text ++ rest) = some (token, rest)

/-- **The tokens that are read** are parts of well-formed values; they stand in the text behind some
blanks and are read there whatever follows. -/
lemma of_next? (h : Token.next? s = some (token, rest)) :
    token.Sound ∧ token.Readable ∧ s.dropWhile isBlank = token.text ++ rest := by
  rw [Token.next?] at h
  generalize s.dropWhile isBlank = t at h
  cases t with
  | nil => cases h
  | cons a t =>
    rw [Token.here?] at h
    split at h
    · rename_i htoken
      obtain ⟨rfl, rfl⟩ := Prod.mk.inj (Option.some.inj h)
      unfold Token.punctuation? at htoken
      repeat' split at htoken
      all_goals cases htoken
      all_goals exact ⟨trivial, fun rest _ => next?_punctuation rfl rest, by simp only [*]; rfl⟩
    split at h
    · rename_i hquote
      obtain ⟨⟨body, r⟩, hread, heq⟩ := Option.map_eq_some_iff.mp h
      obtain ⟨rfl, rfl⟩ := Prod.mk.inj heq
      obtain ⟨b, hb, rfl, rfl⟩ := body_of_body? hread
      refine ⟨.string hb, fun rest _ => ?_, ?_⟩
      · rw [Token.text, print]
        exact next?_quote hb rest
      · rw [Token.text, print, quote, hquote]
        simp
    split at h
    · obtain ⟨⟨l, r⟩, hread, heq⟩ := Option.map_eq_some_iff.mp h
      obtain ⟨rfl, rfl⟩ := Prod.mk.inj heq
      obtain ⟨hl, htext⟩ := literal_of_number? hread
      refine ⟨.number hl, fun rest hrest => ?_, ?_⟩
      · rw [Token.text, print]
        exact next?_number hl (hrest _ rfl)
      · rw [Token.text, print, htext]
    · obtain ⟨⟨w, r⟩, hread, heq⟩ := Option.map_eq_some_iff.mp h
      obtain ⟨rfl, rfl⟩ := Prod.mk.inj heq
      obtain ⟨⟨word, value⟩, hmem, hdrop⟩ := List.exists_of_findSome?_eq_some hread
      obtain ⟨r', hword, heq⟩ := Option.map_eq_some_iff.mp hdrop
      obtain ⟨rfl, rfl⟩ := Prod.mk.inj heq
      rw [Bytes.eq_append_of_dropPrefix? hword]
      simp only [Token.words, List.mem_cons, Prod.mk.injEq, List.not_mem_nil, or_false] at hmem
      rcases hmem with ⟨rfl, rfl⟩ | ⟨rfl, rfl⟩ | ⟨rfl, rfl⟩
      · exact ⟨.null, fun rest _ => (next?_word rest).1, by rw [Token.text, print]⟩
      · exact ⟨.bool true, fun rest _ => (next?_word rest).2 true, by rw [Token.text, print]⟩
      · exact ⟨.bool false, fun rest _ => (next?_word rest).2 false, by rw [Token.text, print]⟩

/-- The start of a value keeps all well-formed. -/
lemma sound_of_begin? (hstack : ∀ f ∈ stack, f.Sound) (htoken : token.Sound)
    (h : begin? stack token = some (stack', await')) :
    (∀ f ∈ stack', f.Sound) ∧ await'.Sound := by
  unfold begin? at h
  split at h
  · obtain ⟨rfl, rfl⟩ := Prod.mk.inj (Option.some.inj h)
    exact ⟨hstack, htoken⟩
  · rw [push?] at h
    split at h
    · obtain ⟨rfl, rfl⟩ := Prod.mk.inj (Option.some.inj h)
      exact ⟨List.forall_mem_cons.mpr ⟨nofun, hstack⟩, trivial⟩
    · cases h
  · rw [push?] at h
    split at h
    · obtain ⟨rfl, rfl⟩ := Prod.mk.inj (Option.some.inj h)
      exact ⟨List.forall_mem_cons.mpr ⟨⟨nofun, .nil⟩, hstack⟩, trivial⟩
    · cases h
  · cases h

/-- **A step of the reader keeps all well-formed.** -/
lemma sound_of_step? (hstack : ∀ f ∈ stack, f.Sound) (hawait : await.Sound) (htoken : token.Sound)
    (h : step? stack await token = some (stack', await')) :
    (∀ f ∈ stack', f.Sound) ∧ await'.Sound := by
  have harray : ∀ {vs : List Json}, (∀ w ∈ vs, WellFormed w) → WellFormed (.array vs.reverse) :=
    fun hvs => .array fun w hw => hvs w (List.mem_reverse.mp hw)
  have hobject : ∀ {ms : List (Bytes × Json)}, (∀ m ∈ ms, Body m.1 ∧ WellFormed m.2) →
      WellFormed (.object ms.reverse) := fun hms =>
    .object (fun m hm => (hms m (List.mem_reverse.mp hm)).1)
      fun m hm => (hms m (List.mem_reverse.mp hm)).2
  unfold step? at h
  split at h
  · exact sound_of_begin? hstack htoken h
  · obtain ⟨rfl, rfl⟩ := Prod.mk.inj (Option.some.inj h)
    exact ⟨(List.forall_mem_cons.mp hstack).2, .array nofun⟩
  · exact sound_of_begin? hstack htoken h
  · obtain ⟨rfl, rfl⟩ := Prod.mk.inj (Option.some.inj h)
    exact ⟨(List.forall_mem_cons.mp hstack).2, .object nofun nofun⟩
  · obtain ⟨rfl, rfl⟩ := Prod.mk.inj (Option.some.inj h)
    cases htoken with
    | string hb => exact ⟨hstack, hb⟩
  · obtain ⟨rfl, rfl⟩ := Prod.mk.inj (Option.some.inj h)
    cases htoken with
    | string hb => exact ⟨hstack, hb⟩
  · obtain ⟨rfl, rfl⟩ := Prod.mk.inj (Option.some.inj h)
    obtain ⟨⟨hmembers, -⟩, hrest⟩ := List.forall_mem_cons.mp hstack
    exact ⟨List.forall_mem_cons.mpr ⟨⟨hmembers, hawait⟩, hrest⟩, trivial⟩
  · obtain ⟨rfl, rfl⟩ := Prod.mk.inj (Option.some.inj h)
    obtain ⟨hitems, hrest⟩ := List.forall_mem_cons.mp hstack
    exact ⟨List.forall_mem_cons.mpr ⟨List.forall_mem_cons.mpr ⟨hawait, hitems⟩, hrest⟩, trivial⟩
  · obtain ⟨rfl, rfl⟩ := Prod.mk.inj (Option.some.inj h)
    obtain ⟨hitems, hrest⟩ := List.forall_mem_cons.mp hstack
    exact ⟨hrest, harray (List.forall_mem_cons.mpr ⟨hawait, hitems⟩)⟩
  · obtain ⟨rfl, rfl⟩ := Prod.mk.inj (Option.some.inj h)
    obtain ⟨⟨hmembers, hkey⟩, hrest⟩ := List.forall_mem_cons.mp hstack
    refine ⟨List.forall_mem_cons.mpr ⟨⟨?_, hkey⟩, hrest⟩, trivial⟩
    exact List.forall_mem_cons.mpr ⟨⟨hkey, hawait⟩, hmembers⟩
  · obtain ⟨rfl, rfl⟩ := Prod.mk.inj (Option.some.inj h)
    obtain ⟨⟨hmembers, hkey⟩, hrest⟩ := List.forall_mem_cons.mp hstack
    exact ⟨hrest, hobject (List.forall_mem_cons.mpr ⟨⟨hkey, hawait⟩, hmembers⟩)⟩
  · cases h

/-- What is read with well-formed parts at hand is well-formed. -/
lemma wellFormed_of_resume? (hstack : ∀ f ∈ stack, f.Sound) (hawait : await.Sound)
    (h : resume? stack await s = some (v, rest)) : WellFormed v := by
  fun_induction resume? stack await s with
  | case1 w s =>
    obtain ⟨rfl, -⟩ := Prod.mk.inj (Option.some.inj h)
    exact hawait
  | case2 => cases h
  | case3 stack await s token s' hnext hstep =>
    rw [hstep] at h
    cases h
  | case4 stack await s token s' hnext stack' await' hstep _ ih =>
    obtain ⟨hstack', hawait'⟩ := sound_of_step? hstack hawait (of_next? hnext).1 hstep
    rw [hstep] at h
    exact ih hstack' hawait' h

/-- **What is read is well-formed.** -/
theorem wellFormed_of_read? (h : read? s = some (v, rest)) : WellFormed v := by
  have hstack : ∀ f ∈ ([] : List Frame), f.Sound := nofun
  have hawait : Await.value.Sound := trivial
  exact wellFormed_of_resume? hstack hawait h

/-- The value of a whole text is well-formed. -/
lemma wellFormed_of_parse? (h : parse? s = some v) : WellFormed v := by
  unfold parse? at h
  split at h
  · rename_i hread
    split at h
    · obtain rfl := Option.some.inj h
      exact wellFormed_of_read? hread
    · cases h
  · cases h

end Soundness

/-! ## Texts of well-formed values -/

section Texts

variable {v : Json} {a : UInt8}

/-- What holds of the parts and the separator holds of the joined parts. -/
lemma forall_mem_join {P : UInt8 → Prop} {sep : Bytes} {parts : List Bytes} (hsep : ∀ a ∈ sep, P a)
    (hparts : ∀ p ∈ parts, ∀ a ∈ p, P a) : ∀ a ∈ Bytes.join sep parts, P a := by
  induction parts with
  | nil => nofun
  | cons p parts ih =>
    obtain ⟨hp, hparts⟩ := List.forall_mem_cons.mp hparts
    cases parts with
    | nil =>
      rw [join_singleton]
      exact hp
    | cons q parts =>
      rw [join_cons_cons]
      exact List.forall_mem_append.mpr ⟨hp, List.forall_mem_append.mpr ⟨hsep, ih hparts⟩⟩

/-- A text that is tested byte by byte has no control character. -/
lemma le_of_all {s : Bytes} (h : s.all (fun a => decide (0x20 ≤ a)) = true) : ∀ a ∈ s, 0x20 ≤ a :=
  fun a ha => of_decide_eq_true (List.all_eq_true.mp h a ha)

/-- **There is no control character in a compact text.** -/
theorem WellFormed.le_of_mem_print (hv : WellFormed v) : ∀ a ∈ print v, 0x20 ≤ a := by
  induction hv with
  | null =>
    rw [print]
    exact le_of_all (by decide)
  | bool b =>
    cases b with
    | false =>
      rw [print]
      exact le_of_all (by decide)
    | true =>
      rw [print]
      exact le_of_all (by decide)
  | number hl =>
    rw [print]
    exact fun a ha => UInt8.le_of_lt (hl.lt_of_mem ha)
  | string hb =>
    rw [print, quote]
    exact List.forall_mem_append.mpr ⟨List.forall_mem_cons.mpr
      ⟨by decide, fun a ha => hb.le_of_mem ha⟩, le_of_all (by decide)⟩
  | array _ ih =>
    rw [print_array]
    refine List.forall_mem_cons.mpr
      ⟨by decide, List.forall_mem_append.mpr ⟨?_, le_of_all (by decide)⟩⟩
    exact forall_mem_join (le_of_all (by decide)) (List.forall_mem_map.mpr ih)
  | object hkeys _ ih =>
    rw [print_object]
    refine List.forall_mem_cons.mpr
      ⟨by decide, List.forall_mem_append.mpr ⟨?_, le_of_all (by decide)⟩⟩
    refine forall_mem_join (le_of_all (by decide)) (List.forall_mem_map.mpr fun m hm => ?_)
    rw [printMember, quote]
    refine List.forall_mem_append.mpr ⟨List.forall_mem_append.mpr ⟨List.forall_mem_cons.mpr
      ⟨by decide, fun a ha => (hkeys m hm).le_of_mem ha⟩, le_of_all (by decide)⟩, ?_⟩
    exact List.forall_mem_cons.mpr ⟨by decide, ih m hm⟩

/-- A compact text starts with no blank. -/
lemma WellFormed.print_cons (hv : WellFormed v) : ∃ a s, print v = a :: s ∧ isBlank a = false := by
  cases hv with
  | null => exact ⟨_, _, by rw [print]; rfl, by decide⟩
  | bool b =>
    cases b with
    | false => exact ⟨_, _, by rw [print]; rfl, by decide⟩
    | true => exact ⟨_, _, by rw [print]; rfl, by decide⟩
  | number hl =>
    obtain ⟨a, t, rfl, ha⟩ := hl.exists_cons
    exact ⟨a, t, by rw [print], (of_begins_number ha).1⟩
  | string => exact ⟨_, _, by rw [print, quote]; rfl, by decide⟩
  | array => exact ⟨_, _, print_array _, by decide⟩
  | object => exact ⟨_, _, print_object _, by decide⟩

/-- **Shielding keeps a value well-formed.** -/
theorem WellFormed.shield (hv : WellFormed v) : WellFormed v.shield := by
  induction hv with
  | null =>
    rw [Json.shield.eq_def]
    exact .null
  | bool b =>
    rw [Json.shield.eq_def]
    exact .bool b
  | number hl =>
    rw [Json.shield.eq_def]
    exact .number hl
  | string hb =>
    rw [Json.shield]
    exact .string hb.shieldBody
  | array _ ih =>
    rw [Json.shield]
    exact .array (List.forall_mem_map.mpr ih)
  | object hkeys _ ih =>
    rw [Json.shield]
    exact .object (List.forall_mem_map.mpr fun m hm => (hkeys m hm).shieldBody)
      (List.forall_mem_map.mpr ih)

end Texts

end LintPool.Json
