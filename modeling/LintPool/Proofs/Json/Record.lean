import LintPool.Json.Record
import LintPool.Proofs.Json.Value

/-!
# Records are read back from their members

The fields of a record have names of plain ASCII characters, no two of which differ in case only.
Hence a member whose key is such a name is read into the field of this name and into no other, and
the source text of each member of a printed object is the compact text of its value.

## Main definitions

* `LintPool.Json.IsName` : texts that can be names of fields.
* `LintPool.Json.Fits` : well-formed values that do not nest too deeply.
* `LintPool.Json.Separate` : fields whose names keep them apart.

## Main results

* `LintPool.Json.Separate.readMember` : a member is read into the field that its key names.
* `LintPool.Json.readItems_map` : the items of a list are read back.
* `LintPool.Json.sourceMembers_print` : the members of a printed object with their source texts.
-/

namespace LintPool

/-! ## ASCII texts -/

section Ascii

variable {a : UInt8} {s : Bytes}

/-- An ASCII byte is a character of its own. -/
lemma Utf8.head?_of_lt (ha : a.toNat < 128) (s : Bytes) :
    Utf8.head? (a :: s) = some (Char.ofNat a.toNat, s) := by
  rw [Utf8.head?_cons, if_pos ha]

/-- The characters of an ASCII text are its bytes. -/
lemma Utf8.scalars_of_lt (hs : ∀ a ∈ s, a.toNat < 128) :
    Utf8.scalars s = s.map fun a => Char.ofNat a.toNat := by
  induction s with
  | nil => exact Utf8.scalarsAux_nil []
  | cons a s ih =>
    obtain ⟨ha, hs⟩ := List.forall_mem_cons.mp hs
    rw [Utf8.scalars_of_head? (Utf8.head?_of_lt ha s), ih hs, List.map_cons]

/-- An ASCII text is valid. -/
lemma Utf8.isValid_of_lt (hs : ∀ a ∈ s, a.toNat < 128) : Utf8.isValid s = true := by
  induction s with
  | nil =>
    rw [Utf8.isValid]
    rfl
  | cons a s ih =>
    obtain ⟨ha, hs⟩ := List.forall_mem_cons.mp hs
    rw [Utf8.isValid]
    split
    · rename_i heq
      obtain ⟨-, rfl⟩ := Prod.mk.inj (Option.some.inj (heq.symm.trans (Utf8.head?_of_lt ha s)))
      exact ih hs
    · rename_i heq
      cases heq.symm.trans (Utf8.head?_of_lt ha s)

/-- The encoding of an ASCII character is its byte. -/
lemma Utf8.encode_charOfNat (ha : a.toNat < 128) : Utf8.encode (Char.ofNat a.toNat) = [a] := by
  have hself : (Char.ofNat a.toNat).toNat = a.toNat := Utf8.toNat_charOfNat (by omega)
  rw [Utf8.encode_of_lt (by omega), byte, hself]
  exact congrArg (fun b => [b]) (UInt8.ofNat_toNat ..)

end Ascii

namespace Json

/-! ## Names -/

section Names

variable {s : Bytes}

/-- Whether a text is made of plain ASCII characters, as the names of fields are. -/
def IsName (s : Bytes) : Prop := ∀ a ∈ s, IsPlain a ∧ a.toNat < 128

instance (s : Bytes) : Decidable (IsName s) :=
  List.decidableBAll (fun a => IsPlain a ∧ a.toNat < 128) s

/-- A name needs no escapes. -/
lemma IsName.body (hs : IsName s) : Body s := by
  have hplain := Body.append_plain (fun a ha => (hs a ha).1) Body.nil
  rwa [List.append_nil] at hplain

/-- A name means itself. -/
lemma IsName.unescape (hs : IsName s) : unescape s = s := by
  induction s with
  | nil => exact unescape_nil
  | cons a s ih =>
    obtain ⟨⟨hplain, ha⟩, hs⟩ := List.forall_mem_cons.mp hs
    have hencode := Utf8.encode_charOfNat ha
    have hslash : Char.ofNat a.toNat ≠ '\\' := by
      intro heq
      rw [heq] at hencode
      exact hplain.2.1 (List.singleton_inj.mp hencode).symm
    have hhead := unescapeHead_encode hslash s
    rw [hencode, List.singleton_append] at hhead
    rw [unescape_eq hhead (List.cons_ne_nil a s), ih hs, List.singleton_append]

/-- A name is folded byte by byte. -/
lemma IsName.foldText (hs : IsName s) :
    CaseFold.foldText s = s.map fun a => CaseFold.fold (Char.ofNat a.toNat) := by
  rw [CaseFold.foldText, Utf8.scalars_of_lt fun a ha => (hs a ha).2, List.map_map,
    Function.comp_def]

end Names

/-! ## Values that fit -/

section Fits

variable {n : Nat} {s : Bytes} {v : Json} {key : String} {ms : List (Bytes × Json)}

/-- Whether a value is well-formed and nests at most `n` containers. -/
structure Fits (n : Nat) (v : Json) : Prop where
  wellFormed : WellFormed v
  depth_le : v.depth ≤ n

/-- Whether the keys of some members are names and their values fit. -/
def MembersFit (n : Nat) (ms : List (Bytes × Json)) : Prop := ∀ m ∈ ms, IsName m.1 ∧ Fits n m.2

/-- A text fits everywhere. -/
lemma fits_text (n : Nat) (s : Bytes) : Fits n (.text s) where
  wellFormed := .string (body_escape s)
  depth_le := by
    rw [text, depth.eq_def]
    exact Nat.zero_le n

/-- An integer fits everywhere. -/
lemma fits_int (n : Nat) (k : Int) : Fits n (.int k) where
  wellFormed := .number (literal_decimal k)
  depth_le := by
    rw [int, depth.eq_def]
    exact Nat.zero_le n

/-- A truth value fits everywhere. -/
lemma fits_bool (n : Nat) (b : Bool) : Fits n (.bool b) where
  wellFormed := .bool b
  depth_le := by
    rw [depth.eq_def]
    exact Nat.zero_le n

/-- An array adds a level to its items. -/
lemma fits_array {items : List Json} (h : ∀ v ∈ items, Fits n v) : Fits (n + 1) (.array items) where
  wellFormed := .array fun v hv => (h v hv).wellFormed
  depth_le := by
    rw [depth.eq_def]
    refine Nat.succ_le_succ ?_
    induction items with
    | nil => exact Nat.zero_le n
    | cons v items ih =>
      obtain ⟨hv, hitems⟩ := List.forall_mem_cons.mp h
      exact Nat.max_le.mpr ⟨hv.depth_le, ih hitems⟩

/-- An object adds a level to its values. -/
lemma MembersFit.object (h : MembersFit n ms) : Fits (n + 1) (.object ms) where
  wellFormed := .object (fun m hm => (h m hm).1.body) fun m hm => (h m hm).2.wellFormed
  depth_le := by
    rw [depth.eq_def]
    refine Nat.succ_le_succ ?_
    induction ms with
    | nil => exact Nat.zero_le n
    | cons m ms ih =>
      obtain ⟨hm, hms⟩ := List.forall_mem_cons.mp h
      exact Nat.max_le.mpr ⟨hm.2.depth_le, ih hms⟩

/-- There is a first member that fits. -/
lemma MembersFit.cons (hkey : IsName (utf8 key)) (hv : Fits n v) (hms : MembersFit n ms) :
    MembersFit n (member key v :: ms) :=
  List.forall_mem_cons.mpr ⟨⟨hkey, hv⟩, hms⟩

/-- No member is one that does not fit. -/
lemma MembersFit.nil : MembersFit n [] := nofun

/-- A value that fits at a level fits at a greater one. -/
lemma Fits.mono {m : Nat} (hv : Fits n v) (hnm : n ≤ m) : Fits m v where
  wellFormed := hv.wellFormed
  depth_le := Nat.le_trans hv.depth_le hnm

/-- A value that fits is read back from its compact text, up to the end. -/
lemma Fits.read?_print (hv : Fits maxDepth v) : read? (print v) = some (v, []) := by
  have hread : read? (print v ++ []) = some (v, []) :=
    Json.read?_print hv.wellFormed hv.depth_le nofun
  rwa [List.append_nil] at hread

/-- A value that fits is read back from its compact text. -/
lemma Fits.parse?_print (hv : Fits maxDepth v) : parse? (print v) = some v := by
  rw [parse?, hv.read?_print]
  rfl

end Fits

/-! ## Fields -/

section Fields

variable {σ ε : Type} {fields : List (Field σ ε)} {f : Field σ ε}

/-- Whether fields have names that keep them apart regardless of case. -/
structure Separate (fields : List (Field σ ε)) : Prop where
  isName : ∀ f ∈ fields, IsName f.name
  apart : (fields.map fun f => f.name.map fun a => CaseFold.fold (Char.ofNat a.toNat)).Nodup

/-- A field is found by its name. -/
lemma Separate.lookupField (hfields : Separate fields) (hf : f ∈ fields) :
    lookupField fields f.name = some f := by
  obtain ⟨hnames, hapart⟩ := hfields
  have hname := hnames f hf
  induction fields with
  | nil => cases hf
  | cons g fields ih =>
    obtain ⟨hg, hnames⟩ := List.forall_mem_cons.mp hnames
    rw [List.map_cons, List.nodup_cons] at hapart
    rw [Json.lookupField, List.find?_cons]
    rcases List.mem_cons.mp hf with rfl | hf
    · rw [CaseFold.eqFold, beq_self_eq_true]
    · have hne : CaseFold.eqFold g.name f.name = false := by
        rw [CaseFold.eqFold, hg.foldText, hname.foldText, beq_eq_false_iff_ne]
        intro heq
        refine hapart.1 ?_
        rw [heq]
        exact List.mem_map_of_mem hf
      rw [hne]
      exact ih hf hnames hapart.2

/-- **A member is read into the field that its key names.** -/
theorem Separate.readMember (hfields : Separate fields) (hf : f ∈ fields) (mode : Strictness)
    (record : σ) (v : Json) :
    readMember mode fields record (f.name, v) =
      (f.set record v).mapError (·.fault (namesOf fields) (f.name, v)) := by
  simp only [Json.readMember, (hfields.isName f hf).unescape]
  rw [hfields.lookupField hf]

/-- A member that its field takes is read. -/
lemma Separate.readMember_of_set (hfields : Separate fields) (hf : f ∈ fields) (mode : Strictness)
    {record record' : σ} {v : Json} (hset : f.set record v = .ok record') :
    Json.readMember mode fields record (f.name, v) = .ok record' := by
  rw [hfields.readMember hf, hset]
  rfl

end Fields

/-- A record whose next member is read goes on with the rest. -/
lemma foldlM_cons_of_ok {α β ε : Type} {f : β → α → Except ε β} {a : α} {b b' : β} {as : List α}
    (h : f b a = .ok b') : (a :: as).foldlM f b = as.foldlM f b' := by
  rw [List.foldlM_cons, h]
  rfl

/-- A valid text is read back from its value. -/
lemma unescape_escape_of_isValid {s : Bytes} (hs : Utf8.isValid s = true) :
    unescape (escape s) = s := by
  rw [unescape_escape, Utf8.mend_of_isValid hs]

/-- An integer is read back from its value. -/
lemma Field.integer?_int (old : Option Int64) (n : Int64) :
    Field.integer? old (.int n.toInt) = some (some n) := by
  rw [int, Field.integer?, integer?_decimal, Option.map_some]

/-! ## Lists -/

/-- **The items of a list are read back**, each as `back` says. -/
theorem readItems_map {α ε : Type} {read : α → Json → Except ε α} {fresh : α} {write : α → Json}
    {xs : List α} (back : α → α) (hread : ∀ x ∈ xs, read fresh (write x) = .ok (back x))
    (acc : List α) :
    readItems read fresh acc [] (xs.map write) = .ok { items := acc.reverse ++ xs.map back } := by
  induction xs generalizing acc with
  | nil => rw [List.map_nil, readItems, ite_self, List.map_nil, List.append_nil]
  | cons x xs ih =>
    obtain ⟨hx, hxs⟩ := List.forall_mem_cons.mp hread
    rw [List.map_cons, readItems, hx]
    change readItems read fresh (back x :: acc) [] (xs.map write) = _
    rw [ih hxs, List.reverse_cons, List.append_assoc, List.singleton_append, List.map_cons]

/-! ## Members with their source texts -/

section Sources

variable {v : Json} {m : Bytes × Json} {ms : List (Bytes × Json)} {rest : Bytes}

/-- A member together with the source text of its value, if it was printed. -/
def sourceMember (m : Bytes × Json) : Bytes × Bytes := (m.1, print m.2)

/-- The text of members is no shorter than their list. -/
lemma length_le_join_printMember (ms : List (Bytes × Json)) :
    ms.length ≤ (Bytes.join [byte ','] (ms.map printMember)).length := by
  induction ms with
  | nil => exact Nat.zero_le _
  | cons m ms ih =>
    cases ms with
    | nil =>
      rw [List.map_singleton, join_singleton, printMember, quote]
      simp
    | cons p ms =>
      rw [List.map_cons, List.map_cons, join_cons_cons]
      rw [List.map_cons] at ih
      simp only [List.length_append, List.length_cons] at ih ⊢
      omega

/-- Where a value was printed, its source text is its compact text. -/
lemma take_print (v : Json) (rest : Bytes) :
    (print v ++ rest).take ((print v ++ rest).length - rest.length) = print v := by
  rw [List.length_append, Nat.add_sub_cancel, List.take_left]

/-- A printed member is read with its source text, and then what follows it is looked at. -/
lemma sourceMembersAux_member (hkey : Body m.1) (hvalue : WellFormed m.2)
    (hdepth : m.2.depth ≤ maxDepth) (hrest : Ends rest) (fuel : Nat) (acc : List (Bytes × Bytes)) :
    sourceMembersAux (fuel + 1) acc (printMember m ++ rest) =
      match Token.next? rest with
      | some (.comma, s) => sourceMembersAux fuel (sourceMember m :: acc) s
      | _ => (sourceMember m :: acc).reverse := by
  have hblank : (print m.2 ++ rest).dropWhile isBlank = print m.2 ++ rest := by
    obtain ⟨a, s, heq, ha⟩ := hvalue.print_cons
    rw [heq, List.cons_append, List.dropWhile_cons_of_neg (by rw [ha]; decide)]
  rw [sourceMembersAux, printMember, List.append_assoc, next?_quote hkey]
  simp only [List.cons_append]
  rw [next?_punctuation rfl]
  simp only [hblank, read?_print hvalue hdepth hrest, take_print]
  rfl

/-- Printed members are read with their source texts. -/
lemma sourceMembersAux_printMember (hkeys : ∀ m ∈ ms, Body m.1) (hvalues : ∀ m ∈ ms, WellFormed m.2)
    (hdepth : ∀ m ∈ ms, m.2.depth ≤ maxDepth) {fuel : Nat} (hfuel : ms.length ≤ fuel)
    (acc : List (Bytes × Bytes)) (rest : Bytes) :
    sourceMembersAux fuel acc (Bytes.join [byte ','] (ms.map printMember) ++ byte '}' :: rest) =
      acc.reverse ++ ms.map sourceMember := by
  induction ms generalizing fuel acc with
  | nil =>
    rw [List.map_nil, List.map_nil, List.append_nil]
    cases fuel with
    | zero => rw [sourceMembersAux]
    | succ fuel =>
      change sourceMembersAux _ _ (byte '}' :: rest) = _
      rw [sourceMembersAux, next?_punctuation rfl]
  | cons m ms ih =>
    obtain ⟨hkey, hkeys⟩ := List.forall_mem_cons.mp hkeys
    obtain ⟨hvalue, hvalues⟩ := List.forall_mem_cons.mp hvalues
    obtain ⟨hm, hdepth⟩ := List.forall_mem_cons.mp hdepth
    obtain ⟨fuel, rfl⟩ : ∃ k, fuel = k + 1 :=
      Nat.exists_eq_add_one.mpr (Nat.lt_of_lt_of_le (Nat.succ_pos _) hfuel)
    cases ms with
    | nil =>
      rw [List.map_singleton, join_singleton,
        sourceMembersAux_member hkey hvalue hm (ends_punctuation (by decide) rest),
        next?_punctuation rfl]
      exact List.reverse_cons
    | cons p ms =>
      rw [List.map_cons, List.map_cons, join_cons_cons, List.append_assoc, List.append_assoc,
        List.singleton_append,
        sourceMembersAux_member hkey hvalue hm (ends_punctuation (by decide) _),
        next?_punctuation rfl]
      have hrest := ih hkeys hvalues hdepth (Nat.le_of_succ_le_succ hfuel) (sourceMember m :: acc)
      rw [List.map_cons] at hrest
      refine hrest.trans ?_
      rw [List.reverse_cons, List.append_assoc]
      rfl

/-- **The source text of a member of a printed object is the compact text of its value.** -/
theorem sourceMembers_print (hv : WellFormed (.object ms)) (hdepth : ∀ m ∈ ms, m.2.depth ≤ maxDepth)
    (rest : Bytes) : sourceMembers (print (.object ms) ++ rest) = ms.map sourceMember := by
  have hlength := length_le_join_printMember ms
  cases hv with
  | object hkeys hvalues =>
    rw [sourceMembers, print_object, List.cons_append, next?_punctuation rfl, List.append_assoc,
      List.singleton_append]
    refine sourceMembersAux_printMember hkeys hvalues hdepth ?_ [] rest
    rw [List.length_append]
    omega

end Sources

end Json

end LintPool
