import LintPool.Proofs.Json.Length
import LintPool.Proofs.Json.Record
import LintPool.Text.Quoted

/-!
# Names in error messages

A key that no field has is named in the error message: it is unescaped, quoted, and escaped again
when the message is sent. The worst that can happen to a byte of the key is that it becomes an
escape by code, which has six bytes.

## Main definitions

* `LintPool.Json.Inert` : the texts that are their own escapes.

## Main results

* `LintPool.Json.length_escape_le` : how long an escaped text is.
* `LintPool.Json.Body.length_escape_quoted_le` : how long a quoted key is when it is escaped again.
-/

namespace LintPool.Json

/-! ## The length of escapes -/

section Length

variable {a : UInt8} {c : Char} {p s : Bytes}

/-- An encoded character has at most four bytes. -/
lemma length_encode_le (c : Char) : (Utf8.encode c).length ≤ 4 := by
  rw [Utf8.encode_eq rfl]
  split_ifs <;> simp

/-- An encoded character outside of ASCII has at least two bytes. -/
lemma two_le_length_encode (hc : 128 ≤ c.toNat) : 2 ≤ (Utf8.encode c).length := by
  rw [Utf8.encode_eq rfl, if_neg (by omega)]
  split_ifs <;> simp

/-- An escape has at most six bytes. -/
lemma length_escapeChar_le (c : Char) : (escapeChar c).length ≤ 6 := by
  have hencode := length_encode_le c
  unfold escapeChar
  split_ifs
  · simp
  · decide
  · decide
  · decide
  · decide
  · decide
  · exact Nat.le_refl 6
  · omega

/-- **An escaped text** is at most six times as long as the text. -/
theorem length_escape_le (s : Bytes) : (escape s).length ≤ 6 * s.length := by
  induction s using text_induction with
  | nil => simp
  | character s c rest h ih =>
    have hescape := length_escapeChar_le c
    have hlt := Utf8.length_of_head? h
    rw [escape_of_head? h, List.length_append]
    omega
  | damaged a s h ih =>
    have hescape := length_escapeChar_le Utf8.replacement
    rw [escape_of_damaged h, List.length_append, List.length_cons]
    omega

/-- The escape of an encoded character in front of a text. -/
lemma escape_encode_append (c : Char) (s : Bytes) :
    escape (Utf8.encode c ++ s) = escapeChar c ++ escape s :=
  escape_of_head? (Utf8.head?_encode_append c s)

/-- The escape of an encoded character. -/
lemma escape_encode (c : Char) : escape (Utf8.encode c) = escapeChar c := by
  have hescape := escape_encode_append c []
  rwa [List.append_nil, escape_nil, List.append_nil] at hescape

/-- Whether a byte is an ASCII character that is its own escape. -/
def isInert (a : UInt8) : Bool := 0x20 ≤ a && a < 0x80 && !(utf8 "\"\\<>&").contains a

/-- Such a byte is written as it is. -/
lemma escapeChar_of_isInert (ha : isInert a = true) :
    a.toNat < 128 ∧ escapeChar (Char.ofNat a.toNat) = [a] :=
  Utf8.forall_byte (P := fun a => isInert a = true →
    a.toNat < 128 ∧ escapeChar (Char.ofNat a.toNat) = [a]) (by decide +kernel) a ha

/-- Whether a text is its own escape, byte by byte. -/
def Inert (p : Bytes) : Prop := p.all isInert = true

instance (p : Bytes) : Decidable (Inert p) := inferInstanceAs (Decidable (_ = _))

/-- The bytes of such a text. -/
lemma Inert.of_mem (hp : Inert p) (ha : a ∈ p) :
    a.toNat < 128 ∧ escapeChar (Char.ofNat a.toNat) = [a] :=
  escapeChar_of_isInert (List.all_eq_true.mp hp a ha)

/-- Two such texts make one. -/
lemma Inert.append (hp : Inert p) (hs : Inert s) : Inert (p ++ s) := by
  rw [Inert, List.all_append, hp, hs]
  rfl

/-- The escapes of ASCII characters in front of a text. -/
lemma escape_append_of_lt (hp : ∀ a ∈ p, a.toNat < 128) (s : Bytes) :
    escape (p ++ s) = p.flatMap (fun a => escapeChar (Char.ofNat a.toNat)) ++ escape s := by
  induction p with
  | nil => rfl
  | cons a p ih =>
    obtain ⟨ha, hp⟩ := List.forall_mem_cons.mp hp
    rw [List.cons_append, escape_of_head? (Utf8.head?_of_lt ha _), ih hp, List.flatMap_cons,
      List.append_assoc]

/-- A text that is its own escape, in front of another one. -/
lemma Inert.escape_append (hp : Inert p) (s : Bytes) : escape (p ++ s) = p ++ escape s := by
  have hself : p.flatMap (fun a => escapeChar (Char.ofNat a.toNat)) = p.flatMap fun a => [a] :=
    List.flatMap_congr fun a ha => (hp.of_mem ha).2
  rw [escape_append_of_lt fun a ha => (hp.of_mem ha).1, hself, List.flatMap_singleton']

/-- The length of such a text and what follows it, when it is escaped. -/
lemma Inert.length_escape_append (hp : Inert p) (s : Bytes) :
    (escape (p ++ s)).length = p.length + (escape s).length := by
  rw [hp.escape_append, List.length_append]

/-- The length of such a text alone. -/
lemma Inert.length_escape (hp : Inert p) : (escape p).length = p.length := by
  have hlength := hp.length_escape_append []
  rwa [List.append_nil, escape_nil, List.length_nil, Nat.add_zero] at hlength

/-- A hexadecimal digit is its own escape. -/
lemma inert_hexDigit (n : Nat) : Inert [Bytes.hexDigit n] := by
  have hall : ∀ k < 16, Inert [byte (Nat.digitChar k)] := by decide
  exact hall (n % 16) (Nat.mod_lt n (by decide))

/-- Hexadecimal digits are their own escapes. -/
lemma inert_hex (width n : Nat) : Inert (Bytes.hex width n) := by
  induction width generalizing n with
  | zero => rfl
  | succ width ih => exact (ih (n / 16)).append (inert_hexDigit n)

/-- The number of hexadecimal digits. -/
lemma length_hex (width n : Nat) : (Bytes.hex width n).length = width := by
  induction width generalizing n with
  | zero => rfl
  | succ width ih => rw [Bytes.hex, List.length_append, ih]; rfl

end Length

/-! ## Quoted texts -/

section Quoting

variable {c : Char} {p s rest : Bytes}

/-- A valid text is escaped by itself, whatever follows it. -/
lemma escape_append_of_isValid (hp : Utf8.isValid p = true) (s : Bytes) :
    escape (p ++ s) = escape p ++ escape s := by
  fun_induction Utf8.isValid p with
  | case1 p c rest hhead ih =>
    obtain rfl := Utf8.eq_encode_append_of_head? hhead
    rw [List.append_assoc, escape_encode_append, escape_encode_append, ih hp, List.append_assoc]
  | case2 p =>
    obtain rfl := List.isEmpty_iff.mp hp
    rw [escape_nil]
    rfl

/-- An encoded character is valid text. -/
lemma isValid_encode (c : Char) : Utf8.isValid (Utf8.encode c) = true := by
  have hvalid := Utf8.isValid_encodeAll [c]
  rwa [Utf8.encodeAll, List.flatMap_singleton] at hvalid

/-- A character outside of ASCII stands for itself between quotes or is written by its code. -/
lemma char_of_le (hc : 128 ≤ c.toNat) :
    Quoted.char c = Utf8.encode c ∨
      ∃ lead ∈ [utf8 "u", utf8 "U"], ∃ width ≤ 8,
        Quoted.char c = byte '\\' :: (lead ++ Bytes.hex width c.toNat) := by
  have hquote : ¬ (c = '"' ∨ c = '\\') := by
    rintro (rfl | rfl)
    · exact absurd hc (by decide)
    · exact absurd hc (by decide)
  have hshort : Quoted.short? c = none := by
    unfold Quoted.short?
    split
    case h_8 => rfl
    all_goals omega
  rw [Quoted.char, if_neg hquote]
  split
  · exact .inl rfl
  · rw [hshort]
    simp only
    rw [if_neg (by omega)]
    split
    · exact .inr ⟨_, .head _, 4, by decide, rfl⟩
    · exact .inr ⟨_, .tail _ (.head _), 8, by decide, rfl⟩

/-- Whether a character is printable that is not below 127, as the table has it. -/
lemma isPrintable_of_le (hc : 0x7F ≤ c.toNat) :
    isPrintable c = Printable.ranges.toList.any fun r => r.1 ≤ c.toNat && c.toNat ≤ r.2 := by
  rw [isPrintable, if_neg (Nat.not_lt.mpr hc), Array.any_toList]

/-- The last character of ASCII is not printable. -/
lemma char_delete : Quoted.char (Char.ofNat 0x7F) = utf8 "\\x7f" := by
  have hprintable : isPrintable (Char.ofNat 0x7F) = false := by
    rw [isPrintable_of_le (by decide)]
    decide +kernel
  rw [Quoted.char, if_neg (by decide), hprintable]
  decide

/-- The character that stands for a damaged byte is printable. -/
lemma char_replacement : Quoted.char Utf8.replacement = Utf8.encode Utf8.replacement := by
  have hprintable : isPrintable Utf8.replacement = true := by
    rw [isPrintable_of_le (by decide)]
    decide +kernel
  rw [Quoted.char, if_neg (by decide), hprintable, if_pos rfl]

/-- The characters of ASCII between quotes. -/
lemma char_of_lt (hc : c.toNat < 128) :
    (Quoted.char c).all (·.toNat < 128) = true ∧
      ((Quoted.char c).flatMap fun a => escapeChar (Char.ofNat a.toNat)).length ≤ 6 := by
  rw [← Char.ofNat_toNat c]
  rcases Nat.lt_or_ge c.toNat 0x7F with hlt | hge
  · have hall : ∀ k < 0x7F, (Quoted.char (Char.ofNat k)).all (·.toNat < 128) = true ∧
        ((Quoted.char (Char.ofNat k)).flatMap fun a =>
          escapeChar (Char.ofNat a.toNat)).length ≤ 6 := by decide +kernel
    exact hall c.toNat hlt
  · rw [show c.toNat = 0x7F by omega, char_delete]
    decide

/-- **A character between quotes** is valid text, and becomes at most eleven bytes when it is
escaped; if it is one of ASCII, at most six. -/
lemma escape_char (c : Char) :
    Utf8.isValid (Quoted.char c) = true ∧
      (escape (Quoted.char c)).length ≤ if c.toNat < 128 then 6 else 11 := by
  by_cases hc : c.toNat < 128
  · obtain ⟨hall, hlength⟩ := char_of_lt hc
    have hascii : ∀ a ∈ Quoted.char c, a.toNat < 128 := by simpa using hall
    have hescape := escape_append_of_lt hascii []
    rw [List.append_nil, escape_nil, List.append_nil] at hescape
    rw [if_pos hc, hescape]
    exact ⟨Utf8.isValid_of_lt hascii, hlength⟩
  rw [if_neg hc]
  rcases char_of_le (Nat.not_lt.mp hc) with hchar | ⟨lead, hlead, width, hwidth, hchar⟩
  · have hle := length_escapeChar_le c
    rw [hchar, escape_encode]
    exact ⟨isValid_encode c, by omega⟩
  · have hinert : Inert (lead ++ Bytes.hex width c.toNat) := by
      have hall : ∀ lead ∈ [utf8 "u", utf8 "U"], Inert lead := by decide
      exact (hall lead hlead).append (inert_hex width c.toNat)
    have hlength : (lead ++ Bytes.hex width c.toNat).length ≤ 9 := by
      have hall : ∀ lead ∈ [utf8 "u", utf8 "U"], lead.length = 1 := by decide
      rw [List.length_append, hall lead hlead, length_hex]
      omega
    rw [hchar]
    generalize lead ++ Bytes.hex width c.toNat = p at hinert hlength
    constructor
    · refine Utf8.isValid_of_lt (List.forall_mem_cons.mpr ⟨by decide, fun a ha =>
        (hinert.of_mem ha).1⟩)
    · have hescape : escape (byte '\\' :: p) = [byte '\\', byte '\\'] ++ escape p :=
        escape_encode_append '\\' p
      rw [hescape, List.length_append, hinert.length_escape]
      simp only [List.length_cons, List.length_nil]
      omega

/-- Quoting goes on after the first character. -/
lemma aux_of_head? (acc : Bytes) (h : Utf8.head? s = some (c, rest)) :
    Quoted.aux acc s = Quoted.aux ((Quoted.char c).reverse ++ acc) rest := by
  rw [Quoted.aux, ← List.reverseAux_eq]
  split
  · rename_i heq
    obtain ⟨rfl, rfl⟩ := Prod.mk.inj (Option.some.inj (heq.symm.trans h))
    rfl
  · rename_i heq
    cases heq.symm.trans h

/-- Nothing is left to be quoted. -/
lemma aux_nil (acc : Bytes) : Quoted.aux acc [] = acc.reverse := by
  rw [Quoted.aux]
  split
  · rename_i heq
    cases heq
  · rfl

/-- Characters are quoted one by one. -/
lemma quoted_encodeAll (cs : List Char) :
    quoted (Utf8.encodeAll cs) = byte '"' :: (cs.flatMap Quoted.char ++ [byte '"']) := by
  have haux (acc : Bytes) :
      Quoted.aux acc (Utf8.encodeAll cs) = acc.reverse ++ cs.flatMap Quoted.char := by
    induction cs generalizing acc with
    | nil => exact (aux_nil acc).trans (List.append_nil _).symm
    | cons c cs ih =>
      have hhead : Utf8.head? (Utf8.encodeAll (c :: cs)) = some (c, Utf8.encodeAll cs) :=
        Utf8.head?_encode_append c (Utf8.encodeAll cs)
      rw [aux_of_head? acc hhead, ih, List.reverse_append, List.reverse_reverse,
        List.append_assoc, List.flatMap_cons]
  rw [quoted, haux]
  rfl

/-- The length of a quoted text when it is escaped. -/
lemma length_escape_quoted (cs : List Char) :
    (escape (quoted (Utf8.encodeAll cs))).length =
      (cs.map fun c => (escape (Quoted.char c)).length).sum + 4 := by
  have hbody (s : Bytes) : (escape (cs.flatMap Quoted.char ++ s)).length =
      (cs.map fun c => (escape (Quoted.char c)).length).sum + (escape s).length := by
    induction cs with
    | nil => exact (Nat.zero_add _).symm
    | cons c cs ih =>
      rw [List.flatMap_cons, List.append_assoc, escape_append_of_isValid (escape_char c).1,
        List.length_append, ih, List.map_cons, List.sum_cons, Nat.add_assoc]
  have hquote (s : Bytes) : escape (byte '"' :: s) = [byte '\\', byte '"'] ++ escape s :=
    escape_encode_append '"' s
  have hend : (escape [byte '"']).length = 2 := by
    rw [hquote, escape_nil]
    rfl
  rw [quoted_encodeAll, hquote, List.length_append, hbody, hend]
  simp only [List.length_cons, List.length_nil]
  omega

end Quoting

/-! ## Keys -/

namespace Body

variable {a b : UInt8} {d p s rest : Bytes} {n : Nat}

/-- What follows a plain byte in a body is a body. -/
lemma of_cons_plain (ha : IsPlain a) (h : Body (a :: s)) : Body s := by
  cases h with
  | plain _ h => exact h
  | letter => exact absurd rfl ha.2.1
  | code => exact absurd rfl ha.2.1

/-- What follows plain bytes in a body is a body. -/
lemma of_append_plain (hp : ∀ a ∈ p, IsPlain a) (h : Body (p ++ s)) : Body s := by
  induction p with
  | nil => exact h
  | cons a p ih =>
    obtain ⟨ha, hp⟩ := List.forall_mem_cons.mp hp
    exact ih hp (of_cons_plain ha h)

/-- What follows an escape by code in a body is a body. -/
lemma of_codeEscape? (hs : Body s) (h : codeEscape? s = some (n, rest)) : Body rest := by
  cases hs with
  | nil => cases h
  | plain ha _ =>
    rw [codeEscape?_of_ne ha.2.1] at h
    cases h
  | letter hb _ =>
    rw [codeEscape?, if_neg] at h
    · cases h
    · rintro ⟨-, rfl⟩
      exact absurd hb (by decide)
  | code hd hs =>
    rw [codeEscape?, if_pos ⟨rfl, rfl⟩, fourHex?_append hd] at h
    obtain ⟨-, rfl⟩ := Prod.mk.inj (Option.some.inj h)
    exact hs

/-- What follows the character of an escape by code is a body. -/
lemma charOfCode (hs : Body s) (n : Nat) : Body (charOfCode n s).2 := by
  unfold Json.charOfCode
  split
  · split
    · rename_i hcode
      split
      · exact hs.of_codeEscape? hcode
      · exact hs
    · exact hs
  · split
    · exact hs
    · exact hs

/-- Whether the first character of a body leaves a body, and the escape of its quoted form is at
most six times as long as what it was written by. -/
def Shortens (s : Bytes) : Prop :=
  ∃ c rest, Json.unescapeHead s = (Utf8.encode c, rest) ∧ Body rest ∧ rest.length < s.length ∧
    (escape (Quoted.char c)).length + 6 * rest.length ≤ 6 * s.length

/-- A plain byte starts a character, or it is damaged and means one that is printable. -/
lemma shortens_plain (ha : IsPlain a) (hs : Body s) : Shortens (a :: s) := by
  have hplain := Body.plain ha hs
  cases hhead : Utf8.head? (a :: s) with
  | none =>
    have hshown : (escape (Quoted.char Utf8.replacement)).length ≤ 6 := by
      rw [char_replacement, escape_encode]
      exact length_escapeChar_le _
    refine ⟨Utf8.replacement, s, ?_, hs, Nat.lt_succ_self _, ?_⟩
    · simp only [Json.unescapeHead, codeEscape?_of_ne ha.2.1, if_neg ha.2.1, hhead]
    · rw [List.length_cons]
      omega
  | some head =>
    obtain ⟨c, rest⟩ := head
    have hlt := Utf8.length_of_head? hhead
    have hshown := (escape_char c).2
    have heq := Utf8.eq_encode_append_of_head? hhead
    have hbytes : (∀ b ∈ Utf8.encode c, IsPlain b) ∧
        (if c.toNat < 128 then 1 else 2) ≤ (Utf8.encode c).length := by
      split
      · rename_i hc
        rw [Utf8.encode_of_lt hc] at heq ⊢
        obtain rfl := (List.cons.inj heq).1
        exact ⟨List.forall_mem_singleton.mpr ha, Nat.le_refl 1⟩
      · rename_i hc
        refine ⟨fun b hb => isPlain_of_mem_encode ?_ (by omega) hb, ?_⟩
        · rintro (rfl | rfl)
          · exact hc (by decide)
          · exact hc (by decide)
        · exact two_le_length_encode (Nat.not_lt.mp hc)
    refine ⟨c, rest, ?_, of_append_plain hbytes.1 (heq ▸ hplain), hlt, ?_⟩
    · simp only [Json.unescapeHead, codeEscape?_of_ne ha.2.1, if_neg ha.2.1, hhead]
    · have hlength := hbytes.2
      rw [heq, List.length_append]
      split at hshown <;> split at hlength <;> omega

/-- An escape by a letter means a character of ASCII. -/
lemma shortens_letter (hb : Token.isEscapeLetter b = true) (hs : Body s) :
    Shortens (byte '\\' :: b :: s) := by
  obtain ⟨hne, hlt⟩ := Utf8.forall_byte (P := fun b => Token.isEscapeLetter b = true →
    b ≠ byte 'u' ∧ (unescapeLetter b).toNat < 128) (by decide +kernel) b hb
  have hshown := (escape_char (Char.ofNat (unescapeLetter b).toNat)).2
  refine ⟨Char.ofNat (unescapeLetter b).toNat, s, ?_, hs, ?_, ?_⟩
  · rw [unescapeHead_letter hne, Utf8.encode_charOfNat hlt]
  · simp only [List.length_cons]
    omega
  · simp only [List.length_cons]
    split at hshown <;> omega

/-- An escape by code is longer than the quoted form of any character. -/
lemma shortens_code (hd : fourHex? d = some (n, [])) (hs : Body s) :
    Shortens (byte '\\' :: byte 'u' :: (d ++ s)) := by
  have hcode : codeEscape? (byte '\\' :: byte 'u' :: (d ++ s)) = some (n, s) := by
    rw [codeEscape?, if_pos ⟨rfl, rfl⟩, fourHex?_append hd]
    rfl
  have hshown := (escape_char (Json.charOfCode n s).1).2
  have hlength := length_of_codeEscape? hcode
  have hle := length_charOfCode_le n s
  refine ⟨(Json.charOfCode n s).1, (Json.charOfCode n s).2, ?_, hs.charOfCode n, ?_, ?_⟩
  · simp only [Json.unescapeHead, hcode]
  · omega
  · split at hshown <;> omega

/-- **The first character of a body** is not longer when it is quoted than six times what it was
written by. -/
lemma shortens (hs : Body s) (hne : s ≠ []) : Shortens s := by
  cases hs with
  | nil => exact absurd rfl hne
  | plain ha hs => exact shortens_plain ha hs
  | letter hb hs => exact shortens_letter hb hs
  | code hd hs => exact shortens_code hd hs

/-- What a body means is valid text, each character of which is at most six times as long, quoted
and escaped again, as what it was written by. -/
lemma exists_encodeAll (hs : Body s) :
    ∃ cs, unescape s = Utf8.encodeAll cs ∧
      (cs.map fun c => (escape (Quoted.char c)).length).sum ≤ 6 * s.length := by
  induction hn : s.length using Nat.strongRecOn generalizing s with
  | _ n ih =>
    by_cases hne : s = []
    · subst hne
      exact ⟨[], unescape_nil, Nat.zero_le _⟩
    · obtain ⟨c, rest, hhead, hrest, hlt, hshown⟩ := hs.shortens hne
      obtain ⟨cs, hcs, hsum⟩ := ih rest.length (hn ▸ hlt) hrest rfl
      refine ⟨c :: cs, ?_, ?_⟩
      · rw [unescape_eq hhead hne, hcs]
        rfl
      · rw [List.map_cons, List.sum_cons]
        omega

/-- **What a body means is valid text.** -/
theorem isValid_unescape (hs : Body s) : Utf8.isValid (unescape s) = true := by
  obtain ⟨cs, hcs, -⟩ := hs.exists_encodeAll
  rw [hcs]
  exact Utf8.isValid_encodeAll cs

/-- **A quoted key**, escaped again, is at most six times as long as the key, and four bytes. -/
theorem length_escape_quoted_le (hs : Body s) :
    (escape (quoted (unescape s))).length ≤ 6 * s.length + 4 := by
  obtain ⟨cs, hcs, hsum⟩ := hs.exists_encodeAll
  rw [hcs, length_escape_quoted]
  omega

end Body

end LintPool.Json
