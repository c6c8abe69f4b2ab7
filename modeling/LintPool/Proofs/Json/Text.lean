import LintPool.Json.Token
import LintPool.Proofs.Text.Utf8

/-!
# Texts as JSON strings

The body of a string is made of plain bytes and of escapes. The reader of tokens accepts exactly
these bodies, and the body that a text is escaped to is one of them. Unescaping it gives the text
back, but for damaged bytes, which are mended.

## Main definitions

* `LintPool.Json.Body` : the bodies of strings.

## Main results

* `LintPool.Json.Body.body?_append`, `LintPool.Json.body_of_body?` : the reader of tokens accepts
  exactly the bodies.
* `LintPool.Json.body_escape`, `LintPool.Json.Body.shieldBody` : escaping and shielding make bodies.
* `LintPool.Json.unescape_escape` : unescaping undoes escaping.
* `LintPool.Json.shieldBody_shieldBody` : there is nothing to shield in a shielded body.
-/

namespace LintPool.Json

/-! ## Bodies -/

/-- Whether a byte may stand in the body of a string by itself. -/
def IsPlain (a : UInt8) : Prop := a ≠ byte '"' ∧ a ≠ byte '\\' ∧ 0x20 ≤ a

instance (a : UInt8) : Decidable (IsPlain a) := inferInstanceAs (Decidable (_ ∧ _ ∧ _))

/-- The bodies of strings: plain bytes, escapes by a letter and escapes by a code. -/
inductive Body : Bytes → Prop
  | nil : Body []
  | plain {a : UInt8} {s : Bytes} (ha : IsPlain a) (hs : Body s) : Body (a :: s)
  | letter {b : UInt8} {s : Bytes} (hb : Token.isEscapeLetter b = true) (hs : Body s) :
    Body (byte '\\' :: b :: s)
  | code {d s : Bytes} {n : Nat} (hd : fourHex? d = some (n, [])) (hs : Body s) :
    Body (byte '\\' :: byte 'u' :: (d ++ s))

section FourHex

variable {d s rest : Bytes} {n : Nat}

/-- Four digits are read whatever follows them. -/
lemma fourHex?_append (hd : fourHex? d = some (n, rest)) (s : Bytes) :
    fourHex? (d ++ s) = some (n, rest ++ s) := by
  unfold fourHex? at hd
  split at hd
  · simp only [List.cons_append, fourHex?]
    split at hd
    · obtain ⟨rfl, rfl⟩ := Prod.mk.inj (Option.some.inj hd)
      simp only [*]
    · cases hd
  · cases hd

/-- What four digits were read off is these digits and what follows. -/
lemma take_of_fourHex? (h : fourHex? s = some (n, rest)) :
    fourHex? (s.take 4) = some (n, []) ∧ s = s.take 4 ++ rest := by
  unfold fourHex? at h
  split at h
  · split at h
    · obtain ⟨rfl, rfl⟩ := Prod.mk.inj (Option.some.inj h)
      constructor
      · simp only [List.take_succ_cons, List.take_zero, fourHex?, *]
      · rfl
    · cases h
  · cases h

/-- Four digits are four bytes, each of them a digit. -/
lemma digits_of_fourHex? (hd : fourHex? d = some (n, [])) :
    d.length = 4 ∧ ∀ b ∈ d, (Bytes.hexValue? b).isSome = true := by
  unfold fourHex? at hd
  split at hd
  · split at hd
    · obtain ⟨-, rfl⟩ := Prod.mk.inj (Option.some.inj hd)
      refine ⟨rfl, ?_⟩
      simp [*]
    · cases hd
  · cases hd

end FourHex

namespace Body

variable {a : UInt8} {p s : Bytes}

/-- Plain bytes in front of a body. -/
lemma append_plain (hp : ∀ a ∈ p, IsPlain a) (hs : Body s) : Body (p ++ s) := by
  induction p with
  | nil => exact hs
  | cons a p ih =>
    exact plain (hp a List.mem_cons_self) (ih fun b hb => hp b (List.mem_cons_of_mem a hb))

/-- A byte that has a value as a hexadecimal digit is no control character. -/
lemma le_of_hexValue? : (Bytes.hexValue? a).isSome = true → 0x20 ≤ a :=
  Utf8.forall_byte (P := fun a => (Bytes.hexValue? a).isSome = true → 0x20 ≤ a)
    (by decide +kernel) a

/-- A letter that may follow a backslash is no control character. -/
lemma le_of_isEscapeLetter : Token.isEscapeLetter a = true → 0x20 ≤ a :=
  Utf8.forall_byte (P := fun a => Token.isEscapeLetter a = true → 0x20 ≤ a) (by decide +kernel) a

/-- There is no control character in a body. -/
lemma le_of_mem (hs : Body s) (ha : a ∈ s) : 0x20 ≤ a := by
  induction hs with
  | nil => cases ha
  | plain hb _ ih =>
    rcases List.mem_cons.mp ha with rfl | ha
    · exact hb.2.2
    · exact ih ha
  | letter hb _ ih =>
    rcases List.mem_cons.mp ha with rfl | ha
    · decide
    rcases List.mem_cons.mp ha with rfl | ha
    · exact le_of_isEscapeLetter hb
    · exact ih ha
  | code hd _ ih =>
    rcases List.mem_cons.mp ha with rfl | ha
    · decide
    rcases List.mem_cons.mp ha with rfl | ha
    · decide
    rcases List.mem_append.mp ha with ha | ha
    · exact le_of_hexValue? ((digits_of_fourHex? hd).2 a ha)
    · exact ih ha

end Body

/-! ## Reading bodies as tokens -/

section Reading

variable {a b : UInt8} {d s rest out : Bytes} {n : Nat}

/-- An escape by a letter is read as it is. -/
lemma escape?_letter (hb : Token.isEscapeLetter b = true) (s : Bytes) :
    Token.escape? (byte '\\' :: b :: s) = some ([byte '\\', b], s) := by
  rw [Token.escape?, if_pos rfl, if_pos hb]

/-- An escape by a code is read as it is. -/
lemma escape?_code (hd : fourHex? d = some (n, [])) (s : Bytes) :
    Token.escape? (byte '\\' :: byte 'u' :: (d ++ s)) =
      some (byte '\\' :: byte 'u' :: d, s) := by
  have htake : (d ++ s).take 4 = d := by
    rw [← (digits_of_fourHex? hd).1, List.take_left]
  rw [Token.escape?, if_pos rfl, if_neg (by decide), if_pos rfl, fourHex?_append hd, htake]
  rfl

/-- What is read as an escape is one of the two kinds. -/
lemma escape?_cases (h : Token.escape? s = some (out, rest)) :
    (∃ b, Token.isEscapeLetter b = true ∧ out = [byte '\\', b] ∧ s = out ++ rest) ∨
      ∃ d n, fourHex? d = some (n, []) ∧ out = byte '\\' :: byte 'u' :: d ∧ s = out ++ rest := by
  unfold Token.escape? at h
  split at h
  case h_2 => cases h
  case h_1 a b s =>
    split at h
    case isFalse => cases h
    case isTrue ha =>
      subst ha
      split at h
      case isTrue hb =>
        obtain ⟨rfl, rfl⟩ := Prod.mk.inj (Option.some.inj h)
        exact .inl ⟨b, hb, rfl, rfl⟩
      case isFalse =>
        split at h
        case isFalse => cases h
        case isTrue hu =>
          subst hu
          split at h
          case h_2 => cases h
          case h_1 n r hfour =>
            obtain ⟨rfl, rfl⟩ := Prod.mk.inj (Option.some.inj h)
            obtain ⟨hd, hs⟩ := take_of_fourHex? hfour
            refine .inr ⟨s.take 4, n, hd, rfl, ?_⟩
            rw [List.cons_append, List.cons_append, ← hs]

/-- The reader takes a plain byte into the body. -/
lemma body?_plain (ha : IsPlain a) (acc s : Bytes) :
    Token.body? acc (a :: s) = Token.body? (a :: acc) s := by
  rw [Token.body?, if_neg ha.1, if_neg ha.2.1, if_neg (UInt8.not_lt.mpr ha.2.2)]

/-- The reader takes an escape into the body. -/
lemma body?_escape (h : Token.escape? (byte '\\' :: s) = some (out, rest)) (acc : Bytes) :
    Token.body? acc (byte '\\' :: s) = Token.body? (out.reverse ++ acc) rest := by
  rw [Token.body?, if_neg (by decide), if_pos rfl]
  split
  · rename_i heq
    obtain ⟨rfl, rfl⟩ := Prod.mk.inj (Option.some.inj (heq.symm.trans h))
    rw [List.reverseAux_eq]
  · rename_i heq
    cases heq.symm.trans h

/-- **A body is read up to its quote.** -/
theorem Body.body?_append (hs : Body s) (acc rest : Bytes) :
    Token.body? acc (s ++ byte '"' :: rest) = some (acc.reverse ++ s, rest) := by
  induction hs generalizing acc with
  | nil => rw [List.nil_append, Token.body?, if_pos rfl, List.append_nil]
  | plain ha _ ih => rw [List.cons_append, body?_plain ha, ih, List.reverse_cons, List.append_assoc,
      List.singleton_append]
  | letter hb _ ih =>
    rw [List.cons_append, List.cons_append, body?_escape (escape?_letter hb _), ih]
    simp
  | code hd _ ih =>
    rw [List.cons_append, List.cons_append, List.append_assoc, body?_escape (escape?_code hd _), ih]
    simp

/-- **What is read up to a quote is a body.** -/
theorem body_of_body? {acc s b rest : Bytes} (h : Token.body? acc s = some (b, rest)) :
    ∃ t, Body t ∧ b = acc.reverse ++ t ∧ s = t ++ byte '"' :: rest := by
  fun_induction Token.body? acc s with
  | case1 | case4 | case5 => cases h
  | case2 acc s =>
    obtain ⟨rfl, rfl⟩ := Prod.mk.inj (Option.some.inj h)
    exact ⟨[], .nil, (List.append_nil _).symm, rfl⟩
  | case3 acc s _ out r hescape ih =>
    obtain ⟨t, ht, rfl, rfl⟩ := ih h
    rcases escape?_cases hescape with ⟨b, hb, rfl, hs⟩ | ⟨d, n, hd, rfl, hs⟩
    · exact ⟨byte '\\' :: b :: t, .letter hb ht, by simp [List.reverseAux_eq], by simpa using hs⟩
    · exact ⟨byte '\\' :: byte 'u' :: (d ++ t), .code hd ht, by simp [List.reverseAux_eq],
        by simpa using hs⟩
  | case6 acc a s hquote hslash hcontrol ih =>
    obtain ⟨t, ht, rfl, rfl⟩ := ih h
    exact ⟨a :: t, .plain ⟨hquote, hslash, UInt8.not_lt.mp hcontrol⟩ ht, by simp, rfl⟩

end Reading

/-! ## Escaping -/

section Escaping

variable {a : UInt8} {s rest : Bytes} {c : Char} {n : Nat}

/-- A hexadecimal digit is read back. -/
lemma hexValue?_hexDigit (n : Nat) : Bytes.hexValue? (Bytes.hexDigit n) = some (n % 16) := by
  have hall : ∀ k < 16, Bytes.hexValue? (byte (Nat.digitChar k)) = some k := by decide
  exact hall (n % 16) (Nat.mod_lt n (by decide))

/-- A code of four digits is read back. -/
lemma fourHex?_hex (hn : n < 65536) : fourHex? (Bytes.hex 4 n) = some (n, []) := by
  have hdigits : Bytes.hex 4 n =
      [Bytes.hexDigit (n / 16 / 16 / 16), Bytes.hexDigit (n / 16 / 16), Bytes.hexDigit (n / 16),
        Bytes.hexDigit n] := rfl
  rw [hdigits]
  simp only [fourHex?, hexValue?_hexDigit, Option.some.injEq, Prod.mk.injEq, and_true]
  omega

/-- An escape by a code in front of a body. -/
lemma Body.codeEscape (hs : Body s) (hn : n < 65536) : Body (codeEscape n ++ s) :=
  .code (fourHex?_hex hn) hs

/-- A byte of a character that needs no escape is plain. -/
lemma isPlain_of_mem_encode (hquote : ¬ (c = '"' ∨ c = '\\')) (hcontrol : ¬ c.toNat < 0x20)
    (ha : a ∈ Utf8.encode c) : IsPlain a := by
  have hplain : ∀ a : UInt8, 128 ≤ a.toNat → IsPlain a := Utf8.forall_byte (by decide +kernel)
  by_cases hc : c.toNat < 128
  · rw [Utf8.encode_of_lt hc, List.mem_singleton] at ha
    subst ha
    have hall : ∀ k < 128, ¬ k < 0x20 → Char.ofNat k ≠ '"' → Char.ofNat k ≠ '\\' →
        IsPlain (byte (Char.ofNat k)) := by decide +kernel
    rw [not_or] at hquote
    rw [← Char.ofNat_toNat c] at hquote ⊢
    exact hall c.toNat hc hcontrol hquote.1 hquote.2
  · exact hplain a (Utf8.le_of_mem_encode (by omega) ha)

/-- A character that is escaped by its code is no surrogate. -/
lemma toNat_lt_of_shielded (h : c.toNat < 0x20 ∨ isShielded c = true) : c.toNat < 0xD800 := by
  simp only [isShielded, Bool.or_eq_true, decide_eq_true_eq] at h
  rcases h with hlow | (((rfl | rfl) | rfl) | hline) | hparagraph
  · omega
  · decide
  · decide
  · decide
  · omega
  · omega

/-- A character in front of a body. -/
lemma Body.escapeChar (hs : Body s) (c : Char) : Body (escapeChar c ++ s) := by
  have hletter : ∀ b, Token.isEscapeLetter b = true → Body ([byte '\\', b] ++ s) :=
    fun b hb => .letter hb hs
  unfold Json.escapeChar
  split
  · rename_i hc
    rcases hc with rfl | rfl
    · exact hletter (byte '"') (by decide)
    · exact hletter (byte '\\') (by decide)
  rename_i hquote
  split
  · exact hletter (byte 'b') (by decide)
  split
  · exact hletter (byte 'f') (by decide)
  split
  · exact hletter (byte 'n') (by decide)
  split
  · exact hletter (byte 'r') (by decide)
  split
  · exact hletter (byte 't') (by decide)
  split
  · rename_i hshield
    exact hs.codeEscape (Nat.lt_trans (toNat_lt_of_shielded hshield) (by decide))
  · rename_i hshield
    rw [not_or] at hshield
    exact .append_plain (fun a ha => isPlain_of_mem_encode hquote hshield.1 ha) hs

/-- Escaping goes on after the first character. -/
lemma escapeAux_of_head? (acc : Bytes) (h : Utf8.head? s = some (c, rest)) :
    escapeAux acc s = escapeAux ((Json.escapeChar c).reverse ++ acc) rest := by
  rw [escapeAux, ← List.reverseAux_eq]
  split
  · rename_i heq
    obtain ⟨rfl, rfl⟩ := Prod.mk.inj (Option.some.inj (heq.symm.trans h))
    rfl
  · rename_i heq
    cases heq.symm.trans h

/-- Escaping goes on after a damaged byte. -/
lemma escapeAux_of_damaged (acc : Bytes) (h : Utf8.head? (a :: s) = none) :
    escapeAux acc (a :: s) = escapeAux ((Json.escapeChar Utf8.replacement).reverse ++ acc) s := by
  rw [escapeAux, ← List.reverseAux_eq]
  split
  · rename_i heq
    cases heq.symm.trans h
  · rfl

/-- Nothing is left to be escaped. -/
lemma escapeAux_nil (acc : Bytes) : escapeAux acc [] = acc.reverse := by
  rw [escapeAux]
  split
  · rename_i heq
    cases heq
  · rfl

/-- What was escaped before stands in front. -/
lemma escapeAux_append (acc acc' s : Bytes) :
    escapeAux (acc ++ acc') s = acc'.reverse ++ escapeAux acc s := by
  fun_induction escapeAux acc s with
  | case1 acc s c rest h ih =>
    rw [escapeAux_of_head? _ h, ← List.append_assoc, ← List.reverseAux_eq, ih]
  | case2 acc =>
    rw [escapeAux_nil, List.reverse_append]
  | case3 acc a rest h ih =>
    rw [escapeAux_of_damaged _ h, ← List.append_assoc, ← List.reverseAux_eq, ih]

/-- Escaping a text that starts with a character. -/
lemma escape_of_head? (h : Utf8.head? s = some (c, rest)) :
    escape s = Json.escapeChar c ++ escape rest := by
  rw [escape, escapeAux_of_head? [] h, List.append_nil, ← List.nil_append (List.reverse _),
    escapeAux_append, List.reverse_reverse, escape]

/-- Escaping a text that starts with a damaged byte. -/
lemma escape_of_damaged (h : Utf8.head? (a :: s) = none) :
    escape (a :: s) = Json.escapeChar Utf8.replacement ++ escape s := by
  rw [escape, escapeAux_of_damaged [] h, List.append_nil, ← List.nil_append (List.reverse _),
    escapeAux_append, List.reverse_reverse, escape]

/-- An empty text needs no escapes. -/
@[simp] lemma escape_nil : escape [] = [] := escapeAux_nil []

/-- What holds of the empty text and is kept by a character or a damaged byte in front holds of all
texts. -/
lemma text_induction {P : Bytes → Prop} (nil : P [])
    (character : ∀ s c rest, Utf8.head? s = some (c, rest) → P rest → P s)
    (damaged : ∀ a s, Utf8.head? (a :: s) = none → P s → P (a :: s)) (s : Bytes) : P s := by
  induction hn : s.length using Nat.strongRecOn generalizing s with
  | _ n ih =>
    cases hhead : Utf8.head? s with
    | some p =>
      obtain ⟨c, rest⟩ := p
      exact character s c rest hhead (ih _ (hn ▸ Utf8.length_of_head? hhead) rest rfl)
    | none =>
      cases s with
      | nil => exact nil
      | cons a s => exact damaged a s hhead (ih _ (by rw [← hn]; exact Nat.lt_succ_self _) s rfl)

/-- **Escaping makes a body.** -/
theorem body_escape (s : Bytes) : Body (escape s) := by
  induction s using text_induction with
  | nil =>
    rw [escape_nil]
    exact .nil
  | character s c rest h ih =>
    rw [escape_of_head? h]
    exact ih.escapeChar c
  | damaged a s h ih =>
    rw [escape_of_damaged h]
    exact ih.escapeChar Utf8.replacement

end Escaping

/-! ## Unescaping -/

section Unescaping

variable {a b : UInt8} {s rest : Bytes} {c : Char} {n : Nat}

/-- What was unescaped before stands in front. -/
lemma unescapeAux_append (acc acc' s : Bytes) :
    unescapeAux (acc ++ acc') s = acc'.reverse ++ unescapeAux acc s := by
  fun_induction unescapeAux acc s with
  | case1 acc => rw [unescapeAux, List.reverse_append]
  | case2 acc a s head ih =>
    rw [unescapeAux, ← ih, List.reverseAux_eq, List.reverseAux_eq, List.append_assoc]

/-- Unescaping goes character by character. -/
lemma unescape_eq {out : Bytes} (h : unescapeHead s = (out, rest)) (hs : s ≠ []) :
    unescape s = out ++ unescape rest := by
  cases s with
  | nil => exact absurd rfl hs
  | cons a s =>
    rw [unescape, unescapeAux, h]
    rw [List.reverseAux_eq, List.append_nil, ← List.nil_append out.reverse, unescapeAux_append,
      List.reverse_reverse, unescape]

/-- Nothing is unescaped to nothing. -/
@[simp] lemma unescape_nil : unescape [] = [] := by
  rw [unescape, unescapeAux]
  rfl

/-- The code of an escape is read back. -/
lemma codeEscape?_codeEscape (hn : n < 65536) (s : Bytes) :
    codeEscape? (codeEscape n ++ s) = some (n, s) := by
  have hcons : codeEscape n ++ s = byte '\\' :: byte 'u' :: (Bytes.hex 4 n ++ s) := rfl
  rw [hcons, codeEscape?, if_pos ⟨rfl, rfl⟩, fourHex?_append (fourHex?_hex hn)]
  rfl

/-- Only a backslash starts an escape. -/
lemma codeEscape?_of_ne (ha : a ≠ byte '\\') (s : Bytes) : codeEscape? (a :: s) = none := by
  cases s with
  | nil => rfl
  | cons b s => rw [codeEscape?, if_neg fun h => ha h.1]

/-- An escape by code means its character. -/
lemma unescapeHead_codeEscape (hn : n < 0xD800 ∨ 0xDFFF < n ∧ n < 65536) (s : Bytes) :
    unescapeHead (codeEscape n ++ s) = (Utf8.encode (Char.ofNat n), s) := by
  have hcode := codeEscape?_codeEscape (n := n) (by omega) s
  have hcons : codeEscape n ++ s = byte '\\' :: byte 'u' :: (Bytes.hex 4 n ++ s) := rfl
  have hhigh : isHighSurrogate n = false := by
    simp only [isHighSurrogate, Bool.and_eq_false_iff, decide_eq_false_iff_not]
    omega
  have hlow : isLowSurrogate n = false := by
    simp only [isLowSurrogate, Bool.and_eq_false_iff, decide_eq_false_iff_not]
    omega
  rw [hcons] at hcode ⊢
  rw [unescapeHead, hcode]
  simp only [charOfCode, hhigh, hlow, Bool.false_eq_true, if_false]

/-- An escape by a letter other than `u` means what the letter says. -/
lemma unescapeHead_letter (hb : b ≠ byte 'u') (s : Bytes) :
    unescapeHead (byte '\\' :: b :: s) = ([unescapeLetter b], s) := by
  have hcode : codeEscape? (byte '\\' :: b :: s) = none := by
    rw [codeEscape?, if_neg fun h => hb h.2]
  rw [unescapeHead, hcode]
  rfl

/-- A character that is no backslash means itself. -/
lemma unescapeHead_encode (hc : c ≠ '\\') (s : Bytes) :
    unescapeHead (Utf8.encode c ++ s) = (Utf8.encode c, s) := by
  have hhead := Utf8.head?_encode_append c s
  have hlead : ∀ a ∈ Utf8.encode c, a ≠ byte '\\' := by
    intro a ha heq
    by_cases hlt : c.toNat < 128
    · rw [Utf8.encode_of_lt hlt, List.mem_singleton] at ha
      have hcode : c.toNat = 92 := by
        have htoNat := congrArg UInt8.toNat (ha.symm.trans heq)
        rw [byte, Nat.toUInt8, Utf8.toNat_ofNat_of_lt (by omega)] at htoNat
        exact htoNat
      exact hc (by rw [← Char.ofNat_toNat c, hcode])
    · have hle := Utf8.le_of_mem_encode (by omega) ha
      rw [heq] at hle
      exact absurd hle (by decide)
  cases hencode : Utf8.encode c with
  | nil =>
    rw [hencode] at hhead
    have hlength := Utf8.length_of_head? hhead
    exact absurd hlength (by simp)
  | cons a t =>
    have ha : a ≠ byte '\\' := hlead a (by rw [hencode]; exact List.mem_cons_self)
    rw [hencode, List.cons_append] at hhead
    simp only [List.cons_append, unescapeHead, codeEscape?_of_ne ha, if_neg ha, hhead, hencode]

/-- **A character is unescaped to itself.** -/
lemma unescapeHead_escapeChar (c : Char) (s : Bytes) :
    unescapeHead (escapeChar c ++ s) = (Utf8.encode c, s) := by
  have hself : ∀ {n : Nat}, c.toNat = n → c = Char.ofNat n := by
    intro n hn
    rw [← hn, Char.ofNat_toNat]
  unfold escapeChar
  split
  · rename_i hc
    rcases hc with rfl | rfl
    · exact unescapeHead_letter (by decide) s
    · exact unescapeHead_letter (by decide) s
  rename_i hquote
  split
  · rename_i hc
    rw [hself hc]
    exact unescapeHead_letter (b := byte 'b') (by decide) s
  split
  · rename_i hc
    rw [hself hc]
    exact unescapeHead_letter (b := byte 'f') (by decide) s
  split
  · rename_i hc
    rw [hc]
    exact unescapeHead_letter (b := byte 'n') (by decide) s
  split
  · rename_i hc
    rw [hc]
    exact unescapeHead_letter (b := byte 'r') (by decide) s
  split
  · rename_i hc
    rw [hc]
    exact unescapeHead_letter (b := byte 't') (by decide) s
  split
  · rename_i hshield
    have hcode : c.toNat < 0xD800 := toNat_lt_of_shielded hshield
    rw [unescapeHead_codeEscape (.inl hcode), Char.ofNat_toNat]
  · rw [not_or] at hquote
    exact unescapeHead_encode hquote.2 s

/-- The escape of a character is not empty. -/
lemma escapeChar_append_ne_nil (c : Char) (s : Bytes) : escapeChar c ++ s ≠ [] := by
  intro hnil
  have hhead := unescapeHead_escapeChar c s
  rw [hnil] at hhead
  have hencode := Utf8.head?_encode_append c []
  rw [← (Prod.mk.inj hhead).1] at hencode
  cases hencode

/-- **Unescaping undoes escaping**, but for damaged bytes, which are mended. -/
theorem unescape_escape (s : Bytes) : unescape (escape s) = Utf8.mend s := by
  induction s using text_induction with
  | nil => rw [escape_nil, unescape_nil, Utf8.mend_nil]
  | character s c rest h ih =>
    rw [escape_of_head? h, Utf8.mend_of_head? h, ← ih]
    exact unescape_eq (unescapeHead_escapeChar c _) (escapeChar_append_ne_nil c _)
  | damaged a s h ih =>
    rw [escape_of_damaged h, Utf8.mend_of_damaged h, ← ih]
    exact unescape_eq (unescapeHead_escapeChar _ _) (escapeChar_append_ne_nil _ _)

end Unescaping

/-! ## Shielding -/

section Shielding

variable {a : UInt8} {s : Bytes}

/-- What was shielded before stands in front. -/
lemma shieldAux_append (acc acc' s : Bytes) :
    shieldAux (acc ++ acc') s = acc'.reverse ++ shieldAux acc s := by
  fun_induction shieldAux acc s with
  | case1 acc => rw [shieldAux, List.reverse_append]
  | case2 acc a s head ih =>
    rw [shieldAux, ← ih, List.reverseAux_eq, List.reverseAux_eq, List.append_assoc]

/-- Shielding goes character by character. -/
lemma shieldBody_cons (a : UInt8) (s : Bytes) :
    shieldBody (a :: s) = (shieldHead (a :: s)).1 ++ shieldBody (shieldHead (a :: s)).2 := by
  rw [shieldBody, shieldAux]
  rw [List.reverseAux_eq, List.append_nil, ← List.nil_append (List.reverse _), shieldAux_append,
    List.reverse_reverse, shieldBody]

/-- Nothing is shielded to nothing. -/
@[simp] lemma shieldBody_nil : shieldBody [] = [] := by
  rw [shieldBody, shieldAux]
  rfl

/-- A byte that neither is shielded nor starts a separator stays. -/
lemma shieldBody_of_ne (ha : a ≠ 0xE2) (hshield : isShielded (Char.ofNat a.toNat) = false)
    (s : Bytes) : shieldBody (a :: s) = a :: shieldBody s := by
  have hhead : shieldHead (a :: s) = ([a], s) := by
    simp only [shieldHead, hshield, Bool.false_eq_true, if_false]
    split
    · rw [if_neg fun h => ha h.1]
    · rfl
  rw [shieldBody_cons, hhead]
  rfl

/-- A letter that may follow a backslash is not shielded. -/
lemma shieldBody_letter (ha : Token.isEscapeLetter a = true) (s : Bytes) :
    shieldBody (a :: s) = a :: shieldBody s := by
  have hall := Utf8.forall_byte (P := fun a => Token.isEscapeLetter a = true →
    a ≠ 0xE2 ∧ isShielded (Char.ofNat a.toNat) = false) (by decide +kernel) a ha
  exact shieldBody_of_ne hall.1 hall.2 s

/-- Hexadecimal digits are not shielded. -/
lemma shieldBody_digits {d : Bytes} (hd : ∀ b ∈ d, (Bytes.hexValue? b).isSome = true) (s : Bytes) :
    shieldBody (d ++ s) = d ++ shieldBody s := by
  have hall := Utf8.forall_byte (P := fun a => (Bytes.hexValue? a).isSome = true →
    a ≠ 0xE2 ∧ isShielded (Char.ofNat a.toNat) = false) (by decide +kernel)
  induction d with
  | nil => rfl
  | cons b d ih =>
    have hb := hall b (hd b List.mem_cons_self)
    rw [List.cons_append, shieldBody_of_ne hb.1 hb.2,
      ih fun c hc => hd c (List.mem_cons_of_mem b hc), List.cons_append]

/-- Shielding the first byte of a body, if it is plain: the byte stays, or it is replaced by its
escape, alone or with two more bytes. -/
lemma shieldHead_cases (a : UInt8) (s : Bytes) :
    shieldHead (a :: s) = ([a], s) ∨ (∃ n < 65536, shieldHead (a :: s) = (codeEscape n, s)) ∨
      ∃ n < 65536, ∃ b c rest, s = b :: c :: rest ∧ 0x80 ≤ b ∧ 0x80 ≤ c ∧
        shieldHead (a :: s) = (codeEscape n, rest) := by
  have hbyte : ∀ b : UInt8, b.toNat < 65536 := fun b => Nat.lt_trans b.toNat_lt (by decide)
  unfold shieldHead
  dsimp only
  split
  · rename_i b c rest
    split
    · rename_i hsep
      obtain ⟨-, rfl, hc⟩ := hsep
      refine .inr (.inr ⟨_, ?_, _, c, rest, rfl, by decide, ?_, rfl⟩)
      · omega
      · rcases hc with rfl | rfl <;> decide
    · split
      · exact .inr (.inl ⟨a.toNat, hbyte a, rfl⟩)
      · exact .inl rfl
  · split
    · exact .inr (.inl ⟨a.toNat, hbyte a, rfl⟩)
    · exact .inl rfl

/-- A byte of eight bits in front of a text that is a body is plain. -/
lemma Body.of_cons (hs : Body (a :: s)) (ha : 0x80 ≤ a) : Body s := by
  cases hs with
  | plain _ hs => exact hs
  | letter => exact absurd ha (by decide)
  | code => exact absurd ha (by decide)

/-- **Shielding keeps bodies.**

**Proof sketch.** By induction on the length: escapes hold nothing to be shielded, and what is put
in place of plain bytes are escapes. -/
theorem Body.shieldBody (hs : Body s) : Body (shieldBody s) := by
  induction hn : s.length using Nat.strongRecOn generalizing s with
  | _ n ih =>
    have hih : ∀ {t : Bytes}, Body t → t.length < s.length → Body (Json.shieldBody t) :=
      fun ht hlt => ih _ (hn ▸ hlt) ht rfl
    cases hs with
    | nil =>
      rw [shieldBody_nil]
      exact .nil
    | @letter b t hb ht =>
      rw [shieldBody_of_ne (by decide) (by decide), shieldBody_letter hb]
      exact .letter hb (hih ht (by rw [List.length_cons, List.length_cons]; omega))
    | @code d t m hd ht =>
      rw [shieldBody_of_ne (by decide) (by decide), shieldBody_of_ne (by decide) (by decide),
        shieldBody_digits (digits_of_fourHex? hd).2]
      exact .code hd (hih ht (by simp; omega))
    | @plain a t ha ht =>
      rw [shieldBody_cons]
      rcases shieldHead_cases a t with h | ⟨m, hm, h⟩ | ⟨m, hm, b, c, rest, rfl, hb, hc, h⟩
      · rw [h]
        exact .plain ha (hih ht (by simp))
      · rw [h]
        exact (hih ht (by simp)).codeEscape hm
      · rw [h]
        exact (hih ((ht.of_cons hb).of_cons hc) (by simp; omega)).codeEscape hm

/-- Whether a byte in front of a text is neither shielded nor starts a separator. -/
def Stays (a : UInt8) (s : Bytes) : Prop :=
  isShielded (Char.ofNat a.toNat) = false ∧
    ∀ c rest, s = 0x80 :: c :: rest → c = 0xA8 ∨ c = 0xA9 → a ≠ 0xE2

/-- The first byte of a body stays exactly if it is neither shielded nor starts a separator. -/
lemma shieldHead_eq_iff : shieldHead (a :: s) = ([a], s) ↔ Stays a s := by
  have hescape (n : Nat) (rest : Bytes) : (codeEscape n, rest) ≠ ([a], s) := by
    intro heq
    cases congrArg (List.length ∘ Prod.fst) heq
  unfold shieldHead
  dsimp only
  constructor
  · intro h
    split at h
    · split at h
      · exact absurd h (hescape _ _)
      · rename_i hsep
        split at h
        · exact absurd h (hescape _ _)
        · rename_i hshield
          refine ⟨Bool.eq_false_iff.mpr hshield, ?_⟩
          rintro c rest ⟨rfl, rfl⟩ hc rfl
          exact hsep ⟨rfl, rfl, hc⟩
    · rename_i hshort
      split at h
      · exact absurd h (hescape _ _)
      · rename_i hshield
        refine ⟨Bool.eq_false_iff.mpr hshield, ?_⟩
        rintro c rest rfl
        exact absurd rfl (hshort _ _ _)
  · rintro ⟨hshield, hsep⟩
    simp only [hshield, Bool.false_eq_true, if_false]
    split
    · rename_i b c rest
      refine if_neg ?_
      rintro ⟨rfl, rfl, hc⟩
      exact hsep c rest rfl hc rfl
    · rfl

/-- An escape by a code is not shielded. -/
lemma shieldBody_codeEscape {n : Nat} (hn : n < 65536) (s : Bytes) :
    shieldBody (codeEscape n ++ s) = codeEscape n ++ shieldBody s := by
  have hcode (t : Bytes) : codeEscape n ++ t = byte '\\' :: byte 'u' :: (Bytes.hex 4 n ++ t) := rfl
  rw [hcode, hcode, shieldBody_of_ne (by decide) (by decide),
    shieldBody_of_ne (by decide) (by decide),
    shieldBody_digits (digits_of_fourHex? (fourHex?_hex hn)).2]

/-- What starts a shielded body, if not an escape, started the body. -/
lemma of_shieldBody_eq_cons {t : Bytes} (h : shieldBody s = a :: t) (ha : a ≠ byte '\\') :
    ∃ s', s = a :: s' ∧ t = shieldBody s' := by
  have hescape {n : Nat} {u : Bytes} (h : codeEscape n ++ u = a :: t) : False :=
    ha (List.cons.inj h).1.symm
  cases s with
  | nil =>
    rw [shieldBody_nil] at h
    cases h
  | cons b s =>
    rw [shieldBody_cons] at h
    obtain hhead | ⟨n, -, hhead⟩ | ⟨n, -, c, d, rest, -, -, -, hhead⟩ := shieldHead_cases b s
    · rw [hhead] at h
      obtain ⟨rfl, rfl⟩ := List.cons.inj h
      exact ⟨s, rfl, rfl⟩
    · rw [hhead] at h
      exact (hescape h).elim
    · rw [hhead] at h
      exact (hescape h).elim

/-- A byte that stays in front of a body stays in front of the shielded body. -/
lemma Stays.shieldBody (h : Stays a s) : Stays a (shieldBody s) := by
  refine ⟨h.1, fun c rest heq hc => ?_⟩
  obtain ⟨s₁, rfl, hrest⟩ := of_shieldBody_eq_cons heq (by decide)
  have hne : c ≠ byte '\\' := by rcases hc with rfl | rfl <;> decide
  obtain ⟨s₂, rfl, -⟩ := of_shieldBody_eq_cons hrest.symm hne
  exact h.2 c s₂ rfl hc

/-- **There is nothing to shield in a shielded body.**

**Proof sketch.** By induction on the length. Escapes are not shielded. A byte that stays is not the
first one of a separator afterwards either: the two bytes behind it would have stayed too. -/
theorem shieldBody_shieldBody (s : Bytes) : shieldBody (shieldBody s) = shieldBody s := by
  induction hn : s.length using Nat.strongRecOn generalizing s with
  | _ n ih =>
    cases s with
    | nil => rw [shieldBody_nil, shieldBody_nil]
    | cons a s =>
      have hih := ih _ (hn ▸ length_shieldHead_lt a s) _ rfl
      rw [shieldBody_cons]
      obtain hhead | ⟨n, hn, hhead⟩ | ⟨n, hn, b, c, rest, -, -, -, hhead⟩ := shieldHead_cases a s
      · have hstays := (shieldHead_eq_iff.mp hhead).shieldBody
        rw [hhead] at hih ⊢
        rw [List.singleton_append, shieldBody_cons, shieldHead_eq_iff.mpr hstays, hih,
          List.singleton_append]
      · rw [hhead] at hih ⊢
        rw [shieldBody_codeEscape hn, hih]
      · rw [hhead] at hih ⊢
        rw [shieldBody_codeEscape hn, hih]

end Shielding

end LintPool.Json
