import LintPool.Text.Utf8
import Mathlib.Tactic.Lemma

/-!
# Characters are read back as they were encoded

Taking the first character off a text and encoding a character undo each other. Hence a text is
valid exactly if it is the encoding of some characters, and then mending leaves it as it is.

## Main results

* `LintPool.Utf8.head?_encode_append` : the first character of an encoding is the one encoded.
* `LintPool.Utf8.eq_encode_append_of_head?` : what was read as a character is its encoding.
* `LintPool.Utf8.mend_of_isValid` : a valid text needs no mending.
* `LintPool.Utf8.isValid_mend` : a mended text is valid.
-/

namespace LintPool.Utf8

/-! ## Bytes as numbers -/

section Numbers

variable {n : Nat}

/-- The byte of a number that fits in one has this number. -/
lemma toNat_ofNat_of_lt (hn : n < 256) : (UInt8.ofNat n).toNat = n := by
  rw [UInt8.toNat_ofNat']
  exact Nat.mod_eq_of_lt hn

/-- A byte is made from its number. -/
lemma ofNat_eq_of_toNat_eq {b : UInt8} (h : n = b.toNat) : UInt8.ofNat n = b := by
  rw [h, UInt8.ofNat_toNat]

/-- What holds of the bytes of all numbers below 256 holds of all bytes. -/
lemma forall_byte {P : UInt8 → Prop} (h : ∀ n < 256, P (UInt8.ofNat n)) (b : UInt8) : P b := by
  rw [← UInt8.ofNat_toNat (x := b)]
  exact h b.toNat b.toNat_lt

/-- The bytes that continue an encoding are those from 128 to 191. -/
lemma isContinuation_iff {b : UInt8} : isContinuation b = true ↔ 128 ≤ b.toNat ∧ b.toNat ≤ 191 := by
  rw [isContinuation, Bool.and_eq_true, decide_eq_true_eq, decide_eq_true_eq,
    UInt8.le_iff_toNat_le, UInt8.le_iff_toNat_le]
  rfl

/-- Six bits after a leading one make up a byte that continues an encoding. -/
lemma isContinuation_ofNat (n : Nat) : isContinuation (UInt8.ofNat (n % 64 + 128)) = true := by
  rw [isContinuation_iff, toNat_ofNat_of_lt (by omega)]
  omega

/-- The code of a character is no surrogate and not past the last one. -/
lemma toNat_isValid (c : Char) : c.toNat < 0xD800 ∨ 0xDFFF < c.toNat ∧ c.toNat < 0x110000 :=
  c.valid

/-- The character of a valid code has this code. -/
lemma toNat_charOfNat (h : n < 0xD800 ∨ 0xDFFF < n ∧ n < 0x110000) : (Char.ofNat n).toNat = n := by
  rw [Char.ofNat, dif_pos h]
  rfl

end Numbers

/-! ## One character -/

/-- The encoding of a character, by its code. -/
lemma encode_eq {c : Char} {n : Nat} (hn : c.toNat = n) :
    encode c =
      if n ≤ 127 then [UInt8.ofNat n]
      else if n ≤ 2047 then [UInt8.ofNat (n / 64 % 32 + 192), UInt8.ofNat (n % 64 + 128)]
      else if n ≤ 65535 then
        [UInt8.ofNat (n / 4096 % 16 + 224), UInt8.ofNat (n / 64 % 64 + 128),
          UInt8.ofNat (n % 64 + 128)]
      else
        [UInt8.ofNat (n / 262144 % 8 + 240), UInt8.ofNat (n / 4096 % 64 + 128),
          UInt8.ofNat (n / 64 % 64 + 128), UInt8.ofNat (n % 64 + 128)] := by
  subst hn
  rfl

/-- A character of seven bits is encoded by itself. -/
lemma encode_of_lt {c : Char} (hc : c.toNat < 128) : encode c = [byte c] := by
  rw [encode_eq rfl, if_pos (by omega)]
  rfl

/-- All bytes of the encoding of another character have eight bits. -/
lemma le_of_mem_encode {c : Char} {b : UInt8} (hc : 128 ≤ c.toNat) (hb : b ∈ encode c) :
    128 ≤ b.toNat := by
  rw [encode_eq rfl, if_neg (by omega)] at hb
  have hlast := toNat_ofNat_of_lt (n := c.toNat % 64 + 128) (by omega)
  have hthird := toNat_ofNat_of_lt (n := c.toNat / 64 % 64 + 128) (by omega)
  have hsecond := toNat_ofNat_of_lt (n := c.toNat / 4096 % 64 + 128) (by omega)
  split at hb
  · have hlead := toNat_ofNat_of_lt (n := c.toNat / 64 % 32 + 192) (by omega)
    simp only [List.mem_cons, List.not_mem_nil, or_false] at hb
    rcases hb with rfl | rfl <;> omega
  split at hb
  · have hlead := toNat_ofNat_of_lt (n := c.toNat / 4096 % 16 + 224) (by omega)
    simp only [List.mem_cons, List.not_mem_nil, or_false] at hb
    rcases hb with rfl | rfl | rfl <;> omega
  · have hlead := toNat_ofNat_of_lt (n := c.toNat / 262144 % 8 + 240) (by omega)
    simp only [List.mem_cons, List.not_mem_nil, or_false] at hb
    rcases hb with rfl | rfl | rfl | rfl <;> omega

/-- Reading a character, with the bounds of the lead byte as numbers. -/
lemma head?_cons (a : UInt8) (s : Bytes) :
    head? (a :: s) =
      if a.toNat < 128 then some (Char.ofNat a.toNat, s)
      else if a.toNat < 194 then none
      else if a.toNat < 224 then
        match s with
        | b :: rest =>
          if isContinuation b then some (Char.ofNat (code (a.toNat % 32) [b]), rest) else none
        | _ => none
      else if a.toNat < 240 then
        match s with
        | b :: c :: rest =>
          let n := code (a.toNat % 16) [b, c]
          if isContinuation b && isContinuation c && 0x800 ≤ n && !(0xD800 ≤ n && n ≤ 0xDFFF) then
            some (Char.ofNat n, rest)
          else none
        | _ => none
      else if a.toNat < 245 then
        match s with
        | b :: c :: d :: rest =>
          let n := code (a.toNat % 8) [b, c, d]
          if isContinuation b && isContinuation c && isContinuation d && 0x10000 ≤ n &&
              n ≤ 0x10FFFF then
            some (Char.ofNat n, rest)
          else none
        | _ => none
      else none := by
  simp only [head?, UInt8.lt_iff_toNat_lt]
  rfl

/-- **The first character of an encoding** is the one encoded, whatever follows.

**Proof sketch.** By the four lengths of an encoding. The lead byte tells the length, and the bits
that the bytes carry add up to the code. -/
theorem head?_encode_append (c : Char) (rest : Bytes) :
    head? (encode c ++ rest) = some (c, rest) := by
  have hvalid := toNat_isValid c
  have hself : Char.ofNat c.toNat = c := Char.ofNat_toNat c
  rw [encode_eq rfl]
  generalize c.toNat = n at hvalid hself ⊢
  have hlast := toNat_ofNat_of_lt (n := n % 64 + 128) (by omega)
  have hthird := toNat_ofNat_of_lt (n := n / 64 % 64 + 128) (by omega)
  have hsecond := toNat_ofNat_of_lt (n := n / 4096 % 64 + 128) (by omega)
  split
  · have hlead := toNat_ofNat_of_lt (n := n) (by omega)
    rw [List.singleton_append, head?_cons, hlead, if_pos (by omega), hself]
  split
  · have hlead := toNat_ofNat_of_lt (n := n / 64 % 32 + 192) (by omega)
    have hcode : code ((n / 64 % 32 + 192) % 32) [UInt8.ofNat (n % 64 + 128)] = n := by
      simp only [code, List.foldl_cons, List.foldl_nil, hlast]
      omega
    simp only [List.cons_append, List.nil_append]
    rw [head?_cons, hlead, if_neg (by omega), if_neg (by omega), if_pos (by omega)]
    simp only [hcode, isContinuation_ofNat, if_true, hself]
  split
  · have hlead := toNat_ofNat_of_lt (n := n / 4096 % 16 + 224) (by omega)
    have hcode : code ((n / 4096 % 16 + 224) % 16)
        [UInt8.ofNat (n / 64 % 64 + 128), UInt8.ofNat (n % 64 + 128)] = n := by
      simp only [code, List.foldl_cons, List.foldl_nil, hlast, hthird]
      omega
    simp only [List.cons_append, List.nil_append]
    rw [head?_cons, hlead, if_neg (by omega), if_neg (by omega), if_neg (by omega),
      if_pos (by omega)]
    simp only [hcode, isContinuation_ofNat, Bool.true_and]
    rw [if_pos, hself]
    simp only [Bool.and_eq_true, decide_eq_true_eq, Bool.not_eq_true', Bool.and_eq_false_iff,
      decide_eq_false_iff_not]
    omega
  · have hlead := toNat_ofNat_of_lt (n := n / 262144 % 8 + 240) (by omega)
    have hcode : code ((n / 262144 % 8 + 240) % 8)
        [UInt8.ofNat (n / 4096 % 64 + 128), UInt8.ofNat (n / 64 % 64 + 128),
          UInt8.ofNat (n % 64 + 128)] = n := by
      simp only [code, List.foldl_cons, List.foldl_nil, hlast, hthird, hsecond]
      omega
    simp only [List.cons_append, List.nil_append]
    rw [head?_cons, hlead, if_neg (by omega), if_neg (by omega), if_neg (by omega),
      if_neg (by omega), if_pos (by omega)]
    simp only [hcode, isContinuation_ofNat, Bool.true_and]
    rw [if_pos, hself]
    simp only [Bool.and_eq_true, decide_eq_true_eq]
    omega

/-- **What was read as a character** is its encoding.

**Proof sketch.** By the four lengths again: the code of the character determines the bytes, as the
lead byte lies in the range of its length. -/
theorem eq_encode_append_of_head? {s rest : Bytes} {c : Char} (h : head? s = some (c, rest)) :
    s = encode c ++ rest := by
  cases s with
  | nil => simp [head?] at h
  | cons a s =>
    rw [head?_cons] at h
    split at h
    · obtain ⟨rfl, rfl⟩ := Prod.mk.inj (Option.some.inj h)
      rw [encode_eq (toNat_charOfNat (by omega)), if_pos (by omega), UInt8.ofNat_toNat]
      rfl
    split at h
    · cases h
    split at h
    · split at h
      · rename_i b rest
        split at h
        · rename_i hb
          obtain ⟨rfl, rfl⟩ := Prod.mk.inj (Option.some.inj h)
          rw [isContinuation_iff] at hb
          simp only [code, List.foldl_cons, List.foldl_nil]
          rw [encode_eq (toNat_charOfNat (by omega)), if_neg (by omega), if_pos (by omega),
            ofNat_eq_of_toNat_eq (b := a) (by omega), ofNat_eq_of_toNat_eq (b := b) (by omega)]
          rfl
        · cases h
      · cases h
    split at h
    · split at h
      · rename_i b d rest
        dsimp only at h
        split at h
        · rename_i hbd
          obtain ⟨rfl, rfl⟩ := Prod.mk.inj (Option.some.inj h)
          simp only [Bool.and_eq_true, isContinuation_iff, decide_eq_true_eq, Bool.not_eq_true',
            Bool.and_eq_false_iff, decide_eq_false_iff_not] at hbd
          simp only [code, List.foldl_cons, List.foldl_nil] at hbd ⊢
          rw [encode_eq (toNat_charOfNat (by omega)), if_neg (by omega), if_neg (by omega),
            if_pos (by omega), ofNat_eq_of_toNat_eq (b := a) (by omega),
            ofNat_eq_of_toNat_eq (b := b) (by omega), ofNat_eq_of_toNat_eq (b := d) (by omega)]
          rfl
        · cases h
      · cases h
    split at h
    · split at h
      · rename_i b d e rest
        dsimp only at h
        split at h
        · rename_i hbde
          obtain ⟨rfl, rfl⟩ := Prod.mk.inj (Option.some.inj h)
          simp only [Bool.and_eq_true, isContinuation_iff, decide_eq_true_eq] at hbde
          simp only [code, List.foldl_cons, List.foldl_nil] at hbde ⊢
          rw [encode_eq (toNat_charOfNat (by omega)), if_neg (by omega), if_neg (by omega),
            if_neg (by omega), ofNat_eq_of_toNat_eq (b := a) (by omega),
            ofNat_eq_of_toNat_eq (b := b) (by omega), ofNat_eq_of_toNat_eq (b := d) (by omega),
            ofNat_eq_of_toNat_eq (b := e) (by omega)]
          rfl
        · cases h
      · cases h
    · cases h

/-! ## Whole texts -/

section Texts

variable {a : UInt8} {s rest : Bytes} {c : Char}

/-- No character starts an empty text. -/
@[simp] lemma head?_nil : head? [] = none := rfl

/-- Reading goes on after the first character. -/
lemma scalarsAux_of_head? (acc : List Char) (h : head? s = some (c, rest)) :
    scalarsAux acc s = scalarsAux (c :: acc) rest := by
  rw [scalarsAux]
  split
  · rename_i heq
    obtain ⟨rfl, rfl⟩ := Prod.mk.inj (Option.some.inj (heq.symm.trans h))
    rfl
  · rename_i heq
    cases heq.symm.trans h

/-- Reading goes on after a damaged byte. -/
lemma scalarsAux_of_damaged (acc : List Char) (h : head? (a :: s) = none) :
    scalarsAux acc (a :: s) = scalarsAux (replacement :: acc) s := by
  rw [scalarsAux]
  split
  · rename_i heq
    cases heq.symm.trans h
  · rfl

/-- Nothing is read off an empty text. -/
lemma scalarsAux_nil (acc : List Char) : scalarsAux acc [] = acc.reverse := by
  rw [scalarsAux]
  split
  · rename_i heq
    cases heq
  · rfl

/-- What was read before stands in front of the characters of a text. -/
lemma scalarsAux_append (acc acc' : List Char) (s : Bytes) :
    scalarsAux (acc ++ acc') s = acc'.reverse ++ scalarsAux acc s := by
  fun_induction scalarsAux acc s with
  | case1 acc s c rest h ih =>
    rw [scalarsAux_of_head? _ h, ← List.cons_append, ih]
  | case2 acc =>
    rw [scalarsAux_nil, List.reverse_append]
  | case3 acc a rest h ih =>
    rw [scalarsAux_of_damaged _ h, ← List.cons_append, ih]

/-- The characters of a text that starts with one. -/
lemma scalars_of_head? (h : head? s = some (c, rest)) : scalars s = c :: scalars rest := by
  rw [scalars, scalarsAux_of_head? [] h]
  exact scalarsAux_append [] [c] rest

/-- The characters of a text that starts with a damaged byte. -/
lemma scalars_of_damaged (h : head? (a :: s) = none) :
    scalars (a :: s) = replacement :: scalars s := by
  rw [scalars, scalarsAux_of_damaged [] h]
  exact scalarsAux_append [] [replacement] s

/-- Mending keeps the first character. -/
lemma mend_of_head? (h : head? s = some (c, rest)) : mend s = encode c ++ mend rest := by
  rw [mend, scalars_of_head? h]
  rfl

/-- Mending replaces a damaged byte. -/
lemma mend_of_damaged (h : head? (a :: s) = none) :
    mend (a :: s) = encode replacement ++ mend s := by
  rw [mend, scalars_of_damaged h]
  rfl

/-- There is nothing to mend in an empty text. -/
@[simp] lemma mend_nil : mend [] = [] := by
  rw [mend, scalars, scalarsAux_nil]
  rfl

/-- **A valid text needs no mending.** -/
theorem mend_of_isValid (h : isValid s = true) : mend s = s := by
  fun_induction isValid s with
  | case1 s c rest hhead ih =>
    rw [mend_of_head? hhead, ih h]
    exact (eq_encode_append_of_head? hhead).symm
  | case2 s hhead =>
    rw [List.isEmpty_iff.mp h, mend_nil]

/-- A character in front of a text does not matter for whether it is valid. -/
lemma isValid_of_head? (h : head? s = some (c, rest)) : isValid s = isValid rest := by
  rw [isValid.eq_def]
  split
  · rename_i heq
    obtain ⟨-, rfl⟩ := Prod.mk.inj (Option.some.inj (heq.symm.trans h))
    rfl
  · rename_i heq
    cases heq.symm.trans h

/-- **The encoding of characters is valid.** -/
theorem isValid_encodeAll (cs : List Char) : isValid (encodeAll cs) = true := by
  induction cs with
  | nil =>
    rw [isValid.eq_def]
    rfl
  | cons c cs ih => exact (isValid_of_head? (head?_encode_append c (encodeAll cs))).trans ih

/-- **A mended text is valid.** -/
theorem isValid_mend (s : Bytes) : isValid (mend s) = true := isValid_encodeAll (scalars s)

/-- A text that is not empty is not mended to nothing. -/
lemma mend_ne_nil (h : s ≠ []) : mend s ≠ [] := by
  have hencode (c : Char) (t : Bytes) : encode c ++ t ≠ [] := by
    intro hnil
    have hhead := head?_encode_append c t
    rw [hnil] at hhead
    cases hhead
  cases s with
  | nil => exact absurd rfl h
  | cons a s =>
    cases hhead : head? (a :: s) with
    | none =>
      rw [mend_of_damaged hhead]
      exact hencode _ _
    | some result =>
      rw [mend_of_head? hhead]
      exact hencode _ _

end Texts

end LintPool.Utf8
