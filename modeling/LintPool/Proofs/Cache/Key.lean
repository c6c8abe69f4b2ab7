import LintPool.Cache.Key
import LintPool.Proofs.Json.Number
import Mathlib.Data.List.Basic

/-!
# Cache keys are unambiguous

The text that stands for a subject is made of its version, its level and its path, each closed by a
zero byte, and then of its content. A part without a zero byte ends at the first one, so these parts
can be read off one after another, and everything behind the last of them is the content, whatever
it holds. Two subjects with the same text are the same.

## Main definitions

* `LintPool.Cache.sealed` : parts that are closed by zero bytes, and what follows them.
* `LintPool.Cache.Subject.Plain` : there are no zero bytes in the version and in the path.

## Main results

* `LintPool.Cache.sealed_inj` : the parts and what follows them are determined.
* `LintPool.Cache.Subject.text_inj` : the text of a subject determines its level, path and content.
* `LintPool.Cache.Subject.text_eq_iff` : the text of a subject determines all of it.
-/

namespace LintPool.Cache

/-! ## Sealed parts -/

/-- Some parts, each of them closed by a zero byte, and what follows them. -/
def sealed (parts : List Bytes) (rest : Bytes) : Bytes :=
  parts.foldr (fun part text => part ++ 0 :: text) rest

/-- What stands before the first zero byte, and what stands behind it, are determined. -/
lemma append_zero_inj {x y z w : Bytes} (hx : 0 ∉ x) (hy : 0 ∉ y)
    (h : x ++ 0 :: z = y ++ 0 :: w) : x = y ∧ z = w := by
  induction x generalizing y with
  | nil =>
    cases y with
    | nil => exact ⟨rfl, (List.cons.inj h).2⟩
    | cons b y => exact absurd ((List.cons.inj h).1 ▸ List.mem_cons_self) hy
  | cons a x ih =>
    cases y with
    | nil => exact absurd ((List.cons.inj h).1 ▸ List.mem_cons_self) hx
    | cons b y =>
      obtain ⟨rfl, htail⟩ := List.cons.inj h
      rw [List.mem_cons, not_or] at hx hy
      obtain ⟨rfl, rfl⟩ := ih hx.2 hy.2 htail
      exact ⟨rfl, rfl⟩

/-- **Sealed parts can be told apart**: as many parts without zero bytes, and what follows them, are
determined by the text. -/
theorem sealed_inj {parts parts' : List Bytes} {rest rest' : Bytes}
    (hparts : ∀ part ∈ parts, 0 ∉ part) (hparts' : ∀ part ∈ parts', 0 ∉ part)
    (h : sealed parts rest = sealed parts' rest') (hlength : parts.length = parts'.length) :
    parts = parts' ∧ rest = rest' := by
  induction parts generalizing parts' with
  | nil =>
    obtain rfl := List.eq_nil_of_length_eq_zero hlength.symm
    exact ⟨rfl, h⟩
  | cons part parts ih =>
    cases parts' with
    | nil => cases hlength
    | cons part' parts' =>
      rw [List.forall_mem_cons] at hparts hparts'
      obtain ⟨hpart, htail⟩ := append_zero_inj hparts.1 hparts'.1 h
      obtain ⟨hrest, hfollow⟩ := ih hparts.2 hparts'.2 htail (Nat.succ.inj hlength)
      exact ⟨congrArg₂ List.cons hpart hrest, hfollow⟩

/-! ## Levels -/

/-- There is no zero byte in a number. -/
lemma zero_notMem_decimal (n : Int) : 0 ∉ Bytes.decimal n := fun h =>
  absurd ((Json.literal_decimal n).lt_of_mem h) (by decide)

/-- The decimal form of a level determines the level. -/
lemma decimal_toInt_inj {m n : Int64} (h : Bytes.decimal m.toInt = Bytes.decimal n.toInt) :
    m = n := by
  have hread := Json.integer?_decimal m
  rw [h, Json.integer?_decimal] at hread
  exact (Option.some.inj hread).symm

/-! ## Subjects -/

namespace Subject

variable {s t : Subject}

/-- There are no zero bytes in the version and in the path. There may be some in the content. -/
structure Plain (s : Subject) : Prop where
  version : 0 ∉ s.version
  file : 0 ∉ s.file

/-- The parts of a subject that are sealed. -/
def parts (s : Subject) : List Bytes := [s.version, Bytes.decimal s.level.toInt, s.file]

/-- There are as many parts in all subjects. -/
lemma length_parts (s : Subject) : s.parts.length = 3 := rfl

/-- The text of a subject: its sealed parts, and its content. -/
lemma text_eq_sealed (s : Subject) : s.text = sealed s.parts s.content := rfl

/-- Behind the version there are no zero bytes in the parts if there are none in the path. -/
lemma zero_notMem_tail (hs : 0 ∉ s.file) : ∀ part ∈ s.parts.tail, 0 ∉ part :=
  List.forall_mem_cons.mpr ⟨zero_notMem_decimal _, List.forall_mem_singleton.mpr hs⟩

/-- There are no zero bytes in the parts of a plain subject. -/
lemma Plain.zero_notMem (hs : s.Plain) : ∀ part ∈ s.parts, 0 ∉ part :=
  List.forall_mem_cons.mpr ⟨hs.version, zero_notMem_tail hs.file⟩

/-- A subject is determined by its parts and its content. -/
lemma eq_of_parts_eq (hparts : s.parts = t.parts) (hcontent : s.content = t.content) : s = t := by
  obtain ⟨hversion, htail⟩ := List.cons.inj hparts
  obtain ⟨hlevel, htail⟩ := List.cons.inj htail
  have hfile := List.singleton_inj.mp htail
  cases s
  cases t
  rw [mk.injEq]
  exact ⟨hversion, decimal_toInt_inj hlevel, hfile, hcontent⟩

/-- **The text of a subject determines the subject**, under one version of the rules, if there is no
zero byte in its path. -/
theorem text_inj (hversion : s.version = t.version) (hs : 0 ∉ s.file) (ht : 0 ∉ t.file)
    (h : s.text = t.text) : s = t := by
  rw [text, text, hversion] at h
  -- the version need not be told apart from the rest
  have htail : sealed s.parts.tail s.content = sealed t.parts.tail t.content :=
    (List.cons.inj (List.append_cancel_left h)).2
  have hlength : s.parts.tail.length = t.parts.tail.length := by
    rw [List.length_tail, List.length_tail, length_parts, length_parts]
  obtain ⟨hparts, hcontent⟩ :=
    sealed_inj (zero_notMem_tail hs) (zero_notMem_tail ht) htail hlength
  exact eq_of_parts_eq (congrArg₂ List.cons hversion hparts) hcontent

/-- **The hashed text is unambiguous**: plain subjects have the same text only if they are the
same. -/
theorem text_eq_iff (hs : s.Plain) (ht : t.Plain) : s.text = t.text ↔ s = t := by
  refine ⟨fun h => ?_, fun h => h ▸ rfl⟩
  rw [text_eq_sealed, text_eq_sealed] at h
  obtain ⟨hparts, hcontent⟩ := sealed_inj hs.zero_notMem ht.zero_notMem h
    (s.length_parts.trans t.length_parts.symm)
  exact eq_of_parts_eq hparts hcontent

/-- A subject with a zero byte in its content. -/
def zeroInside : Subject where
  version := utf8 "2"
  level := -5
  file := utf8 "src/A.php"
  content := utf8 "<?php" ++ 0 :: utf8 "echo 1;"

/-- The same bytes with another boundary between path and content. -/
def shifted : Subject where
  version := utf8 "2"
  level := -5
  file := utf8 "src/A.php<"
  content := utf8 "?php" ++ 0 :: utf8 "echo 1;"

/-- The boundary between path and content shows in the text. -/
theorem text_zeroInside_ne_shifted :
    zeroInside.Plain ∧ shifted.Plain ∧ zeroInside.text ≠ shifted.text := by
  have hfirst : zeroInside.Plain := ⟨by decide, by decide⟩
  have hsecond : shifted.Plain := ⟨by decide, by decide⟩
  refine ⟨hfirst, hsecond, ?_⟩
  intro h
  exact absurd ((text_eq_iff hfirst hsecond).mp h) (by decide)

-- a path with a zero byte could take over the head of the content
example : text ⟨utf8 "2", 5, utf8 "a" ++ 0 :: utf8 "b", utf8 "c"⟩ =
    text ⟨utf8 "2", 5, utf8 "a", utf8 "b" ++ 0 :: utf8 "c"⟩ := by decide

end Subject

end LintPool.Cache
