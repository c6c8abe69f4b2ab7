import LintPool.Proofs.Json.Value
import Mathlib

/-!
# How long the texts of values are

The compact text of a value is not longer than the text that the value was read off: it grows with
every token by the text of this token, and leaves out only the blanks. Hence the parts of a value,
such as the keys of an object, are as long as this text at most.

## Main definitions

* `LintPool.Json.written` : the length of the compact text of what has been read so far.

## Main results

* `LintPool.Json.written_step?` : what a token adds to it.
* `LintPool.Json.length_print_le` : the compact text of a value that was read.
-/

namespace LintPool.Json

/-! ## Containers -/

section Containers

/-- The length of some parts, each with a byte behind it. -/
def spaced (parts : List Bytes) : Nat := (parts.map fun p => p.length + 1).sum

/-- No part at all. -/
@[simp] lemma spaced_nil : spaced [] = 0 := rfl

/-- One part more. -/
@[simp] lemma spaced_cons (p : Bytes) (parts : List Bytes) :
    spaced (p :: parts) = p.length + 1 + spaced parts := List.sum_cons

/-- Parts after others. -/
@[simp] lemma spaced_append (parts parts' : List Bytes) :
    spaced (parts ++ parts') = spaced parts + spaced parts' := by
  rw [spaced, spaced, spaced, List.map_append, List.sum_append]

/-- The order of the parts does not matter. -/
@[simp] lemma spaced_reverse (parts : List Bytes) : spaced parts.reverse = spaced parts := by
  rw [spaced, spaced, List.map_reverse, List.sum_reverse]

/-- Between parts there is one separator less. -/
lemma length_join (sep : UInt8) (p : Bytes) (parts : List Bytes) :
    (Bytes.join [sep] (p :: parts)).length + 1 = spaced (p :: parts) := by
  induction parts generalizing p with
  | nil => simp
  | cons q parts ih =>
    rw [join_cons_cons, spaced_cons, ← ih q]
    simp only [List.length_append, List.length_singleton]
    omega

/-- The number of the parts and the length of each of them. -/
lemma le_spaced (parts : List Bytes) :
    parts.length ≤ spaced parts ∧ ∀ p ∈ parts, p.length + 1 ≤ spaced parts := by
  induction parts with
  | nil => exact ⟨Nat.le_refl 0, nofun⟩
  | cons q parts ih =>
    obtain ⟨hlength, hparts⟩ := ih
    rw [spaced_cons, List.length_cons]
    refine ⟨by omega, fun p hp => ?_⟩
    rcases List.mem_cons.mp hp with rfl | hp
    · omega
    · have := hparts p hp
      omega

/-- The length of an array. -/
lemma length_print_array (items : List Json) :
    (print (.array items)).length =
      spaced (items.map print) + if items.isEmpty then 2 else 1 := by
  cases items with
  | nil => rw [print_array]; rfl
  | cons v items =>
    rw [print_array, List.map_cons, ← length_join (byte ',')]
    simp

/-- The length of an object. -/
lemma length_print_object (members : List (Bytes × Json)) :
    (print (.object members)).length =
      spaced (members.map printMember) + if members.isEmpty then 2 else 1 := by
  cases members with
  | nil => rw [print_object]; rfl
  | cons m members =>
    rw [print_object, List.map_cons, ← length_join (byte ',')]
    simp

/-- The length of a member. -/
lemma length_printMember (m : Bytes × Json) :
    (printMember m).length = m.1.length + 3 + (print m.2).length := by
  simp [printMember, quote]
  omega

/-- The items of an array and their number are at most as long as its text. -/
lemma length_le_array (items : List Json) :
    items.length ≤ (print (.array items)).length ∧
      ∀ v ∈ items, (print v).length ≤ (print (.array items)).length := by
  obtain ⟨hlength, hparts⟩ := le_spaced (items.map print)
  rw [length_print_array]
  rw [List.length_map] at hlength
  refine ⟨by omega, fun v hv => ?_⟩
  have := hparts _ (List.mem_map_of_mem hv)
  omega

/-- A key of an object and its value are at most as long as its text. -/
lemma length_le_object {m : Bytes × Json} {members : List (Bytes × Json)} (hm : m ∈ members) :
    m.1.length + (print m.2).length ≤ (print (.object members)).length := by
  have hle := (le_spaced (members.map printMember)).2 _ (List.mem_map_of_mem hm)
  rw [length_printMember] at hle
  rw [length_print_object]
  omega

end Containers

/-! ## Reading -/

/-- The length of the compact text of what an open container holds, without the key whose value is
being read. -/
@[simp] def Frame.held : Frame → Nat
  | .array items => spaced (items.map print) + 1
  | .object members _ => spaced (members.map printMember) + 1

/-- The length of the key whose value is being read, with its quotes and the colon. -/
@[simp] def Frame.pending : Frame → Nat
  | .array _ => 0
  | .object _ key => key.length + 3

/-- The length of the compact text of what has been read so far. An object that waits for a key or
for the colon behind it has no value being read: the key that it keeps is the one before. -/
@[simp] def written (stack : List Frame) : Await → Nat
  | .value | .item => (stack.map Frame.held).sum + (stack.map Frame.pending).sum
  | .member | .key => (stack.map Frame.held).sum + (stack.tail.map Frame.pending).sum
  | .colon key =>
    (stack.map Frame.held).sum + (stack.tail.map Frame.pending).sum + (quote key).length
  | .next v => (stack.map Frame.held).sum + (stack.map Frame.pending).sum + (print v).length

section Reading

variable {stack stack' : List Frame} {await await' : Await} {token : Token} {s rest : Bytes}
  {v : Json}

/-- What the start of a value adds. -/
lemma written_begin? (hopen : await.IsOpen) (h : begin? stack token = some (stack', await')) :
    written stack' await' = written stack await + token.text.length := by
  have hwritten : written stack await = written stack .value := by
    rcases hopen with rfl | rfl
    · rfl
    · rfl
  rw [hwritten]
  unfold begin? push? at h
  split at h
  · cases h
    rfl
  · split at h
    · cases h
      simp [Token.text]
      omega
    · cases h
  · split at h
    · cases h
      simp [Token.text]
      omega
    · cases h
  · cases h

/-- **What a token adds** to the compact text is its own text. -/
theorem written_step? (h : step? stack await token = some (stack', await')) :
    written stack' await' = written stack await + token.text.length := by
  unfold step? at h
  split at h
  · exact written_begin? (.inl rfl) h
  · -- the end of an empty array
    cases h
    simp [Token.text, length_print_array]
    omega
  · exact written_begin? (.inr rfl) h
  · -- the end of an empty object
    cases h
    simp [Token.text, length_print_object]
    omega
  · cases h
    simp [Token.text, print]
  · cases h
    simp [Token.text, print]
  · -- the colon behind a key
    cases h
    simp [Token.text, quote]
    omega
  · -- a further item
    cases h
    simp [Token.text]
    omega
  · cases h
    simp [Token.text, length_print_array]
    omega
  · -- a further member
    cases h
    simp [Token.text, length_printMember]
    omega
  · cases h
    simp [Token.text, length_print_object, length_printMember]
    omega
  · cases h

/-- A token and what follows it are not longer than the text. -/
lemma length_text_le (h : Token.next? s = some (token, rest)) :
    token.text.length + rest.length ≤ s.length := by
  obtain ⟨-, -, htext⟩ := of_next? h
  rw [← List.length_append, ← htext]
  exact (List.dropWhile_suffix isBlank).length_le

/-- What is read on is not longer than the text. -/
lemma length_of_resume? (h : resume? stack await s = some (v, rest)) :
    (print v).length + rest.length ≤ written stack await + s.length := by
  fun_induction resume? stack await s with
  | case1 w s =>
    obtain ⟨rfl, rfl⟩ := Prod.mk.inj (Option.some.inj h)
    simp
  | case2 => cases h
  | case3 stack await s token s' hnext hstep =>
    rw [hstep] at h
    cases h
  | case4 stack await s token s' hnext stack' await' hstep _ ih =>
    rw [hstep] at h
    have hrest := ih h
    have hstep := written_step? hstep
    have hnext := length_text_le hnext
    omega

/-- **The compact text of a value that was read** and what follows the value are together not longer
than the text that it was read off. -/
theorem length_print_le (h : read? s = some (v, rest)) :
    (print v).length + rest.length ≤ s.length := by
  have hread := length_of_resume? h
  rw [written, List.map_nil, List.map_nil, List.sum_nil] at hread
  omega

/-! ## Source texts -/

/-- The source text of a member's value is a part of the text, unless it was read before. -/
lemma of_mem_sourceMembersAux {fuel : Nat} {acc : List (Bytes × Bytes)} {m : Bytes × Bytes}
    (hm : m ∈ sourceMembersAux fuel acc s) : m ∈ acc ∨ m.2.length ≤ s.length := by
  induction fuel generalizing acc s with
  | zero => exact .inl (List.mem_reverse.mp hm)
  | succ fuel ih =>
    rw [sourceMembersAux] at hm
    split at hm
    · rename_i key s₁ hkey
      split at hm
      · rename_i s₂ hcolon
        have hstart : (s₂.dropWhile isBlank).length ≤ s.length := by
          have hdrop := (List.dropWhile_suffix isBlank (l := s₂)).length_le
          have hkey := Token.length_of_next? hkey
          have hcolon := Token.length_of_next? hcolon
          omega
        simp only at hm
        split at hm
        · rename_i w rest hread
          have htake : ((s₂.dropWhile isBlank).take
              ((s₂.dropWhile isBlank).length - rest.length)).length ≤ s.length :=
            Nat.le_trans (List.length_take_le' _ _) hstart
          split at hm
          · rename_i s₃ hcomma
            rcases ih hm with hacc | hlength
            · rcases List.mem_cons.mp hacc with rfl | hacc
              · exact .inr htake
              · exact .inl hacc
            · have hcomma := Token.length_of_next? hcomma
              have hread := length_print_le hread
              exact .inr (by omega)
          · rcases List.mem_cons.mp (List.mem_reverse.mp hm) with rfl | hacc
            · exact .inr htake
            · exact .inl hacc
        · exact .inl (List.mem_reverse.mp hm)
      · exact .inl (List.mem_reverse.mp hm)
    · exact .inl (List.mem_reverse.mp hm)

/-- The source texts of an object's values are parts of its text. -/
lemma length_of_mem_sourceMembers {m : Bytes × Bytes} (hm : m ∈ sourceMembers s) :
    m.2.length ≤ s.length := by
  unfold sourceMembers at hm
  split at hm
  · rename_i rest hopen
    have hlength := (of_mem_sourceMembersAux hm).resolve_left List.not_mem_nil
    exact Nat.le_trans hlength (Nat.le_of_lt (Token.length_of_next? hopen))
  · cases hm

end Reading

end LintPool.Json
