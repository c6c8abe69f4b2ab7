import LintPool.Proofs.Json.Value
import Mathlib.Data.List.DropRight

/-!
# Texts that are cut off

A container that has been read to its end is read in the same way whatever is appended to the text:
the last token is its closing bracket, and every token before is followed by another one, so that
nothing appended could continue it. Hence no container can be read off a text that breaks off before
its end.

## Main results

* `LintPool.Json.resume?_append` : what is read inside of a container does not depend on what comes
  after it.
* `LintPool.Json.read?_eq_none_of_cut` : an object that is cut off is not read.
-/

namespace LintPool.Json

/-! ## Tokens of a longer text -/

section Tokens

variable {s rest : Bytes} {token : Token}

/-- Blanks in front of a token do not matter. -/
lemma next?_dropWhile (s : Bytes) : Token.next? (s.dropWhile isBlank) = Token.next? s := by
  rw [Token.next?, Token.next?, List.dropWhile_idempotent]

/-- There is a text behind the blanks in front of a token. -/
lemma dropWhile_ne_nil (h : Token.next? s = some (token, rest)) : s.dropWhile isBlank ≠ [] := by
  intro hnil
  rw [Token.next?, hnil] at h
  cases h

/-- A token is read off a longer text, unless it is a scalar that could be continued. -/
lemma next?_append {u : Bytes} (h : Token.next? s = some (token, rest))
    (hends : ∀ v, token = .scalar v → Ends (rest ++ u)) :
    Token.next? (s ++ u) = some (token, rest ++ u) := by
  obtain ⟨-, hreadable, htext⟩ := of_next? h
  have hdrop : (s ++ u).dropWhile isBlank = token.text ++ (rest ++ u) := by
    rw [List.dropWhile_append, if_neg (by simpa using dropWhile_ne_nil h), htext,
      List.append_assoc]
  rw [← next?_dropWhile, hdrop]
  exact hreadable _ hends

/-- A token other than a scalar is a single byte. -/
lemma text_of_ne_scalar (htoken : ∀ v, token ≠ .scalar v) :
    ∃ b, token.text = [b] ∧ (Token.punctuation? b).isSome = true := by
  cases token with
  | scalar v => exact absurd rfl (htoken v)
  | beginArray | endArray | beginObject | endObject | comma | colon => exact ⟨_, rfl, by decide⟩

/-- What starts with a token other than a scalar does not continue a literal. -/
lemma ends_of_next? (h : Token.next? s = some (token, rest)) (htoken : ∀ v, token ≠ .scalar v)
    (u : Bytes) : Ends (s ++ u) := by
  obtain ⟨-, -, htext⟩ := of_next? h
  obtain ⟨b, hb, hpunctuation⟩ := text_of_ne_scalar htoken
  cases s with
  | nil => exact absurd rfl (dropWhile_ne_nil h)
  | cons a s =>
    cases hblank : isBlank a with
    | true =>
      rintro _ ⟨rfl⟩
      exact Utf8.forall_byte (P := fun a => isBlank a = true → continuesNumber a = false)
        (by decide +kernel) a hblank
    | false =>
      rw [List.dropWhile_cons_of_neg (by simp [hblank]), hb] at htext
      obtain rfl : a = b := (List.cons.inj htext).1
      exact ends_punctuation hpunctuation (s ++ u)

end Tokens

/-! ## Steps -/

section Steps

variable {stack stack' : List Frame} {await await' : Await} {token : Token} {v : Json}

/-- After a complete value no scalar can follow. -/
lemma step?_next_scalar (stack : List Frame) (v w : Json) :
    step? stack (.next v) (.scalar w) = none := by
  cases stack with
  | nil => rfl
  | cons frame stack => cases frame <;> rfl

/-- After a key no scalar can follow. -/
lemma step?_colon_scalar (stack : List Frame) (key : Bytes) (w : Json) :
    step? stack (.colon key) (.scalar w) = none := by
  cases stack with
  | nil => rfl
  | cons frame stack => cases frame <;> rfl

/-- A scalar opens and closes nothing, and no other scalar can follow it. -/
lemma step?_scalar (h : step? stack await (.scalar v) = some (stack', await')) :
    stack' = stack ∧ ∀ w, step? stack' await' (.scalar w) = none := by
  have hvalue (h : begin? stack (.scalar v) = some (stack', await')) :
      stack' = stack ∧ ∀ w, step? stack' await' (.scalar w) = none := by
    obtain ⟨rfl, rfl⟩ := Prod.mk.inj (Option.some.inj h)
    exact ⟨rfl, step?_next_scalar _ v⟩
  cases await with
  | value => exact hvalue h
  | item =>
    rw [step?] at h
    · exact hvalue h
    · intro _ _ htoken
      cases htoken
  | member | key =>
    cases v with
    | string key =>
      rw [step?] at h
      obtain ⟨rfl, rfl⟩ := Prod.mk.inj (Option.some.inj h)
      exact ⟨rfl, step?_colon_scalar _ key⟩
    | null | bool | number | array | object => simp [step?] at h
  | colon key =>
    rw [step?_colon_scalar] at h
    cases h
  | next w =>
    rw [step?_next_scalar] at h
    cases h

/-- The start of a value leaves a container open if one was. -/
lemma begin?_ne_nil (hstack : stack ≠ []) (h : begin? stack token = some (stack', await')) :
    stack' ≠ [] := by
  unfold begin? push? at h
  repeat' split at h
  all_goals cases h
  · exact hstack
  · exact List.cons_ne_nil _ _
  · exact List.cons_ne_nil _ _

/-- The step that closes the last container leaves a complete value. -/
lemma step?_closes (hstack : stack ≠ []) (h : step? stack await token = some ([], await')) :
    ∃ w, await' = .next w := by
  unfold step? at h
  split at h
  · exact absurd rfl (begin?_ne_nil hstack h)
  · cases h
    exact ⟨_, rfl⟩
  · exact absurd rfl (begin?_ne_nil hstack h)
  · cases h
    exact ⟨_, rfl⟩
  · cases h
    exact absurd rfl hstack
  · cases h
    exact absurd rfl hstack
  · cases h
  · cases h
  · cases h
    exact ⟨_, rfl⟩
  · cases h
  · cases h
    exact ⟨_, rfl⟩
  · cases h

end Steps

/-! ## Reading on -/

section Reading

variable {stack : List Frame} {await : Await} {s rest : Bytes} {v : Json}

/-- Inside of a container the reader goes on to the next token. -/
lemma of_resume? (hstack : stack ≠ []) (h : resume? stack await s = some (v, rest)) :
    ∃ token s' stack' await', Token.next? s = some (token, s') ∧
      step? stack await token = some (stack', await') ∧
      resume? stack' await' s' = some (v, rest) := by
  rw [resume?.eq_def] at h
  split at h
  · exact absurd rfl hstack
  split at h
  · cases h
  · rename_i token s' hnext
    split at h
    · cases h
    · rename_i stack' await' hstep
      exact ⟨token, s', stack', await', hnext, hstep, h⟩

/-- **What is read inside of a container does not depend on what comes after it.**

**Proof sketch.** By induction on the reading. A step that closes the last container is a bracket,
which nothing continues. After any other step the reader has another token to read, and behind a
scalar this token is none that could continue it. -/
theorem resume?_append (hstack : stack ≠ []) (h : resume? stack await s = some (v, rest))
    (u : Bytes) : resume? stack await (s ++ u) = some (v, rest ++ u) := by
  fun_induction resume? stack await s with
  | case1 => exact absurd rfl hstack
  | case2 => cases h
  | case3 stack await s token s' hnext hstep =>
    rw [hstep] at h
    cases h
  | case4 stack await s token s' hnext stack' await' hstep _ ih =>
    rw [hstep] at h
    change resume? stack' await' s' = some (v, rest) at h
    have hopen : ∀ v, token = .scalar v → stack' ≠ [] := by
      rintro v rfl
      exact (step?_scalar hstep).1 ▸ hstack
    have hends : ∀ v, token = .scalar v → Ends (s' ++ u) := by
      rintro v rfl
      obtain ⟨token', s'', stack'', await'', hnext', hstep', -⟩ := of_resume? (hopen v rfl) h
      refine ends_of_next? hnext' (fun w hw => ?_) u
      rw [hw, (step?_scalar hstep).2] at hstep'
      cases hstep'
    rw [resume?_step (next?_append hnext hends) hstep]
    by_cases hstack' : stack' = []
    · subst hstack'
      obtain ⟨w, rfl⟩ := step?_closes hstack hstep
      rw [resume?_done] at h ⊢
      obtain ⟨rfl, rfl⟩ := Prod.mk.inj (Option.some.inj h)
      rfl
    · exact ih hstack' h

/-- **An object that is cut off is not read.** -/
theorem read?_eq_none_of_cut {t u : Bytes} (h : read? (byte '{' :: (t ++ u)) = some (v, []))
    (hu : u ≠ []) : read? (byte '{' :: t) = none := by
  have hopen (s : Bytes) : read? (byte '{' :: s) = resume? [.object [] []] .member s :=
    resume?_step (next?_punctuation rfl s) rfl
  rw [hopen] at h ⊢
  cases hread : resume? [.object [] []] .member t with
  | none => rfl
  | some result =>
    obtain ⟨w, rest⟩ := result
    have hlonger := resume?_append (List.cons_ne_nil _ _) hread u
    rw [h] at hlonger
    have hnil := (Prod.mk.inj (Option.some.inj hlonger)).2
    exact absurd (List.append_eq_nil_iff.mp hnil.symm).2 hu

end Reading

end LintPool.Json
