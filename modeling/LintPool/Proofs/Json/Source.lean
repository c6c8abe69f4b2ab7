import LintPool.Proofs.Json.Cut
import LintPool.Proofs.Json.Record
import Mathlib.Data.List.Forall2

/-!
# The source texts of members

The members of an object can be taken with the source texts of their values. On any text that starts
with an object, these are the members that the reader of values gives, in order, and each source
text is that of its value and of nothing else: reading it gives the value again.

A value is read in the same way inside of other containers as by itself. The containers around it
count only for how deeply it may nest, which is why a value inside of an object nests less deeply
than a text may.

## Main definitions

* `LintPool.Json.IsSource` : a key and a source text are those of a member.

## Main results

* `LintPool.Json.depth_le_of_read?` : what is read does not nest too deeply.
* `LintPool.Json.exists_source` : a value is read from its own source text.
* `LintPool.Json.resume?_of_append` : a value inside of containers is read as it is by itself.
* `LintPool.Json.sourceMembers_of_read?` : the members of an object with their source texts.
-/

namespace LintPool.Json

/-! ## Depth -/

section Depth

variable {stack stack' : List Frame} {await await' : Await} {token : Token} {s rest : Bytes}
  {v : Json}

/-- Whether all that an open container holds nests less deeply than `n`. -/
def Frame.Below (n : Nat) : Frame → Prop
  | .array items => ∀ v ∈ items, v.depth < n
  | .object members _ => ∀ m ∈ members, m.2.depth < n

/-- Whether all that some open containers hold leaves room for those around it. -/
inductive Low : List Frame → Prop
  | nil : Low []
  | cons {frame : Frame} {stack : List Frame} (hframe : frame.Below (maxDepth - stack.length))
      (hlength : stack.length < maxDepth) (hstack : Low stack) : Low (frame :: stack)

/-- Whether what was read last leaves room for `n` containers around it. -/
def Await.Low (n : Nat) : Await → Prop
  | .next v => v.depth + n ≤ maxDepth
  | _ => True

/-- Open containers that leave room for those around them are not too many. -/
lemma Low.length_le (h : Low stack) : stack.length ≤ maxDepth := by
  cases h with
  | nil => exact Nat.zero_le _
  | cons _ hlength _ => exact hlength

/-- The innermost container leaves room for the others. -/
lemma Low.of_cons {frame : Frame} (h : Low (frame :: stack)) :
    frame.Below (maxDepth - stack.length) ∧ stack.length < maxDepth ∧ Low stack := by
  cases h with
  | cons hframe hlength hstack => exact ⟨hframe, hlength, hstack⟩

/-- One more item of an array. -/
lemma Frame.Below.item {n : Nat} {items : List Json} (h : (Frame.array items).Below n)
    (hv : v.depth < n) : (Frame.array (v :: items)).Below n :=
  List.forall_mem_cons.mpr ⟨hv, h⟩

/-- One more member of an object. -/
lemma Frame.Below.member {n : Nat} {members : List (Bytes × Json)} {key : Bytes}
    (h : (Frame.object members key).Below n) (hv : v.depth < n) :
    (Frame.object ((key, v) :: members) key).Below n :=
  List.forall_mem_cons.mpr ⟨hv, h⟩

/-- A scalar nests no container. -/
lemma depth_of_next? (h : Token.next? s = some (.scalar v, rest)) : v.depth = 0 := by
  rw [Token.next?] at h
  generalize s.dropWhile isBlank = t at h
  cases t with
  | nil => cases h
  | cons a t =>
    rw [Token.here?] at h
    split at h
    · rename_i htoken
      obtain ⟨rfl, -⟩ := Prod.mk.inj (Option.some.inj h)
      unfold Token.punctuation? at htoken
      repeat' split at htoken
      all_goals cases htoken
    split at h
    · obtain ⟨⟨body, r⟩, -, heq⟩ := Option.map_eq_some_iff.mp h
      cases heq
      rw [depth.eq_def]
    split at h
    · obtain ⟨⟨l, r⟩, -, heq⟩ := Option.map_eq_some_iff.mp h
      cases heq
      rw [depth.eq_def]
    · obtain ⟨⟨w, r⟩, hread, heq⟩ := Option.map_eq_some_iff.mp h
      cases heq
      obtain ⟨⟨word, value⟩, hmem, hdrop⟩ := List.exists_of_findSome?_eq_some hread
      obtain ⟨r', -, heq⟩ := Option.map_eq_some_iff.mp hdrop
      cases heq
      simp only [Token.words, List.mem_cons, Prod.mk.injEq, List.not_mem_nil, or_false] at hmem
      rcases hmem with ⟨-, rfl⟩ | ⟨-, rfl⟩ | ⟨-, rfl⟩ <;> rw [depth.eq_def]

/-- What is in a list bounds its greatest number. -/
lemma foldr_max_le {n : Nat} {ns : List Nat} (h : ∀ k ∈ ns, k ≤ n) : ns.foldr max 0 ≤ n := by
  induction ns with
  | nil => exact Nat.zero_le n
  | cons k ns ih =>
    obtain ⟨hk, hns⟩ := List.forall_mem_cons.mp h
    exact Nat.max_le.mpr ⟨hk, ih hns⟩

/-- A value that is closed behind its last item nests one container more than they do. -/
lemma depth_array_le {items : List Json} {n : Nat} (h : (Frame.array items).Below n) (hn : 0 < n) :
    (Json.array items.reverse).depth ≤ n := by
  have hmax : ∀ k ∈ items.reverse.map depth, k ≤ n - 1 :=
    List.forall_mem_map.mpr fun v hv => Nat.le_sub_one_of_lt (h v (List.mem_reverse.mp hv))
  have hle := foldr_max_le hmax
  rw [depth.eq_def]
  simp only
  omega

/-- A value that is closed behind its last member nests one container more than they do. -/
lemma depth_object_le {members : List (Bytes × Json)} {key : Bytes} {n : Nat}
    (h : (Frame.object members key).Below n) (hn : 0 < n) :
    (Json.object members.reverse).depth ≤ n := by
  have hmax : ∀ k ∈ members.reverse.map fun m => m.2.depth, k ≤ n - 1 :=
    List.forall_mem_map.mpr fun m hm => Nat.le_sub_one_of_lt (h m (List.mem_reverse.mp hm))
  have hle := foldr_max_le hmax
  rw [depth.eq_def]
  simp only
  omega

/-- The start of a value leaves room. -/
lemma low_of_begin? (hstack : Low stack) (htoken : ∀ v, token = .scalar v → v.depth = 0)
    (h : begin? stack token = some (stack', await')) : Low stack' ∧ await'.Low stack'.length := by
  have hlength := hstack.length_le
  unfold begin? push? at h
  repeat' split at h
  all_goals cases h
  · refine ⟨hstack, ?_⟩
    rw [Await.Low, htoken _ rfl, Nat.zero_add]
    exact hlength
  · rename_i hlt
    exact ⟨.cons nofun hlt hstack, trivial⟩
  · rename_i hlt
    exact ⟨.cons nofun hlt hstack, trivial⟩

/-- **A step of the reader leaves room** for the containers that are open. -/
lemma low_of_step? (hstack : Low stack) (hawait : await.Low stack.length)
    (htoken : ∀ v, token = .scalar v → v.depth = 0)
    (h : step? stack await token = some (stack', await')) :
    Low stack' ∧ await'.Low stack'.length := by
  -- what is read inside of a container nests less deeply than the container may
  have hlt : ∀ {n k}, n < maxDepth → k + (n + 1) ≤ maxDepth → k < maxDepth - n := by omega
  have hle : ∀ {n k}, n < maxDepth → k ≤ maxDepth - n → k + n ≤ maxDepth := by omega
  unfold step? at h
  split at h
  · exact low_of_begin? hstack htoken h
  · obtain ⟨rfl, rfl⟩ := Prod.mk.inj (Option.some.inj h)
    obtain ⟨hframe, hlength, hstack⟩ := hstack.of_cons
    exact ⟨hstack, hle hlength (depth_array_le hframe (Nat.sub_pos_of_lt hlength))⟩
  · exact low_of_begin? hstack htoken h
  · obtain ⟨rfl, rfl⟩ := Prod.mk.inj (Option.some.inj h)
    obtain ⟨hframe, hlength, hstack⟩ := hstack.of_cons
    exact ⟨hstack, hle hlength (depth_object_le hframe (Nat.sub_pos_of_lt hlength))⟩
  · obtain ⟨rfl, rfl⟩ := Prod.mk.inj (Option.some.inj h)
    exact ⟨hstack, trivial⟩
  · obtain ⟨rfl, rfl⟩ := Prod.mk.inj (Option.some.inj h)
    exact ⟨hstack, trivial⟩
  · obtain ⟨rfl, rfl⟩ := Prod.mk.inj (Option.some.inj h)
    obtain ⟨hframe, hlength, hstack⟩ := hstack.of_cons
    exact ⟨.cons hframe hlength hstack, trivial⟩
  · obtain ⟨rfl, rfl⟩ := Prod.mk.inj (Option.some.inj h)
    obtain ⟨hframe, hlength, hstack⟩ := hstack.of_cons
    exact ⟨.cons (hframe.item (hlt hlength hawait)) hlength hstack, trivial⟩
  · obtain ⟨rfl, rfl⟩ := Prod.mk.inj (Option.some.inj h)
    obtain ⟨hframe, hlength, hstack⟩ := hstack.of_cons
    have hitems := hframe.item (hlt hlength hawait)
    exact ⟨hstack, hle hlength (depth_array_le hitems (Nat.sub_pos_of_lt hlength))⟩
  · obtain ⟨rfl, rfl⟩ := Prod.mk.inj (Option.some.inj h)
    obtain ⟨hframe, hlength, hstack⟩ := hstack.of_cons
    exact ⟨.cons (hframe.member (hlt hlength hawait)) hlength hstack, trivial⟩
  · obtain ⟨rfl, rfl⟩ := Prod.mk.inj (Option.some.inj h)
    obtain ⟨hframe, hlength, hstack⟩ := hstack.of_cons
    have hmembers := hframe.member (hlt hlength hawait)
    exact ⟨hstack, hle hlength (depth_object_le hmembers (Nat.sub_pos_of_lt hlength))⟩
  · cases h

/-- What is read with room at hand leaves room. -/
lemma depth_le_of_resume? (hstack : Low stack) (hawait : await.Low stack.length)
    (h : resume? stack await s = some (v, rest)) : v.depth ≤ maxDepth := by
  fun_induction resume? stack await s with
  | case1 w s =>
    obtain ⟨rfl, -⟩ := Prod.mk.inj (Option.some.inj h)
    exact hawait
  | case2 => cases h
  | case3 stack await s token s' hnext hstep =>
    rw [hstep] at h
    cases h
  | case4 stack await s token s' hnext stack' await' hstep _ ih =>
    have htoken : ∀ w, token = .scalar w → w.depth = 0 := by
      rintro w rfl
      exact depth_of_next? hnext
    obtain ⟨hstack', hawait'⟩ := low_of_step? hstack hawait htoken hstep
    rw [hstep] at h
    exact ih hstack' hawait' h

/-- **What is read does not nest too deeply.** -/
theorem depth_le_of_read? (h : read? s = some (v, rest)) : v.depth ≤ maxDepth := by
  have hawait : Await.value.Low ([] : List Frame).length := trivial
  exact depth_le_of_resume? .nil hawait h

end Depth

/-! ## Source texts -/

section Sources

variable {stack stack' inner outer : List Frame} {await await' : Await} {token : Token}
  {s rest : Bytes} {v : Json}

/-- The reader has a complete value outside of all containers, or goes on to the next token. -/
lemma cases_resume? (h : resume? stack await s = some (v, rest)) :
    (stack = [] ∧ await = .next v ∧ s = rest) ∨
      ∃ token s' stack' await', Token.next? s = some (token, s') ∧
        step? stack await token = some (stack', await') ∧
        resume? stack' await' s' = some (v, rest) := by
  rw [resume?.eq_def] at h
  split at h
  · obtain ⟨rfl, rfl⟩ := Prod.mk.inj (Option.some.inj h)
    exact .inl ⟨rfl, rfl, rfl⟩
  split at h
  · cases h
  · rename_i token s' hnext
    split at h
    · cases h
    · rename_i stack' await' hstep
      exact .inr ⟨token, s', stack', await', hnext, hstep, h⟩

/-- The text of a token starts with no blank. -/
lemma Token.Sound.text_cons (h : token.Sound) :
    ∃ a t, token.text = a :: t ∧ isBlank a = false := by
  cases token with
  | scalar v => exact WellFormed.print_cons h
  | beginArray | endArray | beginObject | endObject | comma | colon => exact ⟨_, _, rfl, by decide⟩

/-- **A value is read from its own source text**: what stands before the rest of a text is enough to
read the value.

**Proof sketch.** By induction on the reading. Each token is read behind the same blanks; behind a
scalar there is either nothing or another token, which cannot continue the scalar. -/
theorem exists_source (h : resume? stack await s = some (v, rest)) :
    ∃ t, s = t ++ rest ∧ resume? stack await t = some (v, []) := by
  fun_induction resume? stack await s with
  | case1 w s =>
    obtain ⟨rfl, rfl⟩ := Prod.mk.inj (Option.some.inj h)
    exact ⟨[], rfl, resume?_done _ []⟩
  | case2 => cases h
  | case3 stack await s token s' hnext hstep =>
    rw [hstep] at h
    cases h
  | case4 stack await s token s' hnext stack' await' hstep _ ih =>
    rw [hstep] at h
    obtain ⟨t, rfl, hread⟩ := ih h
    obtain ⟨hsound, hreadable, htext⟩ := of_next? hnext
    have hends : ∀ w, token = .scalar w → Ends t := by
      rintro w rfl
      rcases cases_resume? hread with ⟨-, -, rfl⟩ | ⟨token', s'', _, _, hnext', hstep', -⟩
      · intro b hb
        cases hb
      · have hscalar : ∀ u, token' ≠ .scalar u := by
          rintro u rfl
          rw [(step?_scalar hstep).2] at hstep'
          cases hstep'
        have hends := ends_of_next? hnext' hscalar []
        rwa [List.append_nil] at hends
    have hsplit := List.takeWhile_append_dropWhile (p := isBlank) (l := s)
    rw [htext] at hsplit
    refine ⟨s.takeWhile isBlank ++ (token.text ++ t), ?_, ?_⟩
    · rw [List.append_assoc, List.append_assoc]
      exact hsplit.symm
    · have hdrop : (s.takeWhile isBlank ++ (token.text ++ t)).dropWhile isBlank =
          token.text ++ t := by
        obtain ⟨a, u, hcons, ha⟩ := hsound.text_cons
        rw [List.dropWhile_append_of_pos fun b hb => List.mem_takeWhile_imp hb, hcons,
          List.cons_append, List.dropWhile_cons_of_neg (by simp [ha])]
      have hnext' : Token.next? (s.takeWhile isBlank ++ (token.text ++ t)) = some (token, t) := by
        rw [← next?_dropWhile, hdrop]
        exact hreadable t hends
      rw [resume?_step hnext' hstep]
      exact hread

end Sources

/-! ## Values inside of containers -/

section Inside

variable {stack inner outer : List Frame} {await await' : Await} {token : Token} {s rest : Bytes}
  {v : Json}

/-- The start of a value inside of some containers, as it is by itself. -/
lemma begin?_of_append (h : begin? (inner ++ outer) token = some (stack, await')) :
    ∃ inner', stack = inner' ++ outer ∧ begin? inner token = some (inner', await') ∧
      (inner' ≠ [] ∨ ∃ w, await' = .next w) := by
  have hlength : (inner ++ outer).length < maxDepth → inner.length < maxDepth := by
    rw [List.length_append]
    omega
  unfold begin? push? at h
  repeat' split at h
  all_goals cases h
  · exact ⟨inner, rfl, rfl, .inr ⟨_, rfl⟩⟩
  · rename_i hlt
    exact ⟨_ :: inner, rfl, if_pos (hlength hlt), .inl (List.cons_ne_nil _ _)⟩
  · rename_i hlt
    exact ⟨_ :: inner, rfl, if_pos (hlength hlt), .inl (List.cons_ne_nil _ _)⟩

/-- **A step inside of some containers**, as it is by itself, unless a complete value has been
read. -/
lemma step?_of_append (hinner : inner ≠ [] ∨ await = .value)
    (h : step? (inner ++ outer) await token = some (stack, await')) :
    ∃ inner', stack = inner' ++ outer ∧ step? inner await token = some (inner', await') ∧
      (inner' ≠ [] ∨ ∃ w, await' = .next w) := by
  cases inner with
  | nil =>
    obtain rfl := hinner.resolve_left (fun hne => hne rfl)
    rw [step?] at h
    exact begin?_of_append h
  | cons frame inner =>
    rw [List.cons_append] at h
    have hopen : ∀ {await : Await}, await.IsOpen →
        begin? ((frame :: inner) ++ outer) token = some (stack, await') →
        ∃ inner', stack = inner' ++ outer ∧
          step? (frame :: inner) await token = some (inner', await') ∧
          (inner' ≠ [] ∨ ∃ w, await' = .next w) := by
      intro await hopen hbegin
      obtain ⟨inner', hstack, hbegin', hnext⟩ := begin?_of_append hbegin
      exact ⟨inner', hstack, step?_of_begin? hopen hbegin', hnext⟩
    have hkey : ∀ {await : Await} {key : Bytes}, await.IsKey → token = .scalar (.string key) →
        (frame :: (inner ++ outer), Await.colon key) = (stack, await') →
        ∃ inner', stack = inner' ++ outer ∧
          step? (frame :: inner) await token = some (inner', await') ∧
          (inner' ≠ [] ∨ ∃ w, await' = .next w) := by
      rintro await key hkey rfl heq
      cases heq
      exact ⟨frame :: inner, rfl, step?_key hkey, .inl (List.cons_ne_nil _ _)⟩
    -- each other step is a matter of the innermost container, which is one of the inner ones
    unfold step? at h
    split at h
    · exact hopen (.inl rfl) h
    · rename_i hstack
      cases hstack
      cases h
      exact ⟨inner, rfl, rfl, .inr ⟨_, rfl⟩⟩
    · exact hopen (.inr rfl) h
    · rename_i hstack
      cases hstack
      cases h
      exact ⟨inner, rfl, rfl, .inr ⟨_, rfl⟩⟩
    · exact hkey (.inl rfl) rfl (Option.some.inj h)
    · exact hkey (.inr rfl) rfl (Option.some.inj h)
    · rename_i hstack
      cases hstack
      cases h
      exact ⟨_ :: inner, rfl, rfl, .inl (List.cons_ne_nil _ _)⟩
    · rename_i hstack
      cases hstack
      cases h
      exact ⟨_ :: inner, rfl, rfl, .inl (List.cons_ne_nil _ _)⟩
    · rename_i hstack
      cases hstack
      cases h
      exact ⟨inner, rfl, rfl, .inr ⟨_, rfl⟩⟩
    · rename_i hstack
      cases hstack
      cases h
      exact ⟨_ :: inner, rfl, rfl, .inl (List.cons_ne_nil _ _)⟩
    · rename_i hstack
      cases hstack
      cases h
      exact ⟨inner, rfl, rfl, .inr ⟨_, rfl⟩⟩
    · cases h

/-- **A value inside of containers is read as it is by itself**, and then the reading of the
containers goes on. -/
theorem resume?_of_append (hinner : inner ≠ [] ∨ await = .value ∨ ∃ w, await = .next w)
    (h : resume? (inner ++ outer) await s = some (v, rest)) :
    ∃ w s', resume? inner await s = some (w, s') ∧
      resume? outer (.next w) s' = some (v, rest) := by
  induction hn : s.length using Nat.strongRecOn generalizing s inner await with
  | _ n ih =>
    by_cases hdone : inner = [] ∧ ∃ w, await = .next w
    · obtain ⟨rfl, w, rfl⟩ := hdone
      exact ⟨w, s, resume?_done w s, h⟩
    · have hinner' : inner ≠ [] ∨ await = .value := by
        by_contra hnot
        rw [not_or, not_not] at hnot
        exact hdone ⟨hnot.1, (hinner.resolve_left (not_not.mpr hnot.1)).resolve_left hnot.2⟩
      rcases cases_resume? h with ⟨hnil, rfl, -⟩ | ⟨token, s', stack, await', hnext, hstep, hrest⟩
      · exact absurd ⟨(List.append_eq_nil_iff.mp hnil).1, _, rfl⟩ hdone
      · obtain ⟨inner', rfl, hstep', hinner''⟩ := step?_of_append hinner' hstep
        obtain ⟨w, s'', hvalue, hafter⟩ := ih s'.length (hn ▸ Token.length_of_next? hnext)
          (hinner''.imp_right .inr) hrest rfl
        exact ⟨w, s'', (resume?_step hnext hstep').trans hvalue, hafter⟩

end Inside

/-! ## The members of an object -/

section Members

variable {stack stack' : List Frame} {await await' : Await} {token : Token} {s rest : Bytes}
  {v w : Json} {members ms : List (Bytes × Json)} {key key' : Bytes}

/-- Where a key may stand there is one, or the end of an object without members. -/
lemma of_step?_key (hkey : await.IsKey)
    (h : step? (.object members key :: stack) await token = some (stack', await')) :
    (token = .endObject ∧ members = [] ∧ stack' = stack ∧ await' = .next (.object [])) ∨
      ∃ key', token = .scalar (.string key') ∧ stack' = .object members key :: stack ∧
        await' = .colon key' := by
  unfold step? at h
  split at h
  all_goals rcases hkey with hkey | hkey <;> cases hkey
  · rename_i hstack
    cases hstack
    cases h
    exact .inl ⟨rfl, rfl, rfl, rfl⟩
  · cases h
    exact .inr ⟨_, rfl, rfl, rfl⟩
  · cases h
    exact .inr ⟨_, rfl, rfl, rfl⟩
  · cases h
  · cases h

/-- Behind a key there is a colon. -/
lemma of_step?_colon
    (h : step? (.object members key :: stack) (.colon key') token = some (stack', await')) :
    token = .colon ∧ stack' = .object members key' :: stack ∧ await' = .value := by
  cases token with
  | colon =>
    cases h
    exact ⟨rfl, rfl, rfl⟩
  | beginArray | endArray | beginObject | endObject | comma | scalar => cases h

/-- Behind a member there is a comma or the end of the object. -/
lemma of_step?_member
    (h : step? (.object members key :: stack) (.next w) token = some (stack', await')) :
    (token = .comma ∧ stack' = .object ((key, w) :: members) key :: stack ∧ await' = .key) ∨
      (token = .endObject ∧ stack' = stack ∧
        await' = .next (.object ((key, w) :: members).reverse)) := by
  cases token with
  | comma =>
    cases h
    exact .inl ⟨rfl, rfl, rfl⟩
  | endObject =>
    cases h
    exact .inr ⟨rfl, rfl, rfl⟩
  | beginArray | endArray | beginObject | colon | scalar => cases h

/-- **The members of an object are read one by one**: inside of an object the reader is at its end,
or it reads a key, a colon and the value of a member, and then comes to the end or, behind a comma,
to further members. -/
lemma of_resume?_object (hkey : await.IsKey)
    (h : resume? [.object members key] await s = some (v, rest)) :
    (∃ s₁, Token.next? s = some (.endObject, s₁) ∧ members = [] ∧ v = .object []) ∨
      ∃ key' s₁ s₂ w s₃, Token.next? s = some (.scalar (.string key'), s₁) ∧
        Token.next? s₁ = some (.colon, s₂) ∧ read? s₂ = some (w, s₃) ∧
        ((∃ s₄, Token.next? s₃ = some (.comma, s₄) ∧
            resume? [.object ((key', w) :: members) key'] .key s₄ = some (v, rest)) ∨
          ∃ s₄, Token.next? s₃ = some (.endObject, s₄) ∧
            v = .object ((key', w) :: members).reverse) := by
  obtain ⟨token, s₁, stack, await₁, hnext, hstep, h⟩ := of_resume? (List.cons_ne_nil _ _) h
  obtain ⟨rfl, rfl, rfl, rfl⟩ | ⟨key', rfl, rfl, rfl⟩ := of_step?_key hkey hstep
  · rw [resume?_done] at h
    obtain ⟨rfl, -⟩ := Prod.mk.inj (Option.some.inj h)
    exact .inl ⟨s₁, hnext, rfl, rfl⟩
  obtain ⟨token, s₂, stack, await₂, hcolon, hstep, h⟩ := of_resume? (List.cons_ne_nil _ _) h
  obtain ⟨rfl, rfl, rfl⟩ := of_step?_colon hstep
  have hvalue : resume? ([] ++ [.object members key']) .value s₂ = some (v, rest) := h
  obtain ⟨w, s₃, hvalue, h⟩ := resume?_of_append (.inr (.inl rfl)) hvalue
  refine .inr ⟨key', s₁, s₂, w, s₃, hnext, hcolon, hvalue, ?_⟩
  obtain ⟨token, s₄, stack, await₃, hafter, hstep, h⟩ := of_resume? (List.cons_ne_nil _ _) h
  obtain ⟨rfl, rfl, rfl⟩ | ⟨rfl, rfl, rfl⟩ := of_step?_member hstep
  · exact .inl ⟨s₄, hafter, h⟩
  · rw [resume?_done] at h
    obtain ⟨rfl, -⟩ := Prod.mk.inj (Option.some.inj h)
    exact .inr ⟨s₄, hafter, rfl⟩

/-- An array starts with its end or with a value. -/
lemma of_step?_first {items : List Json}
    (h : step? (.array items :: stack) .item token = some (stack', await')) :
    (token = .endArray ∧ stack' = stack ∧ await' = .next (.array [])) ∨
      begin? (.array items :: stack) token = some (stack', await') := by
  cases items with
  | cons w items => exact .inr h
  | nil =>
    cases token with
    | endArray =>
      cases h
      exact .inl ⟨rfl, rfl, rfl⟩
    | beginArray | beginObject | endObject | comma | colon | scalar => exact .inr h

/-- Behind an item there is a comma or the end of the array. -/
lemma of_step?_item {items : List Json}
    (h : step? (.array items :: stack) (.next w) token = some (stack', await')) :
    (token = .comma ∧ stack' = .array (w :: items) :: stack ∧ await' = .value) ∨
      (token = .endArray ∧ stack' = stack ∧ await' = .next (.array (w :: items).reverse)) := by
  cases token with
  | comma =>
    cases h
    exact .inl ⟨rfl, rfl, rfl⟩
  | endArray =>
    cases h
    exact .inr ⟨rfl, rfl, rfl⟩
  | beginArray | beginObject | endObject | colon | scalar => cases h

/-- What is read inside of an array is an array. -/
lemma array_of_resume? {items : List Json} (hopen : await.IsOpen)
    (h : resume? [.array items] await s = some (v, rest)) : ∃ vs, v = .array vs := by
  induction hn : s.length using Nat.strongRecOn generalizing s items await with
  | _ n ih =>
    have hvalue (h : resume? ([] ++ [.array items]) .value s = some (v, rest)) :
        ∃ vs, v = .array vs := by
      obtain ⟨w, s₁, hitem, h⟩ := resume?_of_append (.inr (.inl rfl)) h
      obtain ⟨token, s₂, stack, await, hnext, hstep, h⟩ := of_resume? (List.cons_ne_nil _ _) h
      obtain ⟨rfl, rfl, rfl⟩ | ⟨rfl, rfl, rfl⟩ := of_step?_item hstep
      · obtain ⟨t, heq, -⟩ := exists_source hitem
        have hlength := Token.length_of_next? hnext
        rw [heq, List.length_append] at hn
        exact ih s₂.length (by omega) (.inl rfl) h rfl
      · rw [resume?_done] at h
        obtain ⟨rfl, -⟩ := Prod.mk.inj (Option.some.inj h)
        exact ⟨_, rfl⟩
    rcases hopen with rfl | rfl
    · exact hvalue h
    · obtain ⟨token, s₁, stack, await, hnext, hstep, h⟩ := of_resume? (List.cons_ne_nil _ _) h
      obtain ⟨rfl, rfl, rfl⟩ | hbegin := of_step?_first hstep
      · rw [resume?_done] at h
        obtain ⟨rfl, -⟩ := Prod.mk.inj (Option.some.inj h)
        exact ⟨_, rfl⟩
      · exact hvalue ((resume?_step hnext (step?_of_begin? (.inl rfl) hbegin)).trans h)

/-- Blanks in front of a value do not matter. -/
lemma read?_dropWhile (s : Bytes) : read? (s.dropWhile isBlank) = read? s := by
  rw [read?, read?, resume?.eq_def, resume?.eq_def, next?_dropWhile]

/-- Whether a key and a source text are those of a member. -/
def IsSource (source : Bytes × Bytes) (m : Bytes × Json) : Prop :=
  source.1 = m.1 ∧ read? source.2 = some (m.2, [])

/-- The source text of a value that has been read. -/
lemma read?_take (h : read? s = some (v, rest)) :
    read? (s.take (s.length - rest.length)) = some (v, []) := by
  obtain ⟨t, rfl, hsource⟩ := exists_source h
  rw [List.length_append, Nat.add_sub_cancel, List.take_left]
  exact hsource

/-- The members that follow in an object, with their source texts.

**Proof sketch.** By induction on the fuel, which is as long as the text and so lasts for all of its
members. -/
lemma sourceMembersAux_of_resume? (hkey : await.IsKey)
    (h : resume? [.object members key] await s = some (v, rest)) {fuel : Nat}
    (hfuel : s.length ≤ fuel) (acc : List (Bytes × Bytes)) :
    ∃ sources ms, sourceMembersAux fuel acc s = acc.reverse ++ sources ∧
      v = .object (members.reverse ++ ms) ∧ List.Forall₂ IsSource sources ms := by
  induction fuel generalizing s members key await acc with
  | zero =>
    obtain rfl : s = [] := List.length_eq_zero_iff.mp (Nat.le_zero.mp hfuel)
    obtain ⟨s₁, hnext, -⟩ | ⟨key', s₁, s₂, w, s₃, hnext, -⟩ := of_resume?_object hkey h
    · cases hnext
    · cases hnext
  | succ fuel ih =>
    obtain ⟨s₁, hnext, rfl, rfl⟩ | ⟨key', s₁, s₂, w, s₃, hnext, hcolon, hvalue, hafter⟩ :=
      of_resume?_object hkey h
    · refine ⟨[], [], ?_, rfl, .nil⟩
      rw [sourceMembersAux, hnext, List.append_nil]
    have hstart : read? (s₂.dropWhile isBlank) = some (w, s₃) := (read?_dropWhile s₂).trans hvalue
    generalize hsource : (s₂.dropWhile isBlank).take
      ((s₂.dropWhile isBlank).length - s₃.length) = source
    have hmember : IsSource (key', source) (key', w) := ⟨rfl, hsource ▸ read?_take hstart⟩
    obtain ⟨s₄, hcomma, h⟩ | ⟨s₄, hend, rfl⟩ := hafter
    · have hlength : s₄.length ≤ fuel := by
        obtain ⟨t, hdrop, -⟩ := exists_source hvalue
        have h₁ := Token.length_of_next? hnext
        have h₂ := Token.length_of_next? hcolon
        have h₃ := Token.length_of_next? hcomma
        have h₄ := congrArg List.length hdrop
        rw [List.length_append] at h₄
        omega
      obtain ⟨sources, ms, hsources, rfl, hall⟩ := ih (.inr rfl) h hlength ((key', source) :: acc)
      refine ⟨(key', source) :: sources, (key', w) :: ms, ?_, ?_, .cons hmember hall⟩
      · rw [sourceMembersAux, hnext]
        simp only [hcolon, hstart, hcomma, hsource]
        rw [hsources, List.reverse_cons, List.append_assoc, List.singleton_append]
      · rw [List.reverse_cons, List.append_assoc, List.singleton_append]
    · refine ⟨[(key', source)], [(key', w)], ?_, ?_, .cons hmember .nil⟩
      · rw [sourceMembersAux, hnext]
        simp only [hcolon, hstart, hend, hsource, List.reverse_cons]
      · rw [List.reverse_cons]

/-- **The members of an object with their source texts.** They are the members that the reader of
values gives, and each source text is one that their value is read from. -/
theorem sourceMembers_of_read? (h : read? s = some (.object ms, rest)) :
    List.Forall₂ IsSource (sourceMembers s) ms := by
  obtain ⟨-, hawait, -⟩ | ⟨token, s', stack, await, hnext, hstep, h⟩ := cases_resume? h
  · cases hawait
  cases token with
  | beginObject =>
    cases hstep
    obtain ⟨sources, ms', hsources, hms, hall⟩ :=
      sourceMembersAux_of_resume? (.inl rfl) h le_rfl []
    cases hms
    rw [sourceMembers, hnext]
    simp only [hsources]
    exact hall
  | beginArray =>
    cases hstep
    obtain ⟨vs, hvs⟩ := array_of_resume? (.inr rfl) h
    cases hvs
  | endArray | endObject | comma | colon => cases hstep
  | scalar w =>
    cases hstep
    rw [resume?_done] at h
    obtain ⟨rfl, -⟩ := Prod.mk.inj (Option.some.inj h)
    have hdepth := depth_of_next? hnext
    rw [depth.eq_def] at hdepth
    cases hdepth

/-- A source text is one that the value of a member is read from. -/
lemma exists_member {source : Bytes × Bytes} (h : read? s = some (.object ms, rest))
    (hsource : source ∈ sourceMembers s) : ∃ m ∈ ms, IsSource source m := by
  have hall := sourceMembers_of_read? h
  obtain ⟨⟨i, hi⟩, rfl⟩ := List.mem_iff_get.mp hsource
  exact ⟨_, List.get_mem _ _, hall.get hi (hall.length_eq ▸ hi)⟩

end Members

end LintPool.Json
