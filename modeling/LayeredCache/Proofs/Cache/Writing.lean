import LayeredCache.Proofs.Cache.Throughout

/-!
# Which operations write

Of the plain operations one writes, and it writes what it is told to and nothing else. The others
write nothing of their own: at most they copy into the near tier what the far tier has under the
same key.

## Main definitions

* `Contact.WriteFree` — nothing is written but such copies.
* `Contact.WritesOnce` — one value is written, into both tiers that are there.

## Main results

* `Setup.lookup_writeFree`, `Setup.has_writeFree`, `Setup.delete_writeFree` — the operations that
  write nothing.
* `Setup.set_writesOnce` — the one that does.
-/

set_option autoImplicit false

namespace LayeredCache

/-- Nothing is written into the far tier, and nothing into the near tier but bytes that the far tier
gave under the same key. -/
structure Contact.WriteFree (log : List Contact) : Prop where
  near : ∀ {key : String} {content : Content} {ttl : Span} {kept : Bool},
    .put key content ttl kept ∈ log →
      ∃ data, content = .stored data ∧ .ask (.get key) (.reply data) ∈ log
  far : ∀ {condition : Condition} {key : String} {data : Bytes} {ttl : Span}
    {answer : Far.Answer (.write condition key data ttl)},
    .ask (.write condition key data ttl) answer ∉ log

/-- The contact of a write into the near tier, if there is one. -/
def Contact.laid (s : Setup) (key : String) (data : Bytes) (ttl : Span) : List Contact :=
  if s.near then [.put key (.stored data) ttl true] else []

/-- Some bytes are written under a key and nothing else is: first into the near tier, if there is
one, and then into the far tier, if there is one. -/
inductive Contact.WritesOnce (s : Setup) (condition : Condition) (key : String) (data : Bytes)
    (ttl : Span) : List Contact → Prop
  | nowhere (near : s.near = false) (far : s.far = false) : WritesOnce s condition key data ttl []
  /-- The clock cannot represent the deadline in the near tier. -/
  | tooLong (near : s.near = true) :
      WritesOnce s condition key data ttl [.put key (.stored data) ttl false]
  | near (near : s.near = true) (far : s.far = false) :
      WritesOnce s condition key data ttl (laid s key data ttl)
  | far (far : s.far = true) (answer : Far.Answer (.write condition key data ttl))
      (taken : condition = .always ∨ answer ≠ .reply false) :
      WritesOnce s condition key data ttl
        (laid s key data ttl ++ [.ask (.write condition key data ttl) answer])
  /-- The far tier refuses, and the near tier forgets the key. -/
  | refused (far : s.far = true) (conditional : condition ≠ .always) :
      WritesOnce s condition key data ttl
        (laid s key data ttl ++
          .ask (.write condition key data ttl) (.reply false) :: s.dropping key)

namespace Contact

/-- Being free of writes holds of nothing, and of two lists in a row. -/
lemma writeFree_additive : Additive WriteFree where
  nil := ⟨fun h => absurd h List.not_mem_nil, List.not_mem_nil⟩
  append := by
    intro log log' h h'
    refine ⟨fun hput => ?_, fun hask => ?_⟩
    · rcases List.mem_append.mp hput with hput | hput
      · obtain ⟨data, hcontent, hgave⟩ := h.near hput
        exact ⟨data, hcontent, List.mem_append_left _ hgave⟩
      · obtain ⟨data, hcontent, hgave⟩ := h'.near hput
        exact ⟨data, hcontent, List.mem_append_right _ hgave⟩
    · rcases List.mem_append.mp hask with hask | hask
      · exact h.far hask
      · exact h'.far hask

/-- Contacts without a write are free of writes. -/
lemma writeFree_of_forall {log : List Contact}
    (hput : ∀ key content ttl kept, .put key content ttl kept ∉ log)
    (hask : ∀ condition key data ttl answer, .ask (.write condition key data ttl) answer ∉ log) :
    WriteFree log :=
  ⟨fun h => absurd h (hput _ _ _ _), hask _ _ _ _ _⟩

end Contact

namespace Setup

open Contact (WriteFree WritesOnce writeFree_additive writeFree_of_forall)
open Prog (Trace Throughout)

variable {s : Setup} {key : String} {o : CallOptions}

/-! ## Operations that write nothing -/

/-- A copy into the near tier of what the far tier gave. -/
lemma writeFree_copied (key : String) (data : Bytes) (ttl : Span) (kept : Bool) :
    WriteFree (fetching key data ++ [.put key (.stored data) ttl kept]) := by
  refine ⟨fun {k content _ _} hput => ?_, fun hask => ?_⟩
  · obtain ⟨rfl, rfl⟩ : k = key ∧ content = .stored data := by
      simp [fetching] at hput
      exact ⟨hput.1, hput.2.1⟩
    exact ⟨data, rfl, by simp [fetching]⟩
  · simp [fetching] at hask

/-- A look-up in the far tier only copies what it finds. -/
lemma fetch_writeFree (s : Setup) (key : String) (o : CallOptions) :
    Throughout s WriteFree (s.fetch key o) := by
  intro log r htrace
  cases fetch_trace htrace with
  | unused => exact writeFree_additive.nil
  | failed _ f => exact writeFree_of_forall (by simp [missing]) (by simp [missing])
  | crashed => exact writeFree_of_forall (by simp) (by simp)
  | copied _ data =>
    unfold laying
    split
    · exact writeFree_copied key data o.lifetime true
    · exact writeFree_of_forall (by simp [fetching]) (by simp [fetching])
  | copyCrashed _ _ data => exact writeFree_copied key data o.lifetime false

/-- **A look-up** writes nothing. -/
theorem lookup_writeFree (s : Setup) (ty : Ty) (key : String) (o : CallOptions) :
    Throughout s WriteFree (s.lookup ty key o) := by
  have hseeking : WriteFree (s.seeking key o) := by
    unfold seeking
    split
    · exact writeFree_of_forall (by simp) (by simp)
    · exact writeFree_additive.nil
  unfold lookup
  split
  · exact .done writeFree_additive _
  · split
    · exact .done writeFree_additive _
    · have hfind : Throughout s WriteFree (s.findNear key o) := by
        intro log r htrace
        cases find_trace htrace with
        | found => exact writeFree_of_forall (by simp) (by simp)
        | missed => exact hseeking
      refine hfind.bind writeFree_additive fun found => ?_
      cases found with
      | some content => exact .done writeFree_additive _
      | none =>
        refine (fetch_writeFree s key o).bind writeFree_additive fun outcome => ?_
        cases outcome <;> exact .done writeFree_additive _

/-- **Asking whether a key is there** writes nothing. -/
theorem has_writeFree (s : Setup) (key : String) (o : CallOptions) :
    Throughout s WriteFree (s.has key o) :=
  has_throughout writeFree_additive
    (fun _ served => writeFree_of_forall (by simp) (by simp)) (fetch_writeFree s key o)

/-- **A deletion** writes nothing. -/
theorem delete_writeFree (s : Setup) (key : String) : Throughout s WriteFree (s.delete key) := by
  unfold delete
  split
  · intro log r htrace
    have hsweeping : WriteFree (s.sweeping key .none) := by
      unfold sweeping
      split
      · exact writeFree_of_forall (by simp) (by simp)
      · exact writeFree_additive.nil
    cases delete_trace htrace with
    | near => exact hsweeping
    | far _ answer =>
      exact writeFree_additive.append hsweeping (writeFree_of_forall (by simp) (by simp))
  · exact .done writeFree_additive _

/-! ## The operation that writes -/

/-- **Setting a value** that has a stored form writes this form once, with the lifetime and under
the condition of the options, when the call skips no tier and keeps no native value.

**Proof sketch.** By what a write can go through. -/
theorem set_writesOnce {ty : Ty} {v : Value} {data : Bytes}
    (hencode : s.envelope.encode ty v = .ok data) (hskip : o.skip = .none) (hraw : o.raw = false) :
    Throughout s (WritesOnce s o.condition key data o.lifetime) (s.set ty key v o) := by
  intro log r htrace
  rw [set_eq_store hencode] at htrace
  have hnear : s.usesNear o = s.near := usesNear_eq hskip
  have hfar : s.usesFar o = s.far := usesFar_eq hskip
  have hcontent : contentOf ty v data o = .stored data := by rw [contentOf, hraw]; rfl
  have hlaying : s.laying key (contentOf ty v data o) o = Contact.laid s key data o.lifetime := by
    rw [laying, hnear, hcontent, Contact.laid]
  cases store_trace htrace with
  | skipped skips =>
    rw [hskip] at skips
    cases skips
  | noTiers _ none =>
    obtain ⟨hnone, hfarNone⟩ := Bool.or_eq_false_iff.mp none
    exact .nowhere hnone hfarNone
  | putCrashed uses =>
    rw [hcontent]
    exact .tooLong (hnear.symm.trans uses)
  | near unused =>
    rw [hlaying]
    rw [hfar] at unused
    cases hthere : s.near with
    | true => exact .near hthere unused
    | false =>
      rw [Contact.laid, hthere]
      exact .nowhere hthere unused
  | applied uses applied =>
    rw [hlaying]
    rw [hfar] at uses
    by_cases htaken : o.condition = .always ∨ applied = true
    · have hsettling : s.settling key o applied = [] := by
        rw [settling, if_pos]
        rw [Bool.or_eq_true, beq_iff_eq]
        exact htaken.symm
      rw [hsettling]
      refine .far uses (.reply applied) (htaken.imp_right fun happlied => ?_)
      rw [happlied]
      simp
    · obtain ⟨hconditional, happlied⟩ := not_or.mp htaken
      rw [Bool.not_eq_true] at happlied
      subst happlied
      have hsettling : s.settling key o false = s.dropping key := by
        rw [settling, if_neg]
        rw [Bool.false_or, beq_iff_eq]
        exact hconditional
      rw [hsettling]
      exact .refused uses hconditional
  | failed uses f =>
    rw [hlaying]
    exact .far (hfar.symm.trans uses) (.failure f) (.inr (by simp))
  | crashed uses =>
    rw [hlaying]
    exact .far (hfar.symm.trans uses) .crash (.inr (by simp))

end Setup

end LayeredCache
