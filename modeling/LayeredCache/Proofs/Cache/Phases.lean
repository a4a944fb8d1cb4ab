import LayeredCache.Proofs.Cache.Avoid
import LayeredCache.Proofs.Cache.Readable

/-!
# The phases of a key that is only loaded

Under a key that is only ever read or computed by shared loads, an entry goes through three phases.
At first it is as it was found. Once a look-up has missed, or an unreadable entry was dropped, both
tiers are empty under the key. Once a value was stored, the far tier keeps it for good, and both
tiers can be read.

## Main definitions

* `Phase`, `Cache.In` — the phases of a key, and when a key is in a phase after certain deeds.
* `Setup.afterLoad` — what a shared run does with what the loader gave.
* `Setup.Flown` — what the body of a shared run comes to.

## Main results

* `Setup.lookup_phase`, `Setup.afterLoad_phase`, `Setup.flight_phase` — each part of a shared load
  leads from one phase to the same or a later one.
-/

set_option autoImplicit false

namespace LayeredCache

open Far Flight

instance (key : String) : DecidablePred (Deed.Deletes key)
  | .put _ _ => inferInstanceAs (Decidable False)
  | .drop _ => inferInstanceAs (Decidable False)
  | .ask (.write _ _ _ _) _ => inferInstanceAs (Decidable False)
  | .ask (.get _) _ => inferInstanceAs (Decidable False)
  | .ask (.delete keys) _ => inferInstanceAs (Decidable (key ∈ keys))
  | .ask .ping _ => inferInstanceAs (Decidable False)

/-- How often a key was deleted from the far tier. -/
def Deed.deletions (key : String) (ds : List Deed) : Nat := ds.countP fun d => d.Deletes key

/-- Nothing is removed under a key after something was written there. -/
def Deed.Lasting (key : String) (ds : List Deed) : Prop :=
  ds.Pairwise fun d d' => d.Writes key → ¬ d'.Removes key

/-- A deed that leaves a key alone deletes nothing there. -/
lemma Deed.Leaves.not_deletes {key : String} {d : Deed} (h : d.Leaves key) : ¬ d.Deletes key := by
  intro hd
  refine h.2 ?_
  cases d with
  | put k content => exact hd
  | drop k => cases hd
  | ask request answer => exact hd

/-- A look-up leaves every key alone. -/
lemma Deed.IsLook.leaves {far : Bool} {d : Deed} (h : d.IsLook far) (key : String) :
    d.Leaves key := by
  cases d with
  | put k content => exact ⟨id, id⟩
  | drop k => cases h
  | ask request answer =>
    cases request with
    | get k => exact ⟨id, id⟩
    | write => cases h
    | delete => cases h
    | ping => cases h

/-- Deeds that do not delete a key add no deletion. -/
lemma Deed.deletions_append {key : String} {past ds : List Deed}
    (h : ∀ d ∈ ds, ¬ d.Deletes key) : deletions key (past ++ ds) = deletions key past := by
  have hzero : ds.countP (fun d => d.Deletes key) = 0 := by
    rw [List.countP_eq_zero]
    intro d hd
    simpa using h d hd
  rw [deletions, List.countP_append, hzero]
  rfl

/-- Deeds that leave a key alone add no deletion. -/
lemma Deed.deletions_append_leaves {key : String} (past : List Deed) {ds : List Deed}
    (h : ∀ d ∈ ds, d.Leaves key) : deletions key (past ++ ds) = deletions key past :=
  deletions_append fun d hd => (h d hd).not_deletes

/-- The phases of a key. -/
inductive Phase where
  /-- Nothing was written or removed under the key. -/
  | untouched
  /-- Both tiers are empty under the key. -/
  | absent
  /-- A value was stored under the key. -/
  | stored

namespace Cache

/-- Both tiers are empty under a key that was deleted once at most and never written. -/
structure Absent (key : String) (c : Cache MemoryStore) (past : List Deed) : Prop where
  near : c.nearAt key = none
  far : c.farAt key = none
  unwritten : ∀ d ∈ past, ¬ d.Writes key
  deletions : Deed.deletions key past ≤ 1

/-- The far tier holds bytes for good under a key, and both tiers can be read. -/
structure Stored (key : String) (ty : Ty) (c : Cache MemoryStore) (past : List Deed) : Prop where
  near : ∀ e, c.nearAt key = some e → e.content.Readable ty
  far : ∃ h, c.farAt key = some h ∧ h.deadline = none ∧ (Content.stored h.data).Readable ty
  lasting : Deed.Lasting key past
  deletions : Deed.deletions key past ≤ 1

/-- A key is in a phase after certain deeds. -/
def In (key : String) (ty : Ty) (c : Cache MemoryStore) (past : List Deed) : Phase → Prop
  | .untouched => ∀ d ∈ past, d.Leaves key
  | .absent => Absent key c past
  | .stored => Stored key ty c past

/-- What a caller that uses the tiers leaves alone, apart from starting its loader. -/
structure Framed (c c' : Cache MemoryStore) : Prop where
  sound : c'.Sound
  setup : c'.setup = c.setup
  ttl : c'.near.map NearTier.defaultTtl = c.near.map NearTier.defaultTtl
  flights : c'.flights = c.flights

/-- What requests leave alone. -/
lemma Kept.framed {c c' : Cache MemoryStore} (h : Kept c c') : Framed c c' :=
  ⟨h.sound, h.setup, h.ttl, h.flights⟩

/-- What is left alone twice is left alone. -/
lemma Framed.trans {c c' c'' : Cache MemoryStore} (h : Framed c c') (h' : Framed c' c'') :
    Framed c c'' :=
  ⟨h'.sound, h'.setup.trans h.setup, h'.ttl.trans h.ttl, h'.flights.trans h.flights⟩

variable {key : String} {ty : Ty} {c c' : Cache MemoryStore} {past ds : List Deed} {ph : Phase}

/-- An unwritten key lasts. -/
lemma lasting_of_unwritten (h : ∀ d ∈ past, ¬ d.Writes key) : Deed.Lasting key past :=
  List.Pairwise.imp_of_mem (fun hd _ _ hw => absurd hw (h _ hd))
    (List.pairwise_of_forall (R := fun _ _ => True) fun _ _ => trivial)

/-- In every phase, nothing is removed after it was written. -/
lemma In.lasting (h : In key ty c past ph) : Deed.Lasting key past := by
  cases ph with
  | untouched => exact lasting_of_unwritten fun d hd => (h d hd).1
  | absent => exact lasting_of_unwritten (Absent.unwritten h)
  | stored => exact Stored.lasting h

/-- A key that was left alone was not deleted. -/
lemma deletions_of_leaves (h : ∀ d ∈ past, d.Leaves key) : Deed.deletions key past ≤ 1 := by
  have hnone := Deed.deletions_append_leaves [] h
  rw [List.nil_append] at hnone
  rw [hnone]
  exact Nat.zero_le 1

/-- In every phase, the key was deleted once at most. -/
lemma In.deletions (h : In key ty c past ph) : Deed.deletions key past ≤ 1 := by
  cases ph with
  | untouched => exact deletions_of_leaves h
  | absent => exact Absent.deletions h
  | stored => exact Stored.deletions h

/-- A key is absent whatever else changes than the tiers. -/
lemma Absent.of_same (h : Absent key c past) (hnear : c'.near = c.near) (hfar : c'.far = c.far) :
    Absent key c' past where
  near := (nearAt_congr hnear key).trans h.near
  far := (farAt_congr hfar key).trans h.far
  unwritten := h.unwritten
  deletions := h.deletions

/-- A key stays stored whatever else changes than the tiers. -/
lemma Stored.of_same (h : Stored key ty c past) (hnear : c'.near = c.near)
    (hfar : c'.far = c.far) : Stored key ty c' past where
  near e he := h.near e ((nearAt_congr hnear key).symm.trans he)
  far := by
    obtain ⟨held, hheld, hrest⟩ := h.far
    exact ⟨held, (farAt_congr hfar key).trans hheld, hrest⟩
  lasting := h.lasting
  deletions := h.deletions

/-- A key stays in its phase whatever else changes than the tiers. -/
lemma In.of_same (h : In key ty c past ph) (hnear : c'.near = c.near) (hfar : c'.far = c.far) :
    In key ty c' past ph := by
  cases ph with
  | untouched => exact h
  | absent => exact Absent.of_same h hnear hfar
  | stored => exact Stored.of_same h hnear hfar

/-- A key stays absent as long as nothing is added. -/
lemma Absent.mono (h : Absent key c past) (hnear : ∀ e, c'.nearAt key = some e →
      c.nearAt key = some e ∨ ∃ held, c.farAt key = some held)
    (hfar : ∀ held, c'.farAt key = some held → c.farAt key = some held)
    (hds : ∀ d ∈ ds, d.Leaves key) : Absent key c' (past ++ ds) where
  near := by
    cases he : c'.nearAt key with
    | none => rfl
    | some e =>
      rcases hnear e he with hc | ⟨held, hc⟩
      · cases h.near.symm.trans hc
      · cases h.far.symm.trans hc
  far := by
    cases hh : c'.farAt key with
    | none => rfl
    | some held => cases h.far.symm.trans (hfar held hh)
  unwritten d hd := by
    rcases List.mem_append.mp hd with hd | hd
    · exact h.unwritten d hd
    · exact (hds d hd).1
  deletions := by
    rw [Deed.deletions_append_leaves _ hds]
    exact h.deletions

/-- A key stays stored as long as the near tier gets nothing but copies of the far tier. -/
lemma Stored.mono (h : Stored key ty c past) (hnear : ∀ e, c'.nearAt key = some e →
      c.nearAt key = some e ∨ ∃ held, c.farAt key = some held ∧ e.content = .stored held.data)
    (hlasting : ∀ held, c.farAt key = some held → held.deadline = none →
      c'.farAt key = some held)
    (hds : ∀ d ∈ ds, d.Leaves key) : Stored key ty c' (past ++ ds) := by
  obtain ⟨held, hheld, hdeadline, hread⟩ := h.far
  refine ⟨fun e he => ?_, ⟨held, hlasting held hheld hdeadline, hdeadline, hread⟩, ?_, ?_⟩
  · rcases hnear e he with hc | ⟨held', hheld', hcontent⟩
    · exact h.near e hc
    · obtain rfl := Option.some.inj (hheld.symm.trans hheld')
      rw [hcontent]
      exact hread
  · refine List.pairwise_append.mpr ⟨h.lasting, ?_, fun d _ d' hd' _ => (hds d' hd').2⟩
    exact lasting_of_unwritten fun d hd => (hds d hd).1
  · rw [Deed.deletions_append_leaves _ hds]
    exact h.deletions

/-- Deeds that leave the key alone keep it untouched. -/
lemma leaves_append (h : ∀ d ∈ past, d.Leaves key) (hds : ∀ d ∈ ds, d.Leaves key) :
    ∀ d ∈ past ++ ds, d.Leaves key :=
  fun d hd => (List.mem_append.mp hd).elim (h d) (hds d)

/-- Look-ups keep the phase. -/
lemma In.follows (h : In key ty c past ph) (hfollows : c.Follows c')
    (hds : ∀ d ∈ ds, d.Leaves key) : In key ty c' (past ++ ds) ph := by
  cases ph with
  | untouched => exact leaves_append h hds
  | absent =>
    refine Absent.mono h (fun e he => ?_) (hfollows.far key) hds
    exact (hfollows.near key e he).imp id fun ⟨held, hh, _⟩ => ⟨held, hh⟩
  | stored => exact Stored.mono h (hfollows.near key) (hfollows.lasting key) hds

/-- What spares the key keeps its phase. -/
lemma In.spared {i : Caller} (h : In key ty c past ph) (hspared : c.Spared key i c')
    (hds : ∀ d ∈ ds, d.Leaves key) : In key ty c' (past ++ ds) ph := by
  cases ph with
  | untouched => exact leaves_append h hds
  | absent => exact Absent.mono h (fun e he => .inl (hspared.near e he)) hspared.far hds
  | stored => exact Stored.mono h (fun e he => .inl (hspared.near e he)) hspared.lasting hds

end Cache

/-! ## The parts of a shared load -/

/-- An item of a load of `key` at type `ty` that skips no tier and whose write is unconditional and
without end in the far tier; its plain value, if it has one, can be stored. -/
structure Item.Plain {ρ : Type} (item : Item ρ) (e : Envelope) (ty : Ty) (key : String) :
    Prop where
  key : item.key = key
  skip : item.options.skip = .none
  condition : item.options.condition = .always
  ttl : item.options.ttl = 0
  value : ∀ v, item.value = some v → ∃ data, e.Keeps ty v data

namespace Setup

open Cache

variable {ρ : Type} {s : Setup} {o : CallOptions} {visit : Visit} {c c' : Cache MemoryStore}
  {key : String} {ty : Ty} {past : List Deed} {item : Item ρ} {ph ph' : Phase}

/-- What a look-up in a phase comes to. -/
inductive Looked (key : String) (ty : Ty) (ph : Phase) (c' : Cache MemoryStore)
    (past : List Deed) : Progress (Except Failure (Option Value)) → Prop where
  | read (v : Option Value) (h : In key ty c' past ph) :
      Looked key ty ph c' past (.finished (.ok v))
  | missing (hph : ph ≠ .stored) (h : Absent key c' past) :
      Looked key ty ph c' past (.finished (.error .missing))
  /-- An entry that was found under the key cannot be read. -/
  | spoilt (f : Failure) (hf : f.isCorruption = true ∧ f.isMissing = false)
      (hph : ph = .untouched) (h : ∀ d ∈ past, d.Leaves key) :
      Looked key ty ph c' past (.finished (.error f))
  | crashed (h : In key ty c' past ph) : Looked key ty ph c' past .crashed

/-- Reading a content that is not there in the second phase and can be read in the third. -/
lemma Looked.of_read {content : Content} {ds : List Deed} (hphase : In key ty c past ph)
    (hfollows : c.Follows c') (hds : ∀ d ∈ ds, d.Leaves key) (habsent : ¬ Absent key c past)
    (hstored : Stored key ty c past → content.Readable ty) :
    Looked key ty ph c' (past ++ ds) (.finished (content.read ty)) := by
  cases hread : content.read ty with
  | ok v => exact .read v (hphase.follows hfollows hds)
  | error f =>
    cases ph with
    | untouched =>
      exact .spoilt f (Content.failure_of_read hread) rfl (leaves_append hphase hds)
    | absent => exact absurd hphase habsent
    | stored =>
      obtain ⟨v, hv⟩ := hstored hphase
      cases hread.symm.trans hv

/-- **A look-up** in any phase reads a value, or misses and finds the key absent, or finds an entry
from before that cannot be read. -/
theorem lookup_phase (visit : Visit) (key : String) (hc : c.Sound) (hs : c.setup = s)
    (htier : s.hasTier = true) (hskip : o.skip = .none) (hphase : In key ty c past ph) :
    ∃ ds r c', (s.lookup ty key o).Does visit c ds r c' ∧ c.Kept c' ∧
      Looked key ty ph c' (past ++ ds) r ∧
      (r = .crashed → ¬ c.Affords visit.now o.lifetime) := by
  obtain ⟨ds, r, c', hdoes, hfollows, hlooks, hfound, hafford⟩ :=
    lookup_does visit key ty hc hs htier hskip
  have hds : ∀ d ∈ ds, d.Leaves key := fun d hd => (hlooks d hd).leaves key
  refine ⟨ds, r, c', hdoes, hfollows.toKept, ?_, hafford⟩
  cases hfound with
  | missing hnear hfar =>
    cases ph with
    | untouched =>
      have hall := leaves_append hphase hds
      exact .missing (by simp) ⟨hnear, hfar, fun d hd => (hall d hd).1,
        deletions_of_leaves hall⟩
    | absent =>
      refine .missing (by simp) (Absent.mono hphase (fun e he => ?_) (hfollows.far key) hds)
      cases hnear.symm.trans he
    | stored =>
      obtain ⟨held, hheld, hdeadline, -⟩ := Stored.far hphase
      cases hfar.symm.trans (hfollows.lasting key held hheld hdeadline)
  | near e he =>
    refine .of_read hphase hfollows hds (fun h => ?_) fun h => h.near e he
    cases h.near.symm.trans he
  | far held hheld =>
    refine .of_read hphase hfollows hds (fun h => ?_) fun h => ?_
    · cases h.far.symm.trans hheld
    · obtain ⟨held', hheld', -, hread⟩ := h.far
      obtain rfl := Option.some.inj (hheld.symm.trans hheld')
      exact hread
  | crashed held hheld => exact .crashed (hphase.follows hfollows hds)

/-- Removing a key from both tiers deletes it once from the far tier. -/
lemma deletions_clearing (s : Setup) (key : String) :
    Deed.deletions key (s.clearing key) ≤ 1 := by
  have hnear : (if s.near then [Deed.drop key] else []).countP (fun d => d.Deletes key) = 0 := by
    rw [List.countP_eq_zero]
    intro d hd
    split at hd
    · obtain rfl := List.mem_singleton.mp hd
      exact fun hdeletes => of_decide_eq_true hdeletes
    · cases hd
  rw [Deed.deletions, clearing, List.countP_append, hnear, Nat.zero_add]
  refine Nat.le_trans List.countP_le_length ?_
  split
  · exact Nat.le_refl 1
  · exact Nat.zero_le 1

/-- **Healing** an untouched key makes it absent, at the price of its only deletion. -/
lemma heal_phase (visit : Visit) (key : String) (hc : c.Sound) (hs : c.setup = s)
    (hskip : o.skip = .none) (h : ∀ d ∈ past, d.Leaves key) :
    ∃ c', (s.heal key o).Does visit c (s.clearing key) (.finished (.ok ())) c' ∧ c.Kept c' ∧
      Absent key c' (past ++ s.clearing key) := by
  obtain ⟨c', hdoes, hcleared⟩ := heal_does visit key hc hs hskip
  refine ⟨c', hdoes, hcleared.toKept, ?_, ?_, fun d hd => ?_, ?_⟩
  · cases he : c'.nearAt key with
    | none => rfl
    | some e => exact absurd rfl (hcleared.near key e he).1
  · cases hh : c'.farAt key with
    | none => rfl
    | some held => exact absurd rfl (hcleared.far key held hh).1
  · rcases List.mem_append.mp hd with hd | hd
    · exact (h d hd).1
    · intro hw
      unfold clearing at hd
      rcases List.mem_append.mp hd with hd | hd <;> split at hd <;> simp_all [Deed.Writes]
  · have hzero : past.countP (fun d => d.Deletes key) = 0 :=
      Deed.deletions_append_leaves [] h
    rw [Deed.deletions, List.countP_append, hzero, Nat.zero_add]
    exact s.deletions_clearing key

/-- What a shared run does with what was produced for it. -/
def storeProduced (s : Setup) (ty : Ty) (item : Item ρ) : Except Failure Value → Prog Outcome
  | .error f => .done (.error f)
  | .ok v =>
    match s.envelope.encode ty v with
    | .error f => .done (.error (.envelope f))
    | .ok data => (s.store ty item.key v data item.options).bind fun
      | .error f => .done (.error f)
      | .ok _ => .done (.ok data)

/-- A shared run stores what it produces. -/
lemma computeStored_eq : s.computeStored ty item =
    (produce item "once").bind (s.storeProduced ty item) := by
  unfold computeStored
  show Prog.bind _ _ = _
  congr 1

/-- What a shared run does with what the loader gave. -/
def afterLoad (s : Setup) (ty : Ty) (item : Item ρ) : Except LoadFailure Value → Prog Outcome
  | .ok v => s.storeProduced ty item (.ok v)
  | .error reason => s.storeProduced ty item (.error (.loader reason))

/-- A shared run that has a loader. -/
lemma computeStored_of_loader {r : ρ} (h : item.loader = some r) :
    s.computeStored ty item =
      .count (.load "once") (.startLoad (.awaitLoad (s.afterLoad ty item))) := by
  rw [computeStored_eq]
  simp only [produce, h, Prog.bind]
  refine congrArg (fun next => Prog.count _ (Prog.startLoad (Prog.awaitLoad next))) ?_
  funext answer
  cases answer with
  | ok v => rfl
  | error reason => rfl

/-- A shared run that has a plain value only. -/
lemma computeStored_of_value {v : Value} (h : item.loader = none) (hv : item.value = some v) :
    s.computeStored ty item = .count (.load "once") (s.storeProduced ty item (.ok v)) := by
  rw [computeStored_eq]
  simp only [produce, h, hv, Prog.bind]

/-- A shared run that has nothing to compute the value from. -/
lemma computeStored_of_nothing (h : item.loader = none) (hv : item.value = none) :
    s.computeStored ty item =
      .count (.load "once") (s.storeProduced ty item (.error .missing)) := by
  rw [computeStored_eq]
  simp only [produce, h, hv, Prog.bind]

/-- **Storing** what was produced under an absent key: the value is stored for good, or nothing
happens because the near tier crashes. -/
lemma storeProduced_phase (visit : Visit) (hty : ty ≠ .scalar .literal) (hc : c.Sound)
    (hs : c.setup = s) (hfar : s.far = true) (hitem : item.Plain s.envelope ty key) {v : Value}
    {data : Bytes} (hv : s.envelope.Keeps ty v data) (h : Absent key c past) :
    (∃ ds c', (s.storeProduced ty item (.ok v)).Does visit c ds (.finished (.ok data)) c' ∧
        c.Kept c' ∧ Stored key ty c' (past ++ ds)) ∨
      ((s.storeProduced ty item (.ok v)).Does visit c [] .crashed c ∧
        ¬ c.Affords visit.now item.options.lifetime) := by
  have htier : s.hasTier = true := by rw [hasTier, hfar, Bool.or_true]
  have hlife : item.options.lifetime = 0 := by
    rw [CallOptions.lifetime, if_pos (.inl hitem.ttl), hitem.ttl]
  have hrep : MemoryStore.Representable visit.now item.options.lifetime :=
    fun hne => absurd hlife hne
  obtain rfl := hitem.key
  simp only [storeProduced, hv.encode]
  rcases store_does visit item.key ty v data hc hs htier hitem.skip hrep with
    ⟨c', hdoes, hwrote⟩ | ⟨-, -, hcondition, -⟩ | ⟨hdoes, hafford⟩
  · refine .inl ⟨_, c', hdoes.bind .done, hwrote.toKept, ?_, ?_, ?_, ?_⟩
    · intro e he
      rw [hwrote.nearHere e he]
      exact hv.readable hty item.options
    · refine ⟨_, hwrote.farHere (by rw [hs]; exact hfar), ?_, ⟨_, hv.read⟩⟩
      rw [heldOf, hlife, if_pos rfl]
    all_goals rw [List.append_nil]
    · refine List.pairwise_append.mpr ⟨lasting_of_unwritten h.unwritten, ?_, ?_⟩
      · unfold writing
        cases s.near <;> simp [hfar, Deed.Writes, Deed.Removes, Deed.Deletes]
      · exact fun d hd d' _ hw => absurd hw (h.unwritten d hd)
    · rw [Deed.deletions_append]
      · exact h.deletions
      · unfold writing
        cases s.near <;> simp [hfar, Deed.Deletes]
  · exact absurd hitem.condition hcondition
  · exact .inr ⟨hdoes.bind_crashed, hafford⟩

/-! ## Shared runs -/

/-- What a shared run does with what its look-up gave. -/
def afterLookup (s : Setup) (ty : Ty) (item : Item ρ) :
    Except Failure (Option Value) → Prog Outcome
  | .ok none => .done (.ok [])
  | .ok (some v) =>
    match s.envelope.encode ty v with
    | .error f => .done (.error (.envelope f))
    | .ok data => .done (.ok data)
  | .error f =>
    if f.isMissing then s.computeStored ty item
    else if f.isCorruption then
      (s.heal item.key item.options).bind fun
        | .error f => .done (.error f)
        | .ok _ => s.computeStored ty item
    else .done (.error f)

/-- A shared run starts with a look-up. -/
lemma flight_eq : s.flight ty item =
    (s.lookup ty item.key item.options).bind (s.afterLookup ty item) := rfl

/-- What the body of a shared run in the phase `ph` comes to, if it leads from the cache `c` to
`c'`. -/
inductive Flown (s : Setup) (ty : Ty) (item : Item ρ) (key : String) (visit : Visit) (ph : Phase)
    (c c' : Cache MemoryStore) (past : List Deed) : Progress Outcome → Prop where
  /-- It ended without the loader. -/
  | unloaded (outcome : Outcome) (ph' : Phase) (hph : ph = .stored → ph' = .stored)
      (h : In key ty c' past ph') (hstarted : c'.started = c.started) :
      Flown s ty item key visit ph c c' past (.finished outcome)
  /-- The loader has given a value, which was stored. -/
  | loaded (v : Value) (data : Bytes) (hph : ph ≠ .stored)
      (hloaded : visit.loaded = some (.ok v)) (hv : s.envelope.Keeps ty v data)
      (h : Stored key ty c' past) (hstarted : c'.started = c.started ++ [visit.caller]) :
      Flown s ty item key visit ph c c' past (.finished (.ok data))
  /-- The loader was started. -/
  | loading (hph : ph ≠ .stored) (hloaded : visit.loaded = none) (h : Absent key c' past)
      (hstarted : c'.started = c.started ++ [visit.caller]) :
      Flown s ty item key visit ph c c' past (.blocked (.awaitLoad (s.afterLoad ty item)))
  | crashed (ph' : Phase) (hph : ph = .stored → ph' = .stored ∧ c'.started = c.started)
      (h : In key ty c' past ph')
      (hstarted : c'.started = c.started ∨ c'.started = c.started ++ [visit.caller])
      (hafford : ¬ c.Affords visit.now item.options.lifetime) :
      Flown s ty item key visit ph c c' past .crashed

/-- What a shared run comes to that computes the value, seen from a cache before the look-ups that
led to it. -/
lemma Flown.of_kept {c₁ : Cache MemoryStore} {r : Progress Outcome} (hkept : c.Kept c₁)
    (hph : ph ≠ .stored) (h : Flown s ty item key visit .absent c₁ c' past r) :
    Flown s ty item key visit ph c c' past r := by
  cases h with
  | unloaded outcome ph' _ h hstarted =>
    exact .unloaded outcome ph' (fun heq => absurd heq hph) h (hstarted.trans hkept.started)
  | loaded v data _ hloaded hv h hstarted =>
    exact .loaded v data hph hloaded hv h (by rw [hstarted, hkept.started])
  | loading _ hloaded h hstarted =>
    exact .loading hph hloaded h (by rw [hstarted, hkept.started])
  | crashed ph' _ h hstarted hafford =>
    rw [hkept.started] at hstarted
    exact .crashed ph' (fun heq => absurd heq hph) h hstarted fun hc =>
      hafford (hkept.affords.mpr hc)

/-- **Computing** the value of an absent key. -/
lemma computeStored_phase (visit : Visit) (hty : ty ≠ .scalar .literal) (hc : c.Sound)
    (hs : c.setup = s) (hfar : s.far = true) (hitem : item.Plain s.envelope ty key)
    (hloaded : ∀ answer, visit.loaded = some answer →
      ∃ v data, answer = .ok v ∧ s.envelope.Keeps ty v data)
    (h : Absent key c past) :
    ∃ ds r c', (s.computeStored ty item).Does visit c ds r c' ∧ c.Framed c' ∧
      Flown s ty item key visit .absent c c' (past ++ ds) r := by
  have hph : Phase.absent ≠ .stored := by simp
  cases hloader : item.loader with
  | none =>
    cases hvalue : item.value with
    | none =>
      rw [computeStored_of_nothing hloader hvalue]
      refine ⟨[], _, _, .count .done, ⟨hc, rfl, rfl, rfl⟩,
        .unloaded _ .absent (fun heq => absurd heq hph) ?_ rfl⟩
      rw [List.append_nil]
      exact h.of_same rfl rfl
    | some v =>
      obtain ⟨data, hv⟩ := hitem.value v hvalue
      rw [computeStored_of_value hloader hvalue]
      -- the cache once the load was counted
      let c₁ : Cache MemoryStore := c.recordEvent (.load "once")
      have hframed : c.Framed c₁ := ⟨hc, rfl, rfl, rfl⟩
      have h₁ : Absent key c₁ past := h.of_same rfl rfl
      rcases storeProduced_phase visit (c := c₁) hty hc hs hfar hitem hv h₁ with
        ⟨ds, c', hdoes, hkept, hstored⟩ | ⟨hdoes, hafford⟩
      · exact ⟨ds, _, c', .count hdoes, hframed.trans hkept.framed,
          .unloaded _ .stored (fun _ => rfl) hstored hkept.started⟩
      · refine ⟨[], _, c₁, .count hdoes, hframed,
          .crashed .absent (fun heq => absurd heq hph) ?_ (.inl rfl) hafford⟩
        rw [List.append_nil]
        exact h₁
  | some r =>
    rw [computeStored_of_loader hloader]
    -- the cache once the loader was started
    let c₁ : Cache MemoryStore :=
      { c.recordEvent (.load "once") with started := c.started ++ [visit.caller] }
    have hframed : c.Framed c₁ := ⟨hc, rfl, rfl, rfl⟩
    have h₁ : Absent key c₁ past := h.of_same rfl rfl
    cases hanswer : visit.loaded with
    | none =>
      refine ⟨[], _, c₁, .count (.startLoad (.awaitLoad_blocked hanswer)), hframed,
        .loading hph hanswer ?_ rfl⟩
      rw [List.append_nil]
      exact h₁
    | some answer =>
      obtain ⟨v, data, rfl, hv⟩ := hloaded answer hanswer
      rcases storeProduced_phase visit (c := c₁) hty hc hs hfar hitem hv h₁ with
        ⟨ds, c', hdoes, hkept, hstored⟩ | ⟨hdoes, hafford⟩
      · exact ⟨ds, _, c', .count (.startLoad (.awaitLoad hanswer hdoes)),
          hframed.trans hkept.framed, .loaded v data hph hanswer hv hstored hkept.started⟩
      · refine ⟨[], _, c₁, .count (.startLoad (.awaitLoad hanswer hdoes)), hframed,
          .crashed .absent (fun heq => absurd heq hph) ?_ (.inr rfl) hafford⟩
        rw [List.append_nil]
        exact h₁

/-- **A shared run** in any phase of the key. -/
theorem flight_phase (visit : Visit) (hty : ty ≠ .scalar .literal) (hc : c.Sound) (hs : c.setup = s)
    (hfar : s.far = true) (hitem : item.Plain s.envelope ty key)
    (hloaded : ∀ answer, visit.loaded = some answer →
      ∃ v data, answer = .ok v ∧ s.envelope.Keeps ty v data)
    (hphase : In key ty c past ph) :
    ∃ ds r c', (s.flight ty item).Does visit c ds r c' ∧ c.Framed c' ∧
      Flown s ty item key visit ph c c' (past ++ ds) r := by
  have htier : s.hasTier = true := by rw [hasTier, hfar, Bool.or_true]
  obtain rfl := hitem.key
  rw [flight_eq]
  obtain ⟨ds, r, c₁, hlookup, hkept, hlooked, hafford⟩ :=
    lookup_phase visit item.key hc hs htier hitem.skip hphase
  have hs₁ : c₁.setup = s := hkept.setup.trans hs
  cases hlooked with
  | read v h =>
    cases v with
    | none =>
      refine ⟨_, _, c₁, hlookup.bind .done, hkept.framed, .unloaded _ ph id ?_ hkept.started⟩
      rw [List.append_nil]
      exact h
    | some v =>
      cases hencode : s.envelope.encode ty v with
      | error f =>
        have hafter : s.afterLookup ty item (.ok (some v)) = .done (.error (.envelope f)) := by
          simp only [afterLookup, hencode]
        refine ⟨_, _, c₁, hlookup.bind (by rw [hafter]; exact .done), hkept.framed,
          .unloaded _ ph id ?_ hkept.started⟩
        rw [List.append_nil]
        exact h
      | ok data =>
        have hafter : s.afterLookup ty item (.ok (some v)) = .done (.ok data) := by
          simp only [afterLookup, hencode]
        refine ⟨_, _, c₁, hlookup.bind (by rw [hafter]; exact .done), hkept.framed,
          .unloaded _ ph id ?_ hkept.started⟩
        rw [List.append_nil]
        exact h
  | missing hph h =>
    obtain ⟨ds', r, c', hdoes, hframed, hflown⟩ :=
      computeStored_phase visit hty hkept.sound hs₁ hfar hitem hloaded h
    refine ⟨_, r, c', hlookup.bind hdoes, hkept.framed.trans hframed, ?_⟩
    rw [← List.append_assoc]
    exact hflown.of_kept hkept hph
  | spoilt f hf hph h =>
    obtain ⟨c₂, hheal, hkept₂, habsent⟩ :=
      heal_phase visit item.key hkept.sound hs₁ hitem.skip h
    obtain ⟨ds', r, c', hdoes, hframed, hflown⟩ :=
      computeStored_phase visit hty hkept₂.sound (hkept₂.setup.trans hs₁) hfar
        hitem hloaded habsent
    have hafter : s.afterLookup ty item (.error f) =
        (s.heal item.key item.options).bind fun
          | .error f => .done (.error f)
          | .ok _ => s.computeStored ty item := by
      simp only [afterLookup, hf.1, hf.2, Bool.false_eq_true, if_false, if_true]
    refine ⟨_, r, c', hlookup.bind (by rw [hafter]; exact hheal.bind hdoes),
      (hkept.framed.trans hkept₂.framed).trans hframed, ?_⟩
    rw [← List.append_assoc, ← List.append_assoc]
    exact hflown.of_kept (hkept.trans hkept₂) (by simp [hph])
  | crashed h =>
    exact ⟨ds, _, c₁, hlookup.bind_crashed, hkept.framed,
      .crashed ph (fun heq => ⟨heq, hkept.started⟩) h (.inl hkept.started) (hafford rfl)⟩

end Setup

end LayeredCache
