import LayeredCache.Proofs.Cache.ReadBack
import LayeredCache.Proofs.Effort.Shapes
import LayeredCache.Proofs.Skipping.Contacts

/-!
# Calls that skip the near tier

A call may ask to leave the near tier alone. It then finds nothing there, copies nothing into it and
writes nothing into it, and neither does it drop an unreadable entry from it. There is one
exception: when the far tier refuses a conditional write the near tier forgets the key, also if the
call skips this tier, so that a copy is lost with which the call had nothing to do.

## Main definitions

* `Contact.refuses` — the far tier refuses a conditional write.
* `Setup.Forgets` — contacts with the near tier come of such refusals only.
* `Serial.SparesNear` — how far a call leaves the near tier alone.

## Main results

* `Setup.working_forgets` — the parts of an operation that skips the near tier.
* `Serial.skips_near` — the near tier is what it was unless a write was refused.
* `Serial.skipped_near_forgets` — a skipped tier forgets a key.
-/

set_option autoImplicit false

namespace LayeredCache

open Far
open Prog (Trace Throughout)

/-- Whether a contact is the refusal of a conditional write by the far tier. -/
def Contact.refuses : Contact → Bool
  | .ask (.write condition _ _ _) (.reply applied) => !(applied || condition == .always)
  | _ => false

namespace Setup

variable {ρ : Type} {s : Setup} {ty : Ty} {key : String} {o : CallOptions} {log : List Contact}

/-- The near tier is left alone, but that it forgets a key each time a conditional write is
refused. -/
def Forgets (s : Setup) (key : String) (log : List Contact) : Prop :=
  log.filter Contact.isNear = log.flatMap fun x => if x.refuses then s.dropping key else []

lemma additive_forgets (s : Setup) (key : String) : Contact.Additive (s.Forgets key) where
  nil := rfl
  append h h' := by rw [Forgets, List.filter_append, List.flatMap_append, h, h']

section Skipped

variable (hskip : o.skip.near = true)
include hskip

/-- A call that skips the near tier does not use it. -/
lemma usesNear_of_skip : s.usesNear o = false := by
  rw [usesNear, (covers_eq o.skip).1, hskip, Bool.not_true, Bool.and_false]

/-- It copies and writes nothing into it. -/
lemma laying_of_skip (content : Content) : s.laying key content o = [] := by
  rw [laying, usesNear_of_skip hskip]
  rfl

/-- It looks nothing up there. -/
lemma seeking_of_skip : s.seeking key o = [] := by
  rw [seeking, usesNear_of_skip hskip]
  rfl

/-- A look-up in the far tier that succeeds or fails leaves the near tier alone. -/
lemma forgets_of_fetch {r : Progress Outcome} (h : s.FetchTrace key o log r) :
    s.Forgets key log := by
  cases h with
  | unused | failed | crashed => exact rfl
  | copied _ data =>
    rw [laying_of_skip hskip]
    exact rfl
  | copyCrashed _ uses => cases uses.symm.trans (usesNear_of_skip hskip)

/-- **Writes** leave the near tier alone, but for what the far tier refuses. -/
lemma forgets_store (v : Value) (data : Bytes) :
    Throughout s (s.Forgets key) (s.store ty key v data o) := by
  intro log r h
  cases store_trace h with
  | skipped | noTiers => exact rfl
  | putCrashed uses => cases uses.symm.trans (usesNear_of_skip hskip)
  | near =>
    rw [laying_of_skip hskip]
    exact rfl
  | failed | crashed =>
    rw [laying_of_skip hskip]
    exact rfl
  | applied _ applied =>
    have hrefuses : Contact.refuses (.ask (.write o.condition key data o.lifetime)
        (.reply applied)) = !(applied || o.condition == .always) := rfl
    rw [laying_of_skip hskip, List.nil_append, Forgets, List.flatMap_cons, hrefuses, settling]
    cases applied || o.condition == .always with
    | true => rfl
    | false =>
      unfold dropping
      cases s.near <;> rfl

/-- **The parts of an operation** leave the near tier alone, but for what the far tier refuses. -/
lemma working_forgets : s.Working (s.Forgets key) key o where
  additive := additive_forgets s key
  lookup ty log r h := by
    cases lookup_trace h with
    | skipped | noTiers => exact rfl
    | near uses => cases uses.symm.trans (usesNear_of_skip hskip)
    | unfound fetch | far fetch | crashed fetch =>
      rw [seeking_of_skip hskip]
      exact forgets_of_fetch hskip fetch
  heal log r h := by
    have hsweep : s.sweeping key o.skip = [] := by
      rw [sweeping, hskip, Bool.not_true, Bool.and_false]
      rfl
    cases h with
    | count rest =>
      cases delete_trace rest with
      | near | far =>
        rw [hsweep]
        exact rfl
  collect _ := rfl
  lead _ := rfl
  land _ := rfl
  holds uses := nomatch uses.symm.trans (usesNear_of_skip hskip)
  fetch log r h := forgets_of_fetch hskip (fetch_trace h)
  store ty v data := forgets_store hskip v data
  computes _ := rfl
  starts := rfl
  given _ := rfl

end Skipped

/-! ## Refusals -/

/-- A write is refused only under a condition, and by a far tier that the call uses. -/
def Refusals (s : Setup) (o : CallOptions) (log : List Contact) : Prop :=
  ∀ x ∈ log, x.refuses = true → o.condition ≠ .always ∧ s.usesFar o = true

/-- Contacts among which there is no refusal. -/
lemma Refusals.of_none (h : ∀ x ∈ log, x.refuses = false) : s.Refusals o log := by
  intro x hx hrefuses
  cases (h x hx).symm.trans hrefuses

lemma additive_refusals (s : Setup) (o : CallOptions) : Contact.Additive (s.Refusals o) :=
  Contact.additive_forall _

/-- A look-up in the far tier writes nothing into it. -/
lemma refusals_of_fetch {r : Progress Outcome} (h : s.FetchTrace key o log r) :
    s.Refusals o log := by
  refine .of_none ?_
  cases h with
  | unused | crashed => simp [Contact.refuses]
  | failed => simp [missing, Contact.refuses]
  | copied => unfold laying; split <;> simp [fetching, Contact.refuses]
  | copyCrashed => simp [fetching, Contact.refuses]

/-- **Only conditional writes** are refused. -/
lemma refusals_store (v : Value) (data : Bytes) :
    Throughout s (s.Refusals o) (s.store ty key v data o) := by
  intro log r h
  have hlaid : s.Refusals o (s.laying key (contentOf ty v data o) o) := by
    refine .of_none ?_
    unfold laying
    split <;> simp [Contact.refuses]
  have hsettled : ∀ applied, s.Refusals o (s.settling key o applied) := by
    intro applied
    refine .of_none ?_
    unfold settling dropping
    split
    · simp
    · split <;> simp [Contact.refuses]
  have hadd := additive_refusals s o
  cases store_trace h with
  | skipped | noTiers => exact .of_none (by simp)
  | putCrashed => exact .of_none (by simp [Contact.refuses])
  | near => exact hlaid
  | failed | crashed => exact hadd.append hlaid (.of_none (by simp [Contact.refuses]))
  | applied uses applied =>
    refine hadd.append hlaid fun x hx hrefuses => ?_
    rcases List.mem_cons.mp hx with rfl | hx
    · refine ⟨fun halways => ?_, uses⟩
      simp [Contact.refuses, halways] at hrefuses
    · exact hsettled applied x hx hrefuses

/-- **The parts of an operation** are refused nothing but conditional writes. -/
lemma working_refusals : s.Working (s.Refusals o) key o where
  additive := additive_refusals s o
  lookup ty log r h := by
    have hsought : s.Refusals o (s.seeking key o) := by
      refine .of_none ?_
      unfold seeking
      split <;> simp [Contact.refuses]
    cases lookup_trace h with
    | skipped | noTiers => exact .of_none (by simp)
    | near => exact .of_none (by simp [Contact.refuses])
    | unfound fetch | far fetch | crashed fetch =>
      exact (additive_refusals s o).append hsought (refusals_of_fetch fetch)
  heal log r h := by
    refine .of_none ?_
    cases h with
    | count rest =>
      cases delete_trace rest with
      | near | far => unfold sweeping; split <;> simp [Contact.refuses]
  collect _ := .of_none (by simp [Contact.refuses])
  lead _ := .of_none (by simp [Contact.refuses])
  land _ := .of_none (by simp [Contact.refuses])
  holds _ _ := .of_none (by simp [Contact.refuses])
  fetch log r h := refusals_of_fetch (fetch_trace h)
  store ty v data := refusals_store v data
  computes _ := .of_none (by simp [Contact.refuses])
  starts := .of_none (by simp [Contact.refuses])
  given _ := .of_none (by simp [Contact.refuses])

end Setup

/-! ## Calls -/

/-- A call writes once at most. -/
lemma Effort.call_writes_once {ρ : Type} {s : Setup} {call : Serial.Call ρ} {log : List Contact}
    {r : Progress Unit} (h : Trace s (call.program s) log r) : spent .write log ≤ 1 := by
  have hshare := share_free call
  obtain ⟨hahead, hinside, -⟩ := (call_shape h).spends hshare.1 hshare.2
  have hsplit : spent .write (ahead log) + spent .write (inside log) = spent .write log := by
    rw [← spent_append, ahead, inside, List.takeWhile_append_dropWhile]
  have hlimits : aheadOf call .write + (insideOf call .write + joining .write) ≤ 1 := by
    cases call with
    | load ty item =>
      cases hgroup : item.options.group <;> simp [aheadOf, insideOf, mayShare, hgroup] <;> decide
    | set | get | has | delete | take | once => simp [aheadOf, insideOf, mayShare]; decide
  have := hahead .write
  have := hinside .write
  omega

namespace Contact

variable {s : Setup} {key : String} {log : List Contact}

/-- What is done at each of at most one contact of a kind is done if there is one. -/
lemma flatMap_of_countP_le_one {p : Contact → Bool} {xs : List Contact} (h : log.countP p ≤ 1) :
    (log.flatMap fun x => if p x then xs else []) = if log.any p then xs else [] := by
  induction log with
  | nil => rfl
  | cons x log ih =>
    rw [List.countP_cons] at h
    cases hx : p x with
    | false =>
      simp only [hx] at h
      simp [hx, ih (by simpa using h)]
    | true =>
      rw [hx, if_pos rfl] at h
      have hnone : log.countP p = 0 := by omega
      have hrest := ih (by omega)
      rw [List.countP_eq_zero] at hnone
      have hany : log.any p = false := by simpa using hnone
      rw [List.flatMap_cons, hrest, hany]
      simp [hx]

/-- Only contacts with the near tier change it. -/
lemma foldl_onNear (log : List Contact) (near : Option NearTier) :
    log.foldl onNear near = (log.filter isNear).foldl onNear near := by
  induction log generalizing near with
  | nil => rfl
  | cons x log ih =>
    cases hx : x.isNear with
    | true => rw [List.filter_cons_of_pos hx, List.foldl_cons, List.foldl_cons, ih]
    | false =>
      have hother : onNear near x = near := by
        cases x with
        | drop => cases hx
        | _ => rfl
      rw [List.filter_cons_of_neg (by simp [hx]), List.foldl_cons, hother, ih]

end Contact

namespace Serial

variable {ρ σ : Type} [FarStore σ] {s : Setup} {call : Call ρ} {q : Prog Unit} {c : Cache σ}
  {log log' : List Contact} {r : Progress Unit}

/-- A call that skips a tier is not a deletion. -/
lemma Call.ne_delete (h : call.options.skip.near = true ∨ call.options.skip.far = true)
    (key : String) : call ≠ .delete key := by
  rintro rfl
  rcases h with h | h <;> cases h

/-- How far a call leaves the near tier alone. -/
structure SparesNear (σ : Type) [FarStore σ] (s : Setup) (call : Call ρ) : Prop where
  /-- Whatever others do in between, its only contact with the near tier is that this tier forgets
  the key when a write of the call is refused. -/
  contacts : ∀ log r, Prog.Proceeds σ s (call.program s) log r →
    log.filter Contact.isNear = if log.any Contact.refuses then s.dropping call.key else []
  /-- A write is refused only under a condition, and by a far tier that the call uses. -/
  refusals : ∀ log r, Prog.Proceeds σ s (call.program s) log r → log.any Contact.refuses = true →
    call.options.condition ≠ .always ∧ s.usesFar call.options = true
  /-- Each poll of the call leaves the near tier as it is, unless a write is refused then. -/
  polls : ∀ q, Prog.Pending σ s (call.program s) q → ∀ (c : Cache σ) (visit : Visit),
    c.setup = s → (q.visit visit c).2.near =
      if (q.contacts visit c).any Contact.refuses then c.near.map (·.delete call.key) else c.near
  /-- No poll of a call without a condition, or of one that skips the far tier too, changes it. -/
  kept : call.options.condition = .always ∨ s.usesFar call.options = false →
    ∀ q, Prog.Pending σ s (call.program s) q → ∀ (c : Cache σ) (visit : Visit),
      c.setup = s → (q.visit visit c).2.near = c.near

/-- Contacts of a call that skips the near tier come of refusals only. -/
lemma forgets_program (hskip : call.options.skip.near = true) :
    Throughout s (s.Forgets call.key) (call.program s) :=
  (Setup.working_forgets hskip).call (call.ne_delete (.inl hskip))

/-- Such a call is refused no write but a conditional one. -/
lemma refusals_program (hskip : call.options.skip.near = true) :
    Throughout s (s.Refusals call.options) (call.program s) :=
  Setup.working_refusals.call (call.ne_delete (.inl hskip))

/-- **The contacts with the near tier** of a call that skips it, from any point on. -/
lemma near_contacts (hskip : call.options.skip.near = true)
    (h : Trace s (call.program s) (log ++ log') r) (hlog : s.Forgets call.key log) :
    log'.filter Contact.isNear = if log'.any Contact.refuses then s.dropping call.key else [] := by
  have hwhole := forgets_program hskip _ _ h
  have hrest : s.Forgets call.key log' := by
    rw [Setup.Forgets, List.filter_append, List.flatMap_append, hlog] at hwhole
    exact List.append_cancel_left hwhole
  have hwrites : (log ++ log').countP Contact.refuses ≤ 1 := by
    refine (List.countP_mono_left fun x _ hx => ?_).trans (Effort.call_writes_once h)
    cases x with
    | ask request answer =>
      cases request with
      | write => rfl
      | _ => cases hx
    | _ => cases hx
  rw [List.countP_append] at hwrites
  exact hrest.trans (Contact.flatMap_of_countP_le_one (by omega))

/-- The contacts with the near tier of what is left of such a call. -/
lemma near_contacts_of_pending (hskip : call.options.skip.near = true)
    (hq : Prog.Pending σ s (call.program s) q) (hs : c.setup = s) (visit : Visit) :
    (q.contacts visit c).filter Contact.isNear =
      if (q.contacts visit c).any Contact.refuses then s.dropping call.key else [] := by
  obtain ⟨log, r, hlog, htrace⟩ :=
    hq.contacts (Setup.additive_forgets s call.key) (forgets_program hskip) hs visit
  exact near_contacts hskip htrace hlog

/-- The near tier after a poll whose contacts with it are known. -/
lemma near_of_contacts {visit : Visit} {key : String} (hs : c.setup = s)
    (h : (q.contacts visit c).filter Contact.isNear =
      if (q.contacts visit c).any Contact.refuses then s.dropping key else []) :
    (q.visit visit c).2.near =
      if (q.contacts visit c).any Contact.refuses then c.near.map (·.delete key) else c.near := by
  have hdrops : Contact.OnlyDrops (q.contacts visit c) := by
    intro x hx hnear
    have hmem := List.mem_filter.mpr ⟨hx, hnear⟩
    rw [h, Setup.dropping] at hmem
    split at hmem
    · split at hmem
      · exact ⟨key, List.mem_singleton.mp hmem⟩
      · cases hmem
    · cases hmem
  rw [Prog.near_visit hdrops, Contact.foldl_onNear, h, Setup.dropping]
  cases (q.contacts visit c).any Contact.refuses with
  | false => rfl
  | true =>
    cases hthere : s.near with
    | true => rfl
    | false =>
      rw [Cache.near_eq_none hs hthere]
      rfl

/-- What is left of a call is refused no write but a conditional one. -/
lemma refusals_of_pending (hskip : call.options.skip.near = true)
    (hq : Prog.Pending σ s (call.program s) q) (hs : c.setup = s) (visit : Visit) :
    s.Refusals call.options (q.contacts visit c) := by
  have hwhole := refusals_program (s := s) hskip
  obtain ⟨log, r, -, htrace⟩ :=
    hq.contacts (Setup.additive_refusals s call.options) hwhole hs visit
  exact fun x hx => hwhole _ _ htrace x (List.mem_append_right _ hx)

/-- **The near tier after a poll** of what is left of a call that skips it. -/
lemma near_of_pending (hskip : call.options.skip.near = true)
    (hq : Prog.Pending σ s (call.program s) q) (hs : c.setup = s) (visit : Visit) :
    (q.visit visit c).2.near = if (q.contacts visit c).any Contact.refuses
      then c.near.map (·.delete call.key) else c.near :=
  near_of_contacts hs (near_contacts_of_pending hskip hq hs visit)

/-- A poll leaves the near tier as it is if no write can be refused. -/
lemma near_kept (hskip : call.options.skip.near = true)
    (hfree : call.options.condition = .always ∨ s.usesFar call.options = false)
    (hq : Prog.Pending σ s (call.program s) q) (hs : c.setup = s) (visit : Visit) :
    (q.visit visit c).2.near = c.near := by
  have hnone : (q.contacts visit c).any Contact.refuses = false := by
    refine List.any_eq_false.mpr fun x hx hrefuses => ?_
    obtain ⟨hcondition, huses⟩ := refusals_of_pending hskip hq hs visit x hx hrefuses
    rcases hfree with halways | hunused
    · exact hcondition halways
    · cases huses.symm.trans hunused
  rw [near_of_pending hskip hq hs visit, hnone]
  rfl

/-- **A call that skips the near tier** leaves it alone, but that this tier forgets the key when the
far tier refuses a conditional write of the call.

**Proof sketch.** None of the parts of an operation makes another contact with the near tier, and
none but the last part of a write makes this one. A call writes at most once. -/
theorem skips_near (s : Setup) (call : Call ρ) (hskip : call.options.skip.near = true) :
    SparesNear σ s call where
  contacts log r h := by
    have htrace : Trace s (call.program s) ([] ++ log) r := h.trace
    exact near_contacts hskip htrace (Setup.additive_forgets s call.key).nil
  refusals log r h hrefused := by
    obtain ⟨x, hx, hrefuses⟩ := List.any_eq_true.mp hrefused
    exact refusals_program hskip _ _ h.trace x hx hrefuses
  polls q hq c visit hs := near_of_pending hskip hq hs visit
  kept hfree q hq c visit hs := near_kept hskip hfree hq hs visit

/-- A write over an entry that exists, which skips the near tier. -/
def overwrite : Call Unit :=
  .set (.scalar (.int .int64)) "k" (.int 8) { condition := .ifPresent, skip := .nearOnly }

/-- A write to the far tier only. -/
theorem skips_near_overwrite :
    overwrite.options.skip.near = true ∧ SparesNear MemoryStore ⟨true, true, {}⟩ overwrite :=
  ⟨rfl, skips_near ⟨true, true, {}⟩ overwrite rfl⟩

/-- A near tier may hold an entry. -/
lemma exists_entry (key : String) (content : Content) :
    ∃ t : NearTier, t.Reached ∧ ∃ e, t.entries.peek key = some e := by
  obtain ⟨t, hnew⟩ : ∃ t, NearTier.new (fun _ => 0) (fun _ => 0) 1 0 = some t := ⟨_, rfl⟩
  have hreached : t.Reached := .new hnew
  have hrep : 0 + (if (0 : Span) = 0 then t.defaultTtl else 0) < Instant.horizon := by
    rw [NearTier.defaultTtl_new hnew]
    decide
  obtain ⟨t', hput⟩ := Option.ne_none_iff_exists'.mp (NearTier.put_ne_none hrep key content)
  exact ⟨t', hreached.put hput, _, hreached.sound.peek_put hput⟩

/-- An empty store refuses to write over an entry. -/
lemma answer_absent (now : Instant) (key : String) (data : Bytes) (ttl : Span) : ∃ far',
    FarStore.answer ({} : MemoryStore) now (.write .ifPresent key data ttl) =
      (.reply false, far') := by
  have hallows : MemoryStore.allows .ifPresent
      (MemoryStore.liveAt {} now key).isSome = false := by
    simp [MemoryStore.liveAt, MemoryStore.allows]
  rw [MemoryStore.answer_write, (MemoryStore.write_refused data ttl hallows).1]
  exact ⟨_, rfl⟩

/-- The near tier after a write that an empty far tier refuses. -/
lemma near_overwrite (t : NearTier) (visit : Visit) :
    ((overwrite.program ⟨true, true, {}⟩).visit visit
      ({ near := some t, far := some {} } : Cache MemoryStore)).2.near =
        some (t.delete "k") := by
  obtain ⟨far', hanswer⟩ := answer_absent visit.now "k" [8, 0] 0
  show (Prog.visit visit (.call (.write .ifPresent "k" [8, 0] 0) _) _).2.near = _
  rw [Prog.visit, Prog.run]
  dsimp only
  rw [hanswer]
  rfl

/-- **A skipped tier forgets a key**: the far tier has no entry to write over, and the copy that the
near tier had is gone after the call. -/
theorem skipped_near_forgets :
    ¬ ∀ (c : Cache MemoryStore), c.Reached → ∀ (call : Call Unit) (visit : Visit),
      call.options.skip.near = true →
        ((call.program c.setup).visit visit c).2.near = c.near := by
  intro hspares
  obtain ⟨t, hreached, e, hpeek⟩ := exists_entry "k" (.stored [7, 0])
  let c : Cache MemoryStore := { near := some t, far := some {} }
  have hcache : c.Reached := by
    rintro _ ⟨⟩
    exact hreached
  have hkept := hspares c hcache overwrite ⟨0, 0, none⟩ rfl
  have hsame : t.delete "k" = t := Option.some.inj ((near_overwrite t _).symm.trans hkept)
  obtain ⟨-, -, hpeeked⟩ := hreached.sound.delete "k"
  have hgone := hpeeked "k"
  rw [hsame, hpeek] at hgone
  cases hgone

end Serial

end LayeredCache
