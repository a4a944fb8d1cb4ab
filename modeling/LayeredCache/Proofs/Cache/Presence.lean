import LayeredCache.Proofs.Cache.Nil
import LayeredCache.Proofs.Cache.Peers
import LayeredCache.Proofs.Cache.Readable
import LayeredCache.Proofs.Cache.Storing

/-!
# Whether a key would be found

Asking whether a key is there and reading it reach the near tier in different ways: the one peeks
and leaves no trace, the other looks the key up, refreshes it and takes it away when it has expired.
From there on both do the same. So they agree: a key is there exactly if a read of it gives a value,
or fails because what a tier served is no value of the type. They also send the same to the far
tier, count its answers alike, and copy the same into the near tier with the same deadline.

This is shown for every setting of the options, with or without either tier, and over any far tier,
whatever it answers. A far tier may itself answer with a failure that looks like one of decoding;
then nothing was served, and the key is not there.

## Main definitions

* `Setup.Offered` — what the tiers serve to a call.
* `Setup.FetchEnds` — the ends that a look-up in the far tier can come to.
* `Setup.Agree` — what is said of a key fits what a read of it came to.

## Main results

* `Setup.has_eq`, `Setup.lookup_eq` — both operations ask the near tier and then go on alike.
* `Setup.has_agrees` — they agree in their answers and in what they do.
-/

set_option autoImplicit false

namespace LayeredCache

open Far

/-- A contact that looks a key up in the near tier, or counts such a look-up. -/
def Contact.looksNear : Contact → Bool
  | .find _ _ => true
  | .holds _ _ => true
  | .count (.hit label) => label == nearLabel
  | .count (.miss label) => label == nearLabel
  | _ => false

/-- The contacts that are not look-ups in the near tier. -/
def Contact.beyondNear (log : List Contact) : List Contact := log.filter fun x => !x.looksNear

/-- Contacts in a row are filtered each on its own. -/
@[simp] lemma Contact.beyondNear_append (log log' : List Contact) :
    beyondNear (log ++ log') = beyondNear log ++ beyondNear log' := List.filter_append log log'

/-- Peeking into the near tier tells whether it serves a key. -/
lemma Cache.any_has {σ : Type} (c : Cache σ) (now : Instant) (key : String) :
    (c.near.any fun t => t.has now key) = (c.nearLive now key).isSome := by
  unfold nearLive nearAt NearTier.has
  cases c.near with
  | none => rfl
  | some t =>
    rw [Option.any_some, Option.bind_some]
    cases t.entries.peek key with
    | none => rfl
    | some e => cases hlive : e.isLive now <;> simp [hlive, Option.filter]

/-- A new near tier holds nothing. -/
lemma Cache.nearAt_of_new {σ : Type} {c : Cache σ} {hash : String → UInt64} {draws : Nat → Nat}
    {size samples : Nat} (h : c.near = NearTier.new hash draws size samples) (key : String) :
    c.nearAt key = none := by
  cases hnear : c.near with
  | none => rw [nearAt, hnear, Option.bind_none]
  | some t => rw [nearAt_of_some hnear, NearTier.peek_new (h.symm.trans hnear)]

namespace Setup

variable {σ : Type} [FarStore σ] {s : Setup} {visit : Visit} {ty : Ty} {key : String}
  {o : CallOptions} {c : Cache σ}

/-! ## What a call is served -/

/-- What the near tier serves under a key to a call, if the call uses it. -/
def nearContent (s : Setup) (now : Instant) (key : String) (o : CallOptions) (c : Cache σ) :
    Option Content :=
  if s.usesNear o then (c.nearLive now key).map Entry.content else none

/-- What the tiers serve under a key to a call: what the near tier serves, if the call uses it, or
else what the far tier replies. -/
inductive Offered (s : Setup) (now : Instant) (key : String) (o : CallOptions) (c : Cache σ) :
    Content → Prop
  | near {content : Content} (served : s.nearContent now key o c = some content) :
    Offered s now key o c content
  | far {far : σ} {data : Bytes} (stale : s.nearContent now key o c = none)
    (uses : s.usesFar o = true) (there : c.far = some far)
    (answer : (FarStore.answer far now (.get key)).1 = .reply data) :
    Offered s now key o c (.stored data)

/-- The ends that a look-up in the far tier can come to. -/
inductive FetchEnds (s : Setup) (now : Instant) (key : String) (o : CallOptions) (c : Cache σ) :
    Progress Outcome → Prop
  /-- The call does not use the far tier. -/
  | unused (unused : s.usesFar o = false) : FetchEnds s now key o c (.finished (.error .missing))
  /-- The far tier fails. -/
  | failed {far : σ} {cause : Failure} (uses : s.usesFar o = true) (there : c.far = some far)
    (answer : (FarStore.answer far now (.get key)).1 = .failure cause) :
    FetchEnds s now key o c (.finished (.error cause))
  /-- The far tier replies. -/
  | served {far : σ} {data : Bytes} (uses : s.usesFar o = true) (there : c.far = some far)
    (answer : (FarStore.answer far now (.get key)).1 = .reply data) :
    FetchEnds s now key o c (.finished (.ok data))
  /-- The clock cannot represent a deadline. -/
  | crashed : FetchEnds s now key o c .crashed

/-- **A look-up in the far tier** comes to one of its ends. -/
lemma fetch_ends (visit : Visit) (key : String) (hs : c.setup = s) :
    s.FetchEnds visit.now key o c ((s.fetch key o).run visit c).1 := by
  unfold fetch
  cases huses : s.usesFar o with
  | false => exact .unused huses
  | true =>
    cases hfar : c.far with
    | none =>
      rw [usesFar, Cache.far_eq_false hs hfar] at huses
      cases huses
    | some far =>
      simp only [if_true, Prog.run, hfar]
      cases hanswer : (FarStore.answer far visit.now (.get key)).1 with
      | failure cause => exact .failed huses hfar hanswer
      | crash => exact .crashed
      | reply data =>
        -- the reply is copied, and this is all that can still go wrong
        let c₁ : Cache σ := (({ c with
          far := some (FarStore.answer far visit.now (.get key)).2 }).recordTally true).recordEvent
            (.hit farLabel)
        have hs₁ : c₁.setup = s := by
          rw [← hs, Cache.setup, Cache.setup, hfar]
          rfl
        show s.FetchEnds visit.now key o c (Prog.run visit ((s.putNear key _ o).bind _) c₁).1
        rw [Prog.run_bind]
        rcases putNear_lays (o := o) visit key (.stored data) hs₁ with
          ⟨c₂, hput, -⟩ | ⟨t, -, -, -, hput⟩
        · rw [hput.run]
          exact .served huses hfar hanswer
        · rw [hput.run]
          exact .crashed

/-- A look-up in the far tier does not look into the near tier. -/
lemma fetch_sends : (s.fetch key o).Sends key := by
  unfold fetch
  split
  · rintro (f | data)
    · trivial
    · show (Prog.bind _ _).Sends key
      unfold putNear
      split
      · exact ⟨rfl, trivial⟩
      · trivial
  · trivial

/-! ## The near tier is asked -/

/-- **Looking up in the near tier** gives what this tier serves, if the call uses it, and leaves a
peer. -/
lemma findNear_peers (visit : Visit) (key : String) (hc : c.Sound) (hs : c.setup = s) :
    ∃ c₁, (s.findNear key o).run visit c = (.finished (s.nearContent visit.now key o c), c₁) ∧
      c.Peers visit.now key c₁ ∧
      Contact.beyondNear ((s.findNear key o).contacts visit c) = [] := by
  unfold findNear nearContent
  cases huses : s.usesNear o with
  | false => exact ⟨c, rfl, .refl hc, rfl⟩
  | true =>
    cases hnear : c.near with
    | none =>
      rw [usesNear, Cache.near_eq_false hs hnear] at huses
      cases huses
    | some t =>
      obtain ⟨hsound, -, hfound, -⟩ := (hc t hnear).get visit.now key
      have hface : (t.get visit.now key).2.face key = _ := NearTier.face_get (hc t hnear)
      obtain ⟨hentry, httl, hdraws, hdrawn⟩ := NearTier.Face.mk.inj hface
      have hserved : c.nearLive visit.now key =
          (t.entries.peek key).filter fun e => e.isLive visit.now := by
        rw [Cache.nearLive, Cache.nearAt_of_some hnear]
      rw [if_pos rfl, if_pos rfl, hserved, ← hfound]
      simp only [Prog.run, Prog.contacts, hnear]
      refine ⟨_, rfl, ⟨hc, ?_, rfl, rfl, ?_, ?_⟩, ?_⟩
      · rintro _ ⟨⟩
        exact hsound
      · rw [hserved]
        show _ = Option.filter _ ((t.get visit.now key).2.entries.peek key)
        rw [hentry, Option.filter_filter]
        simp only [Bool.and_self]
      · rw [Cache.clock, hnear]
        show some (t.defaultTtl, t.draws, t.drawn) = some (_, _, _)
        rw [httl, hdraws, hdrawn]
        rfl
      · cases (t.get visit.now key).1 <;> rfl

/-! ## Both operations, in two parts -/

/-- Asks whether the near tier serves a key, if the call uses it. -/
def peekNear (s : Setup) (key : String) (o : CallOptions) : Prog Bool :=
  if s.usesNear o then .holds key .done else .done false

/-- What is said of a key after a look-up in the far tier. -/
def found : Outcome → Prog Bool
  | .ok _ => .done true
  | .error _ => .done false

/-- What a read gives after a look-up in the far tier. -/
def decoded (ty : Ty) : Outcome → Prog (Except Failure (Option Value))
  | .ok data => .done ((Content.stored data).read ty)
  | .error f => .done (.error f)

/-- **Asking whether a key is there**: the near tier is asked, and then the far tier. -/
lemma has_eq (hskips : o.skip.covers .all = false) (htiers : s.hasTier = true) :
    s.has key o = (s.peekNear key o).bind fun near =>
      if near then .done true else (s.fetch key o).bind found := by
  have hrest : ∀ near : Bool, (if near then Prog.done true else (s.fetch key o).bind fun
      | .ok _ => Prog.done true
      | .error _ => Prog.done false) = if near then .done true else (s.fetch key o).bind found := by
    intro near
    cases near with
    | true => rfl
    | false => exact congrArg (Prog.bind _) (funext fun outcome => by cases outcome <;> rfl)
  unfold has peekNear
  rw [hskips, htiers]
  cases s.usesNear o with
  | true => exact congrArg (Prog.bind _) (funext hrest)
  | false => exact hrest false

/-- **Reading a key**: it is looked up in the near tier, and then in the far tier. -/
lemma lookup_eq (ty : Ty) (hskips : o.skip.covers .all = false) (htiers : s.hasTier = true) :
    s.lookup ty key o = (s.findNear key o).bind fun
      | some content => .done (content.read ty)
      | none => (s.fetch key o).bind (decoded ty) := by
  unfold lookup
  rw [hskips, htiers]
  refine congrArg (Prog.bind _) (funext fun near => ?_)
  cases near with
  | some content => rfl
  | none => exact congrArg (Prog.bind _) (funext fun outcome => by cases outcome <;> rfl)

/-- **Peeking into the near tier** tells whether this tier serves the key, and changes nothing. -/
lemma peekNear_run (s : Setup) (visit : Visit) (key : String) (o : CallOptions) (c : Cache σ) :
    (s.peekNear key o).run visit c =
        (.finished (s.nearContent visit.now key o c).isSome, c) ∧
      Contact.beyondNear ((s.peekNear key o).contacts visit c) = [] := by
  unfold peekNear nearContent
  cases s.usesNear o with
  | false => exact ⟨rfl, rfl⟩
  | true =>
    simp only [if_true, Prog.run, Prog.contacts, c.any_has, Option.isSome_map]
    exact ⟨trivial, rfl⟩

/-! ## Agreement -/

/-- When the far tier fails, its own failure is not one of decoding. -/
def FailsPlainly (now : Instant) (key : String) (c : Cache σ) : Prop :=
  ∀ far f, c.far = some far → (FarStore.answer far now (.get key)).1 = .failure f →
    f.isCorruption = false

/-- What is said of a key fits what a read of it came to: both come to an end, and the key is there
exactly if the read gave a value or failed to decode what a tier served; or both crash. Such a
failure is one of decoding, and unless the far tier itself fails with one, this kind of failure is
enough to tell. -/
inductive Agree (s : Setup) (now : Instant) (ty : Ty) (key : String) (o : CallOptions)
    (c : Cache σ) : Progress Bool → Progress (Except Failure (Option Value)) → Prop
  | ends {there : Bool} {r : Except Failure (Option Value)}
    (served : there = true ↔ (∃ v, r = .ok v) ∨ ∃ content f, s.Offered now key o c content ∧
      content.read ty = .error f ∧ f.isCorruption = true ∧ r = .error f)
    (kind : FailsPlainly now key c →
      (there = true ↔ (∃ v, r = .ok v) ∨ ∃ f, r = .error f ∧ f.isCorruption = true)) :
    Agree s now ty key o c (.finished there) (.finished r)
  | crash : Agree s now ty key o c .crashed .crashed

/-- What is served is read: the key is there. -/
lemma Agree.of_offered {content : Content} (h : s.Offered visit.now key o c content) :
    s.Agree visit.now ty key o c (.finished true) (.finished (content.read ty)) := by
  cases hread : content.read ty with
  | ok v => exact .ends ⟨fun _ => .inl ⟨v, rfl⟩, fun _ => rfl⟩ fun _ => ⟨fun _ => .inl ⟨v, rfl⟩,
      fun _ => rfl⟩
  | error f =>
    have hcorrupt := (Content.failure_of_read hread).1
    apply Agree.ends
    · exact ⟨fun _ => .inr ⟨content, f, h, hread, hcorrupt, rfl⟩, fun _ => rfl⟩
    · intro _
      exact ⟨fun _ => .inr ⟨f, rfl, hcorrupt⟩, fun _ => rfl⟩

/-- Nothing is served: the key is not there. -/
lemma Agree.of_nothing {f : Failure} (h : ∀ content, ¬ s.Offered visit.now key o c content)
    (hplain : FailsPlainly visit.now key c → f.isCorruption = false) :
    s.Agree visit.now ty key o c (.finished false) (.finished (.error f)) := by
  apply Agree.ends
  · refine ⟨fun hthere => absurd hthere Bool.false_ne_true, ?_⟩
    rintro (⟨v, hv⟩ | ⟨content, g, hoffered, -⟩)
    · cases hv
    · exact absurd hoffered (h content)
  · intro hfar
    refine ⟨fun hthere => absurd hthere Bool.false_ne_true, ?_⟩
    rintro (⟨v, hv⟩ | ⟨g, hg, hcorrupt⟩)
    · cases hv
    · cases hg
      exact (hplain hfar).symm.trans hcorrupt

/-- **After the near tier served nothing**, what is said of a key fits what a read gives. -/
lemma agree_of_fetch {r : Progress Outcome}
    (hstale : s.nearContent visit.now key o c = none) (h : s.FetchEnds visit.now key o c r)
    (c₁ c₂ : Cache σ) :
    s.Agree visit.now ty key o c (Prog.resume visit found (r, c₁)).1
      (Prog.resume visit (decoded ty) (r, c₂)).1 := by
  cases h with
  | unused hunused =>
    refine .of_nothing ?_ fun _ => rfl
    rintro _ (⟨hserved⟩ | ⟨-, huses, -, -⟩)
    · cases hstale.symm.trans hserved
    · cases hunused.symm.trans huses
  | failed _ hthere hanswer =>
    refine .of_nothing ?_ fun hplain => hplain _ _ hthere hanswer
    rintro _ (⟨hserved⟩ | ⟨-, -, hthere', hanswer'⟩)
    · cases hstale.symm.trans hserved
    · obtain rfl := Option.some.inj (hthere.symm.trans hthere')
      cases hanswer.symm.trans hanswer'
  | served huses hthere hanswer => exact .of_offered (.far hstale huses hthere hanswer)
  | crashed => exact .crash

/-- What both operations come to: they agree, they make the same contacts but for their look-ups in
the near tier, and they leave peers. -/
structure HasAgrees (visit : Visit) (ty : Ty) (key : String) (o : CallOptions) (c : Cache σ) :
    Prop where
  agree : c.setup.Agree visit.now ty key o c ((c.setup.has key o).visit visit c).1
    ((c.setup.get ty key o).visit visit c).1
  contacts : Contact.beyondNear ((c.setup.has key o).contacts visit c) =
    Contact.beyondNear ((c.setup.get ty key o).contacts visit c)
  far : ((c.setup.has key o).visit visit c).2.far = ((c.setup.get ty key o).visit visit c).2.far
  tally : ((c.setup.has key o).visit visit c).2.tally =
    ((c.setup.get ty key o).visit visit c).2.tally
  near : ∀ t, visit.now ≤ t →
    ((c.setup.has key o).visit visit c).2.nearLive t key =
      ((c.setup.get ty key o).visit visit c).2.nearLive t key

/-- A caller leaves the tiers and the tally as the program does, also when it crashes. -/
lemma visit_leaves {α : Type} (visit : Visit) (p : Prog α) (c : Cache σ) :
    (p.visit visit c).2.near = (p.run visit c).2.near ∧
      (p.visit visit c).2.far = (p.run visit c).2.far ∧
      (p.visit visit c).2.tally = (p.run visit c).2.tally := by
  unfold Prog.visit
  rcases p.run visit c with ⟨_ | _ | _, c'⟩ <;> exact ⟨rfl, rfl, rfl⟩

/-- What the programs come to, their callers come to. -/
lemma HasAgrees.of_runs
    (hagree : c.setup.Agree visit.now ty key o c ((c.setup.has key o).run visit c).1
      ((c.setup.get ty key o).run visit c).1)
    (hcontacts : Contact.beyondNear ((c.setup.has key o).contacts visit c) =
      Contact.beyondNear ((c.setup.get ty key o).contacts visit c))
    (hpeers : Cache.Peers visit.now key ((c.setup.has key o).run visit c).2
      ((c.setup.get ty key o).run visit c).2) : HasAgrees visit ty key o c := by
  obtain ⟨hnear, hfar, htally⟩ := visit_leaves visit (c.setup.has key o) c
  obtain ⟨hnear', hfar', htally'⟩ := visit_leaves visit (c.setup.get ty key o) c
  refine ⟨?_, hcontacts, ?_, ?_, fun t ht => ?_⟩
  · rw [Prog.progress_visit, Prog.progress_visit]
    exact hagree
  · rw [hfar, hfar']
    exact hpeers.far
  · rw [htally, htally']
    exact hpeers.tally
  · rw [Cache.nearLive, Cache.nearLive, Cache.nearAt_congr hnear, Cache.nearAt_congr hnear']
    exact hpeers.later ht

/-- What only returns leaves the cache as it is, and makes no contact. -/
lemma resume_returns {α β : Type} {f : α → Prog β} (hf : ∀ a, ∃ b, f a = .done b) (visit : Visit)
    (r : Progress α) (c : Cache σ) :
    (Prog.resume visit f (r, c)).2 = c ∧ Prog.contactsAfter visit f (r, c) = [] := by
  cases r with
  | finished a =>
    obtain ⟨b, hb⟩ := hf a
    rw [Prog.resume, Prog.contactsAfter, hb]
    exact ⟨rfl, rfl⟩
  | blocked rest => exact ⟨rfl, rfl⟩
  | crashed => exact ⟨rfl, rfl⟩

/-- What is said after a look-up in the far tier is only returned. -/
lemma found_returns : ∀ outcome, ∃ there, found outcome = .done there
  | .ok _ => ⟨true, rfl⟩
  | .error _ => ⟨false, rfl⟩

/-- What a read gives after a look-up in the far tier is only returned. -/
lemma decoded_returns (ty : Ty) : ∀ outcome, ∃ r, decoded ty outcome = .done r
  | .ok data => ⟨(Content.stored data).read ty, rfl⟩
  | .error f => ⟨.error f, rfl⟩

/-- **When every tier is skipped or there is none**, both operations give up at once. -/
lemma idle_programs (ty : Ty) (key : String)
    (hidle : o.skip.covers .all = true ∨ s.hasTier = false) :
    s.has key o = .done false ∧
      ∃ f : Failure, s.get ty key o = .done (.error f) ∧ f.isCorruption = false := by
  unfold has get lookup
  cases hskips : o.skip.covers .all with
  | true => exact ⟨rfl, .missing, rfl, rfl⟩
  | false =>
    have htiers := hidle.resolve_left (by rw [hskips]; exact Bool.false_ne_true)
    rw [htiers]
    exact ⟨rfl, .noTiers, rfl, rfl⟩

/-- Both operations agree when they give up at once. -/
lemma hasAgrees_idle (hc : c.Sound) (visit : Visit) (ty : Ty) (key : String)
    (hidle : o.skip.covers .all = true ∨ c.setup.hasTier = false) :
    HasAgrees visit ty key o c := by
  obtain ⟨hhas, f, hget, hplain⟩ := idle_programs ty key hidle
  have hnothing : ∀ content, ¬ c.setup.Offered visit.now key o c content := by
    intro content hoffered
    have huses : c.setup.usesNear o = true ∨ c.setup.usesFar o = true := by
      cases hoffered with
      | near hserved =>
        left
        by_contra hno
        rw [nearContent, if_neg hno] at hserved
        cases hserved
      | far _ huses => exact .inr huses
    obtain ⟨htiers, hskips⟩ := hasTier_of_uses huses
    rcases hidle with h | h
    · cases hskips.symm.trans h
    · cases htiers.symm.trans h
  apply HasAgrees.of_runs
  · rw [hhas, hget]
    exact .of_nothing hnothing fun _ => hplain
  · rw [hhas, hget]
    rfl
  · rw [hhas, hget]
    exact .refl hc

section Asked

variable (hskips : o.skip.covers .all = false) (htiers : c.setup.hasTier = true)
include hskips htiers

/-- Both operations agree when the near tier serves the key. -/
lemma hasAgrees_near {content : Content} (hc : c.Sound) (visit : Visit) (ty : Ty) (key : String)
    (hserved : c.setup.nearContent visit.now key o c = some content) :
    HasAgrees visit ty key o c := by
  have hhas : c.setup.has key o = _ := has_eq hskips htiers
  have hget : c.setup.get ty key o = _ := lookup_eq ty hskips htiers
  obtain ⟨hpeek, hpeeks⟩ := peekNear_run c.setup visit key o c
  obtain ⟨c₁, hfind, hpeers, hfinds⟩ := findNear_peers (o := o) visit key hc rfl
  rw [hserved] at hpeek hfind
  apply HasAgrees.of_runs
  · rw [hhas, hget, Prog.run_bind, Prog.run_bind, hpeek, hfind]
    exact .of_offered (.near hserved)
  · rw [hhas, hget, Prog.contacts_bind, Prog.contacts_bind, hpeek, hfind]
    simp only [Contact.beyondNear_append, hpeeks, hfinds]
    rfl
  · rw [hhas, hget, Prog.run_bind, Prog.run_bind, hpeek, hfind]
    exact hpeers

/-- **Both operations agree when the near tier does not serve the key**: the same program goes on
from the cache and from a peer of it. -/
lemma hasAgrees_far (hc : c.Sound) (visit : Visit) (ty : Ty) (key : String)
    (hstale : c.setup.nearContent visit.now key o c = none) : HasAgrees visit ty key o c := by
  have hhas : c.setup.has key o = _ := has_eq hskips htiers
  have hget : c.setup.get ty key o = _ := lookup_eq ty hskips htiers
  obtain ⟨hpeek, hpeeks⟩ := peekNear_run c.setup visit key o c
  obtain ⟨c₁, hfind, hpeers, hfinds⟩ := findNear_peers (o := o) visit key hc rfl
  rw [hstale] at hpeek hfind
  have hhasRun : (c.setup.has key o).run visit c =
      Prog.resume visit found ((c.setup.fetch key o).run visit c) := by
    rw [hhas, Prog.run_bind, hpeek]
    exact Prog.run_bind visit _ _ c
  have hgetRun : (c.setup.get ty key o).run visit c =
      Prog.resume visit (decoded ty) ((c.setup.fetch key o).run visit c₁) := by
    rw [hget, Prog.run_bind, hfind]
    exact Prog.run_bind visit _ _ c₁
  have hfound : ∀ (r : Progress Outcome) (c : Cache σ), _ := resume_returns found_returns visit
  have hdecoded : ∀ (r : Progress Outcome) (c : Cache σ), _ :=
    resume_returns (decoded_returns ty) visit
  have hsends : (c.setup.fetch key o).Sends key := fetch_sends
  obtain ⟨hprogress, hcontacts, hafter⟩ := hsends.run_peers visit hpeers
  apply HasAgrees.of_runs
  · have hends := fetch_ends (o := o) visit key (c := c) rfl
    rw [hhasRun, hgetRun, ← Prod.eta ((c.setup.fetch key o).run visit c),
      ← Prod.eta ((c.setup.fetch key o).run visit c₁), ← hprogress]
    exact agree_of_fetch hstale hends _ _
  · rw [hhas, hget, Prog.contacts_bind, Prog.contacts_bind, hpeek, hfind]
    show Contact.beyondNear (_ ++ Prog.contacts visit ((c.setup.fetch key o).bind found) c) =
      Contact.beyondNear (_ ++ Prog.contacts visit ((c.setup.fetch key o).bind (decoded ty)) c₁)
    rw [Prog.contacts_bind, Prog.contacts_bind, (hfound _ _).2, (hdecoded _ _).2, hcontacts]
    simp only [Contact.beyondNear_append, hpeeks, hfinds]
  · rw [hhasRun, hgetRun, (hfound _ _).1, (hdecoded _ _).1]
    exact hafter

end Asked

/-- **Asking whether a key is there agrees with reading it.** Whatever the options, the tiers and
the answers of the far tier: the key is there exactly if a read at type `ty` from the same cache at
the same instant gives a value, or fails to decode what a tier served, and then its failure says so.
Both send the same to the far tier, count its answers alike, and write the same into the near tier;
they leave the same far tier and tally, and what the near tier serves under the key from then on,
with its deadline, is the same. When the one crashes, so does the other.

**Proof sketch.** Neither does anything when every tier is skipped or there is none. Otherwise the
near tier is asked first, once by a peek and once by a look-up; both tell the same, and the look-up
leaves a peer. When this tier does not serve the key, the same program goes on from the two peers
(`Prog.Sends.run_peers`). -/
theorem has_agrees (hc : c.Reached) (visit : Visit) (ty : Ty) (key : String) (o : CallOptions) :
    HasAgrees visit ty key o c := by
  by_cases hidle : o.skip.covers .all = true ∨ c.setup.hasTier = false
  · exact hasAgrees_idle hc.sound visit ty key hidle
  rw [not_or, Bool.not_eq_true, Bool.not_eq_false] at hidle
  obtain ⟨hskips, htiers⟩ := hidle
  cases hserved : c.setup.nearContent visit.now key o c with
  | some content => exact hasAgrees_near hskips htiers hc.sound visit ty key hserved
  | none => exact hasAgrees_far hskips htiers hc.sound visit ty key hserved

/-- Two tiers, of which the far one holds bytes that end like no stored form. -/
def spoiltTiers : Cache MemoryStore :=
  { narrowTiers with far := some ⟨{("k", ⟨[7, 9], none⟩)}⟩ }

/-- Bytes that cannot be read are served, and a read of them and the question whether their key is
there agree. -/
theorem has_agrees_spoilt :
    spoiltTiers.Reached ∧
      spoiltTiers.setup.Offered 0 "k" {} spoiltTiers (.stored [7, 9]) ∧
      (Content.stored [7, 9]).read (.scalar (.int .int64)) = .error (.envelope (.unknownMarker 9)) ∧
      HasAgrees ⟨0, 0, none⟩ (.scalar (.int .int64)) "k" {} spoiltTiers := by
  have hreached : spoiltTiers.Reached := .of_new near_narrowTiers
  have hstale : spoiltTiers.setup.nearContent 0 "k" {} spoiltTiers = none := by
    have hnear : spoiltTiers.near = NearTier.new (fun _ => 0) (fun _ => 0) 1 0 := near_narrowTiers
    rw [nearContent, Cache.nearLive, Cache.nearAt_of_new hnear]
    rfl
  refine ⟨hreached, .far hstale rfl rfl ?_, rfl, has_agrees hreached _ _ _ _⟩
  rw [MemoryStore.answer_get_eq_reply_iff]
  exact ⟨⟨[7, 9], none⟩, MemoryStore.liveAt_of_permanent (by simp) rfl 0, rfl⟩

end Setup

end LayeredCache
