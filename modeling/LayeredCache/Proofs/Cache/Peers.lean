import LayeredCache.Proofs.Cache.OneKey
import LayeredCache.Proofs.Cache.Traces

/-!
# Programs that do not look into the near tier

The second part of a look-up asks the far tier, counts, and copies what it found into the near tier.
It never looks into the near tier. So it does not notice what was looked up there before, which may
have taken an expired entry away and refreshed others: on two caches that differ in no more than
that it makes the same contacts, comes to the same end, and leaves the same behind.

This holds over any far tier, whatever it answers.

## Main definitions

* `Cache.Peers` — two caches that agree but for what a look-up in the near tier may change.
* `Prog.Sends` — a program that sends, counts and writes under one key, and looks up nothing near.

## Main results

* `Prog.contacts_bind` — the contacts of programs in a row.
* `Cache.Peers.later` — peers serve the same from then on.
* `Prog.Sends.run_peers` — on peers such a program does the same.
-/

set_option autoImplicit false

namespace LayeredCache

/-! ## Contacts of programs in a row -/

namespace Prog

variable {α β σ : Type} [FarStore σ]

-- the equations of the three recursions are made here, once, and not by each proof that asks first
attribute [local simp] run contacts bind

/-- The contacts of two programs in a row after the first one has come so far. -/
def contactsAfter (visit : Visit) (f : α → Prog β) : Progress α × Cache σ → List Contact
  | (.finished a, c) => (f a).contacts visit c
  | _ => []

/-- **Programs in a row** make the contacts of the first one and then those of the second.

**Proof sketch.** Induction on the first program. Each request makes the same contact on both sides,
and what follows is the induction hypothesis. -/
theorem contacts_bind (visit : Visit) (p : Prog α) (f : α → Prog β) (c : Cache σ) :
    (p.bind f).contacts visit c =
      p.contacts visit c ++ contactsAfter visit f (p.run visit c) := by
  induction p generalizing c with
  | done a => rfl
  | find key next ih =>
    cases hnear : c.near with
    | none => simp only [bind, contacts, run, hnear, ih]
    | some t => simp only [bind, contacts, run, hnear, ih, List.cons_append]
  | holds key next ih => simp only [bind, contacts, run, ih, List.cons_append]
  | put key content ttl next ih =>
    cases hnear : c.near with
    | none => simp only [bind, contacts, run, hnear, ih]
    | some t =>
      cases hput : t.put visit.now key content ttl with
      | none => simp [bind, contacts, run, hnear, hput, contactsAfter]
      | some t' => simp only [bind, contacts, run, hnear, hput, ih, List.cons_append]
  | drop key next ih => simp only [bind, contacts, run, ih, List.cons_append]
  | call request next ih =>
    cases hfar : c.far with
    | none => simp only [bind, contacts, run, hfar, ih]
    | some far =>
      simp only [bind, contacts, run, hfar]
      cases hanswer : FarStore.answer far visit.now request with
      | mk answer far' =>
        cases answer with
        | reply value => simp only [ih, List.cons_append]
        | failure cause => simp only [ih, List.cons_append]
        | crash => simp [contactsAfter]
  | tally found next ih => simp only [bind, contacts, run, ih, List.cons_append]
  | count event next ih => simp only [bind, contacts, run, ih, List.cons_append]
  | startLoad next ih => simp only [bind, contacts, run, ih, List.cons_append]
  | awaitLoad next ih =>
    cases hloaded : visit.loaded with
    | none => simp [bind, contacts, run, hloaded, contactsAfter]
    | some answer => simp only [bind, contacts, run, hloaded, ih, List.cons_append]
  | join key next ih =>
    simp only [bind, contacts, run]
    cases (c.flights.join visit.caller key).turn visit.caller with
    | collect outcome => simp only [ih, List.cons_append]
    | start => simp only [ih, List.append_assoc]
    | outside => simp [contactsAfter]
    | wait => simp [contactsAfter]
    | running => simp [contactsAfter]
  | land outcome next ih => simp only [bind, contacts, run, ih, List.cons_append]

end Prog

/-! ## Peers -/

namespace Cache

variable {σ : Type} {now : Instant} {key : String} {c d : Cache σ}

/-- What a near tier goes by when it sets a deadline. -/
def clock (c : Cache σ) : Option (Span × (Nat → Nat) × Nat) :=
  c.near.map fun t => (t.defaultTtl, t.draws, t.drawn)

/-- Two sound caches with the same far tier and the same tally, whose near tiers serve the same
under a key and set the same deadlines. -/
structure Peers (now : Instant) (key : String) (c d : Cache σ) : Prop where
  sound : c.Sound
  sound' : d.Sound
  far : c.far = d.far
  tally : c.tally = d.tally
  served : c.nearLive now key = d.nearLive now key
  clock : c.clock = d.clock

namespace Peers

/-- A sound cache is its own peer. -/
lemma refl (h : c.Sound) : Peers now key c c := ⟨h, h, rfl, rfl, rfl, rfl⟩

/-- **Peers serve the same from then on**: what is served later is served already. -/
lemma later (h : Peers now key c d) {t : Instant} (ht : now ≤ t) :
    c.nearLive t key = d.nearLive t key := by
  have hlater : ∀ b : Cache σ,
      b.nearLive t key = (b.nearLive now key).filter fun e => e.isLive t := by
    intro b
    rw [nearLive, nearLive, Option.filter_filter]
    congr 1
    funext e
    have himp : e.isLive t = true → e.isLive now = true := by
      simp only [Entry.isLive, decide_eq_true_eq]
      exact Nat.lt_of_le_of_lt ht
    cases hlive : e.isLive t with
    | false => simp
    | true => simp [himp hlive]
  rw [hlater, hlater, h.served]

/-- The near tiers of peers, when there are any. -/
lemma near_cases (h : Peers now key c d) : (c.near = none ∧ d.near = none) ∨
    ∃ t u, c.near = some t ∧ d.near = some u ∧ t.defaultTtl = u.defaultTtl ∧
      t.draws = u.draws ∧ t.drawn = u.drawn := by
  have hclock := h.clock
  unfold Cache.clock at hclock
  cases hc : c.near with
  | none =>
    rw [hc] at hclock
    exact .inl ⟨rfl, Option.map_eq_none_iff.mp hclock.symm⟩
  | some t =>
    rw [hc] at hclock
    obtain ⟨u, hu, heq⟩ := Option.map_eq_some_iff.mp hclock.symm
    simp only [Prod.mk.injEq] at heq
    exact .inr ⟨t, u, rfl, hu, heq.1.symm, heq.2.1.symm, heq.2.2.symm⟩

/-- Peers with another far tier. -/
lemma of_far (h : Peers now key c d) (far : σ) :
    Peers now key { c with far := some far } { d with far := some far } :=
  ⟨h.sound, h.sound', rfl, h.tally, h.served, h.clock⟩

/-- Peers that count alike. -/
lemma recordTally (h : Peers now key c d) (found : Bool) :
    Peers now key (c.recordTally found) (d.recordTally found) :=
  ⟨h.sound, h.sound', h.far, congrArg (Option.map _) h.tally, h.served, h.clock⟩

/-- Peers that count events: the counters of events are not compared. -/
lemma recordEvent (h : Peers now key c d) (event : Event) :
    Peers now key (c.recordEvent event) (d.recordEvent event) :=
  ⟨h.sound, h.sound', h.far, h.tally, h.served, h.clock⟩

/-- **Writing under the key** comes to the same for peers, and leaves peers. -/
lemma put {t u : NearTier} (h : Peers now key c d) (hc : c.near = some t) (hd : d.near = some u)
    (content : Content) (ttl : Span) :
    (t.put now key content ttl = none ∧ u.put now key content ttl = none) ∨
      ∃ t' u', t.put now key content ttl = some t' ∧ u.put now key content ttl = some u' ∧
        Peers now key { c with near := some t' } { d with near := some u' } := by
  obtain ⟨hnone, -⟩ | ⟨t₀, u₀, ht₀, hu₀, httl, hdraws, hdrawn⟩ := h.near_cases
  · rw [hc] at hnone
    cases hnone
  obtain rfl := Option.some.inj (hc.symm.trans ht₀)
  obtain rfl := Option.some.inj (hd.symm.trans hu₀)
  cases hput : t.put now key content ttl with
  | none =>
    left
    refine ⟨rfl, ?_⟩
    rw [NearTier.put_eq_none_iff] at hput ⊢
    rw [← httl, ← hdraws, ← hdrawn]
    exact hput
  | some t' =>
    right
    cases hput' : u.put now key content ttl with
    | none =>
      rw [NearTier.put_eq_none_iff, ← httl, ← hdraws, ← hdrawn, ← NearTier.put_eq_none_iff,
        hput] at hput'
      cases hput'
    | some u' =>
      have hface := NearTier.face_put (h.sound t hc) hput
      have hface' := NearTier.face_put (h.sound' u hd) hput'
      obtain ⟨hentry, hlast, hsame, hnext⟩ := NearTier.Face.mk.inj hface
      obtain ⟨hentry', hlast', hsame', hnext'⟩ := NearTier.Face.mk.inj hface'
      refine ⟨t', u', rfl, rfl, ?_, ?_, h.far, h.tally, ?_, ?_⟩
      · rintro _ ⟨⟩
        exact ((h.sound t hc).put hput).1
      · rintro _ ⟨⟩
        exact ((h.sound' u hd).put hput').1
      · show Option.filter _ (t'.entries.peek key) = Option.filter _ (u'.entries.peek key)
        rw [hentry, hentry', httl, hdraws, hdrawn]
      · show some (t'.defaultTtl, t'.draws, t'.drawn) = some (u'.defaultTtl, u'.draws, u'.drawn)
        rw [hlast, hsame, hnext, hlast', hsame', hnext']
        simp only [NearTier.face, httl, hdraws, hdrawn]

end Peers

end Cache

/-! ## Programs that send, count and write -/

namespace Prog

variable {α σ : Type} [FarStore σ] {key : String} {p : Prog α}

/-- A program looks up nothing in the near tier and drops nothing from it, writes under one key
only, and waits for nobody. -/
def Sends {α : Type} (key : String) : Prog α → Prop
  | .done _ => True
  | .put k _ _ next => k = key ∧ next.Sends key
  | .call _ next => ∀ r, (next r).Sends key
  | .tally _ next => next.Sends key
  | .count _ next => next.Sends key
  | _ => False

/-- **On peers a program that sends does the same**: it makes the same contacts, comes to the same
end, and leaves peers.

**Proof sketch.** Induction on the program. The far tiers are the same and answer alike, and a write
into the near tiers comes to the same (`Cache.Peers.put`). -/
theorem Sends.run_peers (hp : p.Sends key) (visit : Visit) {c d : Cache σ}
    (h : Cache.Peers visit.now key c d) :
    (p.run visit c).1 = (p.run visit d).1 ∧ p.contacts visit c = p.contacts visit d ∧
      Cache.Peers visit.now key (p.run visit c).2 (p.run visit d).2 := by
  induction p generalizing c d with
  | done a => exact ⟨rfl, rfl, h⟩
  | put k content ttl next ih =>
    obtain ⟨rfl, hnext⟩ := hp
    obtain ⟨hc, hd⟩ | ⟨t, u, hc, hd, -⟩ := h.near_cases
    · simp only [run, contacts, hc, hd]
      exact ih hnext h
    · obtain ⟨hput, hput'⟩ | ⟨t', u', hput, hput', hpeers⟩ := h.put hc hd content ttl
      · simp only [run, contacts, hc, hd, hput, hput']
        exact ⟨trivial, trivial, h⟩
      · obtain ⟨hprogress, hcontacts, hafter⟩ := ih hnext hpeers
        simp only [run, contacts, hc, hd, hput, hput']
        exact ⟨hprogress, congrArg (List.cons _) hcontacts, hafter⟩
  | call request next ih =>
    cases hfar : c.far with
    | none =>
      have hfar' : d.far = none := h.far.symm.trans hfar
      simp only [run, contacts, hfar, hfar']
      exact ih _ (hp _) h
    | some far =>
      have hfar' : d.far = some far := h.far.symm.trans hfar
      simp only [run, contacts, hfar, hfar']
      have hpeers := h.of_far (FarStore.answer far visit.now request).2
      rcases (FarStore.answer far visit.now request).1 with value | cause | _
      · obtain ⟨hprogress, hcontacts, hafter⟩ := ih _ (hp _) hpeers
        exact ⟨hprogress, congrArg (List.cons _) hcontacts, hafter⟩
      · obtain ⟨hprogress, hcontacts, hafter⟩ := ih _ (hp _) hpeers
        exact ⟨hprogress, congrArg (List.cons _) hcontacts, hafter⟩
      · exact ⟨rfl, rfl, hpeers⟩
  | tally found next ih =>
    obtain ⟨hprogress, hcontacts, hafter⟩ := ih hp (h.recordTally found)
    exact ⟨hprogress, congrArg (List.cons _) hcontacts, hafter⟩
  | count event next ih =>
    obtain ⟨hprogress, hcontacts, hafter⟩ := ih hp (h.recordEvent event)
    exact ⟨hprogress, congrArg (List.cons _) hcontacts, hafter⟩
  | find k next => exact hp.elim
  | holds k next => exact hp.elim
  | drop k next => exact hp.elim
  | startLoad next => exact hp.elim
  | awaitLoad next => exact hp.elim
  | join k next => exact hp.elim
  | land outcome next => exact hp.elim

end Prog

end LayeredCache
