import LayeredCache.Proofs.Cache.Prolonged
import LayeredCache.Proofs.Serial.FreshReads

/-!
# Reads and the lifetimes of what was written

Calls of every kind are made one after another on a cache that was empty at first, with any
evictions and random draws. What a read gives was written under its key by an earlier call, and
either the lifetime of that write lasts still, or it lasted when another call looked the key up and
copied the value from the far tier into the near tier. The copy lasts as long as the options of that
call say: the far tier tells the bytes of an entry and not how long they are to live. So a look-up
can keep a value readable after the lifetime of its write has ended, and never for longer than its
own lifetime.

## Main definitions

* `Lasts` — a lifetime that began at some instant lasts still.
* `Serial.Course.Stores`, `Serial.Course.Copies` — what a turn does to the entries under a key.
* `Serial.Accounted` — the answer of a read comes from a write that lasts, or from a copy that does.

## Main results

* `Serial.get_accounted` — the answers of all reads are accounted for.
-/

set_option autoImplicit false

namespace LayeredCache

/-- A lifetime that began at an instant lasts at another one; zero never ends. -/
def Lasts (since : Instant) (life : Span) (now : Instant) : Prop := life = 0 ∨ now < since + life

instance (since : Instant) (life : Span) (now : Instant) : Decidable (Lasts since life now) :=
  inferInstanceAs (Decidable (_ ∨ _))

namespace Serial

open Far

variable {ρ : Type}

/-! ## What a turn does -/

namespace Call

/-- A call that skips no tier. -/
def Whole : Call ρ → Prop
  | .set _ _ _ o => o.skip = .none
  | .get _ _ o => o.skip = .none
  | .has _ o => o.skip = .none
  | .delete _ => True
  | .take _ item => item.options.skip = .none
  | .once _ item => item.options.skip = .none
  | .load _ item => item.options.skip = .none

/-- A call that looks a key up with certain options. -/
inductive Reads : Call ρ → String → CallOptions → Prop where
  | get {ty : Ty} {key : String} {o : CallOptions} : Reads (.get ty key o) key o
  | has {key : String} {o : CallOptions} : Reads (.has key o) key o
  | take {ty : Ty} {item : Item ρ} : Reads (.take ty item) item.key item.options
  | once {ty : Ty} {item : Item ρ} : Reads (.once ty item) item.key item.options
  | load {ty : Ty} {item : Item ρ} : Reads (.load ty item) item.key item.options

/-- A call that reads an item or computes it. -/
inductive Asks : Call ρ → Ty → Item ρ → Prop where
  | take {ty : Ty} {item : Item ρ} : Asks (.take ty item) ty item
  | once {ty : Ty} {item : Item ρ} : Asks (.once ty item) ty item
  | load {ty : Ty} {item : Item ρ} : Asks (.load ty item) ty item

/-- A call that asks for an item looks it up. -/
lemma Asks.reads {call : Call ρ} {ty : Ty} {item : Item ρ} (h : call.Asks ty item) :
    call.Reads item.key item.options := by
  cases h with
  | take => exact .take
  | once => exact .once
  | load => exact .load

end Call

namespace Course

/-- A turn writes a value under a key: it sets the value, or it asks for an item whose value this
is, and its own look-up gives nothing that it can use. -/
inductive Writes (s : Course) (t : Turn ρ) : Ty → String → Value → CallOptions → Prop where
  | set {ty : Ty} {key : String} {v : Value} {o : CallOptions} (hcall : t.call = .set ty key v o) :
      Writes s t ty key v o
  | compute {ty : Ty} {item : Item ρ} {v : Value} (hcall : t.call.Asks ty item)
      (hmiss : s.cache.setup.Misses t.visit ty item s.cache)
      (hv : Setup.Produces item (some t.loaded) v) : Writes s t ty item.key v item.options

/-- A turn writes a value under a key, and one of the tiers has an entry of it afterwards, with the
lifetime of the write. -/
structure Stores (s : Course) (t : Turn ρ) (ty : Ty) (key : String) (v : Value) (data : Bytes)
    (o : CallOptions) : Prop where
  writes : s.Writes t ty key v o
  encode : s.cache.setup.envelope.encode ty v = .ok data
  entry : (∃ e, (s.step t).cache.nearAt key = some e ∧
      e.content = Setup.contentOf ty v data o ∧ e.deadline ≤ t.now + s.cache.longest o.lifetime) ∨
    (s.step t).cache.farAt key = some (Setup.heldOf o t.now data)

/-- A turn looks a key up, finds it in the far tier only, and the near tier has a copy of the bytes
afterwards, with the lifetime that the options of the turn name. -/
structure Copies (s : Course) (t : Turn ρ) (key : String) (data : Bytes) (o : CallOptions) :
    Prop where
  reads : t.call.Reads key o
  copy : ∃ e, (s.step t).cache.nearAt key = some e ∧ s.cache.Copied t.now key o e ∧
    e.content = .stored data

end Course

/-- The answer of a read at an instant comes from a write. -/
inductive Accounted (start : Cache MemoryStore) (turns : List (Turn ρ)) (now : Instant) (ty : Ty)
    (key : String) (a : Except Failure (Option Value)) : Prop where
  /-- The lifetime of the write lasts. -/
  | written {before after : List (Turn ρ)} {t : Turn ρ} {ty₀ : Ty} {v : Value} {data : Bytes}
      {o : CallOptions} (hturns : turns = before ++ t :: after)
      (hstores : (course start before).Stores t ty₀ key v data o)
      (hlasts : Lasts t.now o.lifetime now)
      (hread : a = (Setup.contentOf ty₀ v data o).read ty ∨ a = (Content.stored data).read ty)
  /-- The lifetime of the write lasted when a look-up copied its bytes, and the lifetime of that
  look-up lasts. -/
  | copied {before between after : List (Turn ρ)} {t t' : Turn ρ} {ty₀ : Ty} {v : Value}
      {data : Bytes} {o o' : CallOptions}
      (hturns : turns = before ++ t :: (between ++ t' :: after))
      (hstores : (course start before).Stores t ty₀ key v data o)
      (hlasts : Lasts t.now o.lifetime t'.now)
      (hcopies : (course start (before ++ t :: between)).Copies t' key data o')
      (hlive : now < t'.now + start.longest o'.lifetime)
      (hread : a = (Content.stored data).read ty)

/-! ## One turn -/

variable {start : Cache MemoryStore} {turns : List (Turn ρ)} {s : Course} {t : Turn ρ}

/-- Where the entries of a cache come from that a turn leads to: they were there before, or the turn
copied or wrote them. -/
structure Course.Explains (s : Course) (t : Turn ρ) (c' : Cache MemoryStore) : Prop
    extends Cache.Alike s.cache c' where
  near : ∀ k e, c'.nearAt k = some e → s.cache.nearAt k = some e ∨
    (∃ o, t.call.Reads k o ∧ s.cache.Copied t.now k o e) ∨
    ∃ ty v data o, s.Writes t ty k v o ∧ s.cache.setup.envelope.encode ty v = .ok data ∧
      e.content = Setup.contentOf ty v data o ∧ e.deadline ≤ t.now + s.cache.longest o.lifetime
  far : ∀ k h, c'.farAt k = some h → s.cache.farAt k = some h ∨
    ∃ ty v o, s.Writes t ty k v o ∧ s.cache.setup.envelope.encode ty v = .ok h.data ∧
      h = Setup.heldOf o t.now h.data

namespace Course.Explains

variable {c' : Cache MemoryStore} {key : String} {ty : Ty} {o : CallOptions}
  {value : Value → Prop} {P : Prop}

/-- A turn that looks a key up and may write under it. -/
lemma of_worked (hreads : t.call.Reads key o)
    (hwrites : P → ∀ v, value v → s.Writes t ty key v o)
    (h : s.cache.Worked t.now key o
      (fun content data => P ∧ s.cache.setup.Offers ty o value content data) c') :
    s.Explains t c' := by
  obtain ⟨c₁, hsearched, hstocked⟩ := h
  refine ⟨hsearched.toAlike.trans hstocked.toAlike, fun k e he => ?_, fun k held hh => ?_⟩
  · rcases hstocked.near k e he with he | ⟨rfl, hdeadline, data, hP, v, hv, hencode, hcontent⟩
    · rcases hsearched.near k e he with he | ⟨rfl, hcopied⟩
      · exact .inl he
      · exact .inr (.inl ⟨o, hreads, hcopied⟩)
    · rw [hsearched.longest_eq] at hdeadline
      exact .inr (.inr ⟨ty, v, data, o, hwrites hP v hv, hencode, hcontent, hdeadline⟩)
  · rcases hstocked.far k held hh with hh | ⟨rfl, hheld, content, hP, v, hv, hencode, -⟩
    · exact .inl (hsearched.far k held hh)
    · exact .inr ⟨ty, v, o, hwrites hP v hv, hencode, hheld⟩

/-- A turn that may write under a key, and looks nothing up. -/
lemma of_stocked (hwrites : ∀ v, value v → s.Writes t ty key v o)
    (h : s.cache.Stocked t.now key o (s.cache.setup.Offers ty o value) c') : s.Explains t c' := by
  refine ⟨h.toAlike, fun k e he => ?_, fun k held hh => ?_⟩
  · rcases h.near k e he with he | ⟨rfl, hdeadline, data, v, hv, hencode, hcontent⟩
    · exact .inl he
    · exact .inr (.inr ⟨ty, v, data, o, hwrites v hv, hencode, hcontent, hdeadline⟩)
  · rcases h.far k held hh with hh | ⟨rfl, hheld, content, v, hv, hencode, -⟩
    · exact .inl hh
    · exact .inr ⟨ty, v, o, hwrites v hv, hencode, hheld⟩

/-- A turn that looks a key up and writes nothing. -/
lemma of_searched (hreads : t.call.Reads key o) (h : s.cache.Searched t.now key o c') :
    s.Explains t c' :=
  ⟨h.toAlike, fun k e he => by
    rcases h.near k e he with he | ⟨rfl, hcopied⟩
    · exact .inl he
    · exact .inr (.inl ⟨o, hreads, hcopied⟩), fun k held hh => .inl (h.far k held hh)⟩

/-- Shared runs do not matter. -/
lemma of_flights (h : s.Explains t c') (flights : Flight.Group Outcome) :
    s.Explains t { c' with flights := flights } :=
  ⟨h.toAlike.trans (.of_same h.sound rfl rfl rfl), h.near, h.far⟩

end Course.Explains

/-- The answer of a program does not matter to what it leads to. -/
lemma run_map {α β : Type} (visit : Visit) (p : Prog α) (f : α → β) (c : Cache MemoryStore) :
    ((p.bind fun a => .done (f a)).run visit c).2 = (p.run visit c).2 := by
  rw [Prog.run_bind]
  cases p.run visit c with
  | mk r c' => cases r <;> rfl

/-- **What a turn leads to is explained**, one case for each kind of call. -/
lemma explains_run (hc : s.cache.Sound) (htier : s.cache.setup.hasTier = true)
    (hwhole : t.call.Whole) :
    s.Explains t ((t.call.program s.cache.setup).run t.visit s.cache).2 := by
  -- a call that asks for an item
  have hasks : ∀ {ty : Ty} {item : Item ρ} {c' : Cache MemoryStore}, t.call.Asks ty item →
      s.cache.Worked t.visit.now item.key item.options (fun content data =>
        s.cache.setup.Misses t.visit ty item s.cache ∧
        s.cache.setup.Offers ty item.options (Setup.Produces item t.visit.loaded) content data)
        c' → s.Explains t c' :=
    fun hcall h => .of_worked hcall.reads (fun hmiss v hv => .compute hcall hmiss hv) h
  cases hcall : t.call with
  | set ty key v o =>
    rw [hcall] at hwhole
    rw [Call.program, run_map]
    have hset : (s.cache.setup.set ty key v o).Stocks t.visit s.cache.setup key o
        (s.cache.setup.Offers ty o fun v' => v' = v) := Setup.set_stocks hwhole rfl
    refine .of_stocked (fun v' hv' => ?_) (hset s.cache hc rfl).1
    subst hv'
    exact .set hcall
  | get ty key o =>
    rw [hcall] at hwhole
    rw [Call.program, run_map]
    have hreads : t.call.Reads key o := hcall ▸ .get
    exact .of_searched hreads (Setup.lookup_finds t.visit ty key htier hwhole hc rfl).1
  | has key o =>
    rw [hcall] at hwhole
    rw [Call.program, run_map]
    have hreads : t.call.Reads key o := hcall ▸ .has
    have hhas : (s.cache.setup.has key o).Searches t.visit s.cache.setup key o fun _ => True :=
      Setup.has_searches hwhole
    exact .of_searched hreads (hhas s.cache hc rfl).1
  | delete key =>
    rw [Call.program, run_map]
    have hdelete : (s.cache.setup.delete key).Stocks t.visit s.cache.setup key {}
        (s.cache.setup.Offers (.scalar .unit) {} fun _ => False) := Setup.delete_stocks
    exact .of_stocked (fun _ hv => hv.elim) (hdelete s.cache hc rfl).1
  | take ty item =>
    rw [hcall] at hwhole
    rw [Call.program, run_map]
    exact hasks (hcall ▸ .take) (Setup.take_worked htier hwhole hc rfl)
  | once ty item =>
    rw [hcall] at hwhole
    rw [Call.program, run_map]
    exact hasks (hcall ▸ .once) (Setup.once_worked htier hwhole hc rfl)
  | load ty item =>
    rw [hcall] at hwhole
    rw [Call.program, run_map]
    unfold Setup.load
    split
    · exact hasks (hcall ▸ .load) (Setup.once_worked htier hwhole hc rfl)
    · exact hasks (hcall ▸ .load) (Setup.take_worked htier hwhole hc rfl)

/-- What a turn leads to is explained. -/
lemma explains_step (hc : s.cache.Sound) (htier : s.cache.setup.hasTier = true)
    (hwhole : t.call.Whole) : s.Explains t (s.step t).cache := by
  have h := explains_run hc htier hwhole
  unfold Course.step Prog.visit
  cases hrun : (t.call.program s.cache.setup).run t.visit s.cache with
  | mk r c' =>
    rw [hrun] at h
    cases r with
    | finished a => exact h
    | blocked rest => exact h
    | crashed => exact h.of_flights _

/-! ## Every turn -/

/-- The entry of the far tier is that of a write. -/
def FarOrigin (start : Cache MemoryStore) (turns : List (Turn ρ)) (key : String) (h : Held) :
    Prop :=
  ∃ before t after ty v o, turns = before ++ t :: after ∧
    (course start before).Stores t ty key v h.data o ∧ h = Setup.heldOf o t.now h.data

/-- The entry of the near tier is that of a write, or the copy of one. -/
inductive NearOrigin (start : Cache MemoryStore) (turns : List (Turn ρ)) (key : String)
    (e : Entry) : Prop where
  | written {before after : List (Turn ρ)} {t : Turn ρ} {ty : Ty} {v : Value} {data : Bytes}
      {o : CallOptions} (hturns : turns = before ++ t :: after)
      (hstores : (course start before).Stores t ty key v data o)
      (hcontent : e.content = Setup.contentOf ty v data o)
      (hdeadline : e.deadline ≤ t.now + start.longest o.lifetime)
  | copied {before between after : List (Turn ρ)} {t t' : Turn ρ} {ty : Ty} {v : Value}
      {data : Bytes} {o o' : CallOptions}
      (hturns : turns = before ++ t :: (between ++ t' :: after))
      (hstores : (course start before).Stores t ty key v data o)
      (hlasts : Lasts t.now o.lifetime t'.now)
      (hcopies : (course start (before ++ t :: between)).Copies t' key data o')
      (hcontent : e.content = .stored data)
      (hdeadline : e.deadline ≤ t'.now + start.longest o'.lifetime)

/-- What holds between two turns: every entry, expired or not, has an origin. -/
structure Traced (start : Cache MemoryStore) (turns : List (Turn ρ)) : Prop
    extends Cache.Alike start (course start turns).cache where
  near : ∀ k e, (course start turns).cache.nearAt k = some e → NearOrigin start turns k e
  far : ∀ k h, (course start turns).cache.farAt k = some h → FarOrigin start turns k h

/-- Origins stay when turns follow. -/
lemma FarOrigin.snoc {key : String} {h : Held} (horigin : FarOrigin start turns key h)
    (t : Turn ρ) : FarOrigin start (turns ++ [t]) key h := by
  obtain ⟨before, t₀, after, ty, v, o, rfl, hstores, hheld⟩ := horigin
  exact ⟨before, t₀, after ++ [t], ty, v, o, by simp, hstores, hheld⟩

/-- Origins stay when turns follow. -/
lemma NearOrigin.snoc {key : String} {e : Entry} (horigin : NearOrigin start turns key e)
    (t : Turn ρ) : NearOrigin start (turns ++ [t]) key e := by
  cases horigin with
  | @written before after t₀ ty v data o hturns hstores hcontent hdeadline =>
    have hturns' : turns ++ [t] = before ++ t₀ :: (after ++ [t]) := by simp [hturns]
    exact .written hturns' hstores hcontent hdeadline
  | @copied before between after t₀ t' ty v data o o' hturns hstores hlasts hcopies hcontent
      hdeadline =>
    have hturns' : turns ++ [t] = before ++ t₀ :: (between ++ t' :: (after ++ [t])) := by
      simp [hturns]
    exact .copied hturns' hstores hlasts hcopies hcontent hdeadline

/-- The lifetime of a write lasts while its entry in the far tier is not expired. -/
lemma lasts_of_held {o : CallOptions} {since now : Instant} {data : Bytes}
    (h : (Setup.heldOf o since data).isExpired now = false) : Lasts since o.lifetime now := by
  unfold Lasts
  by_cases hzero : o.lifetime = 0
  · exact .inl hzero
  · right
    simpa [Setup.heldOf, Held.isExpired, hzero] using h

/-- An empty cache has no entries. -/
lemma traced_nil (h : Empty start) : Traced start ([] : List (Turn ρ)) where
  sound := (settled_nil h (ρ := ρ)).sound
  setup := rfl
  ttl := rfl
  near k e he := by cases (nearAt_of_empty h k).symm.trans he
  far k held hh := by
    have hh : start.farAt k = some held := hh
    cases hfar : start.far with
    | none => cases (Cache.farAt_of_none hfar k).symm.trans hh
    | some store =>
      obtain rfl := h.far store hfar
      rw [Cache.farAt_of_some hfar] at hh
      simp at hh

/-- **Entries have an origin after one more turn.** An entry that the turn makes is that of its
write, or it copies an entry of the far tier, which has an origin of its own. -/
lemma Traced.snoc (h : Traced start turns) (htier : start.setup.hasTier = true)
    (hwhole : t.call.Whole) : Traced start (turns ++ [t]) := by
  have hexplains := explains_step h.sound (h.setup ▸ htier) hwhole
  have hlongest := fun life => h.longest_eq life
  rw [← course_snoc] at hexplains
  refine ⟨h.toAlike.trans hexplains.toAlike, fun k e he => ?_, fun k held hh => ?_⟩
  · rcases hexplains.near k e he with hold | ⟨o', hreads, hcopied⟩ |
      ⟨ty, v, data, o, hwrites, hencode, hcontent, hdeadline⟩
    · exact (h.near k e hold).snoc t
    · obtain ⟨held, hserved, hcontent⟩ := hcopied.original
      obtain ⟨hh, hlive⟩ := Cache.farLive_eq_some.mp hserved
      obtain ⟨before, t₀, between, ty, v, o, rfl, hstores, hheld⟩ := h.far k held hh
      have hlasts : Lasts t₀.now o.lifetime t.now := lasts_of_held (hheld ▸ hlive)
      have hdeadline : e.deadline ≤ t.now + start.longest o'.lifetime :=
        hlongest _ ▸ hcopied.deadline
      rw [course_snoc] at he
      have hsplit : (before ++ t₀ :: between) ++ [t] = before ++ t₀ :: (between ++ t :: []) := by
        simp
      exact .copied hsplit hstores hlasts ⟨hreads, ⟨e, he, hcopied, hcontent⟩⟩
        hcontent hdeadline
    · rw [course_snoc] at he
      exact .written rfl ⟨hwrites, hencode, .inl ⟨e, he, hcontent, hdeadline⟩⟩ hcontent
        (hlongest _ ▸ hdeadline)
  · rcases hexplains.far k held hh with hold | ⟨ty, v, o, hwrites, hencode, hheld⟩
    · exact (h.far k held hold).snoc t
    · rw [course_snoc, hheld] at hh
      exact ⟨turns, t, [], ty, v, o, rfl, ⟨hwrites, hencode, .inr hh⟩, hheld⟩

/-- Entries have an origin after every sequence of turns. -/
lemma traced (hempty : Empty start) (hwhole : ∀ t ∈ turns, t.call.Whole) :
    Traced start turns := by
  induction turns using List.reverseRecOn with
  | nil => exact traced_nil hempty
  | append_singleton turns t ih =>
    have hbefore : ∀ t' ∈ turns, t'.call.Whole :=
      fun t' ht' => hwhole t' (List.mem_append_left _ ht')
    exact (ih hbefore).snoc hempty.tier (hwhole t (by simp))

/-! ## Reads -/

/-- The answer of a read after certain turns. -/
lemma read_finds (hempty : Empty start) (h : Traced start turns) {visit : Visit} {ty : Ty}
    {key : String} {o : CallOptions} (hskip : o.skip = .none)
    {a : Except Failure (Option Value)}
    (hread : (course start turns).read visit ty key o = .finished a) :
    Setup.Finds ty (course start turns).cache visit.now key a := by
  have htier : (course start turns).cache.setup.hasTier = true := h.setup ▸ hempty.tier
  refine (Setup.lookup_finds visit ty key htier hskip h.sound rfl).2 a ?_
  unfold Course.read Prog.visit at hread
  unfold Setup.get at hread
  split at hread
  · cases hread
  · exact hread

/-- **The answers of all reads are accounted for.** After every sequence of calls that skip no tier,
a read finds nothing, or it gives what was written under its key by a turn whose lifetime lasts
still, or lasted when a later turn copied it into the near tier, in which case the lifetime that
this later turn named lasts still.

**Proof sketch.** Every entry that the tiers hold, expired or not, has an origin: the turn that
wrote it or, in the near tier, the turn that copied it, which found it unexpired in the far tier. A
read gives what a live entry holds. -/
theorem get_accounted (start : Cache MemoryStore) (turns : List (Turn ρ)) (hempty : Empty start)
    (hwhole : ∀ t ∈ turns, t.call.Whole) (visit : Visit) (ty : Ty) (key : String)
    (o : CallOptions) (hskip : o.skip = .none) (a : Except Failure (Option Value))
    (hread : (course start turns).read visit ty key o = .finished a) :
    a = .error .missing ∨ Accounted start turns visit.now ty key a := by
  have h := traced hempty hwhole
  rcases read_finds hempty h hskip hread with rfl | ⟨e, he, rfl⟩ | ⟨held, hh, rfl⟩
  · exact .inl rfl
  · right
    obtain ⟨he, hlive⟩ := Cache.nearLive_eq_some.mp he
    have hnow : visit.now < e.deadline := by simpa [Entry.isLive] using hlive
    cases h.near key e he with
    | @written before after t ty₀ v data o₀ hturns hstores hcontent hdeadline =>
      refine .written hturns hstores ?_ (.inl (congrArg (Content.read ty) hcontent))
      by_cases hzero : o₀.lifetime = 0
      · exact .inl hzero
      · rw [Cache.longest, if_neg hzero] at hdeadline
        exact .inr (Nat.lt_of_lt_of_le hnow hdeadline)
    | copied hturns hstores hlasts hcopies hcontent hdeadline =>
      exact .copied hturns hstores hlasts hcopies (Nat.lt_of_lt_of_le hnow hdeadline)
        (congrArg (Content.read ty) hcontent)
  · right
    obtain ⟨hh, hlive⟩ := Cache.farLive_eq_some.mp hh
    obtain ⟨before, t, after, ty₀, v, o₀, hturns, hstores, hheld⟩ := h.far key held hh
    exact .written hturns hstores (lasts_of_held (hheld ▸ hlive)) (.inr rfl)

/-! ## A look-up that prolongs -/

/-- The cache after a turn whose program ends. -/
lemma cache_step {α : Type} {p : Prog α} {a : α} {c' : Cache MemoryStore}
    (hprogram : t.call.program s.cache.setup = p.bind fun _ => .done ())
    (hrun : p.run t.visit s.cache = (.finished a, c')) : (s.step t).cache = c' := by
  unfold Course.step Prog.visit
  rw [hprogram, Prog.run_bind, hrun]
  rfl

section TwoTiers

variable {ty : Ty} {key : String} {v : Value} {o : CallOptions} {data : Bytes}

/-- The cache after a write. -/
lemma step_set (hcall : t.call = .set ty key v o) (hskip : o.skip = .none) (hc : s.cache.Sound)
    (hnear : s.cache.setup.near = true) (hfar : s.cache.setup.far = true)
    (hafford : s.cache.Affords t.now o.lifetime)
    (hrep : MemoryStore.Representable t.now o.lifetime)
    (hencode : s.cache.setup.envelope.encode ty v = .ok data) :
    s.cache.Alike (s.step t).cache ∧ (s.step t).cache.farAt key =
        (if MemoryStore.allows o.condition (s.cache.farLive t.now key).isSome
          then some (Setup.heldOf o t.now data) else s.cache.farLive t.now key) ∧
      (MemoryStore.allows o.condition (s.cache.farLive t.now key).isSome = false →
        (s.step t).cache.nearAt key = none) := by
  obtain ⟨c', hrun, hsettled⟩ :=
    Setup.set_settles t.visit key hskip hc rfl hnear hfar hafford hrep hencode
  rw [cache_step (by rw [hcall]; rfl) hrun]
  exact hsettled

/-- The cache after a look-up of a key that only the far tier serves. -/
lemma step_get {h : Held} (hcall : t.call = .get ty key o) (hskip : o.skip = .none)
    (hc : s.cache.Sound) (hnear : s.cache.setup.near = true)
    (hnone : s.cache.nearLive t.now key = none) (hheld : s.cache.farLive t.now key = some h)
    (hafford : s.cache.Affords t.now o.lifetime) :
    s.cache.Alike (s.step t).cache ∧ ∃ e, (s.step t).cache.nearAt key = some e ∧
      e.content = .stored h.data ∧
      t.now + (s.cache.longest o.lifetime - s.cache.longest o.lifetime / 10) ≤ e.deadline := by
  obtain ⟨c', e, hrun, hsearched, hentry⟩ :=
    Setup.lookup_prolongs t.visit ty hskip hc rfl hnear hnone hheld hafford
  rw [cache_step (by rw [hcall]; rfl) hrun]
  exact ⟨hsearched.toAlike, e, hentry⟩

/-- A read of a key that the near tier serves. -/
lemma read_near {visit : Visit} {e : Entry} (hskip : o.skip = .none) (hc : s.cache.Sound)
    (htier : s.cache.setup.hasTier = true) (he : s.cache.nearLive visit.now key = some e) :
    s.read visit ty key o = .finished (e.content.read ty) := by
  obtain ⟨c', hrun, -⟩ := Setup.lookup_near (o := o) ty htier hskip hc rfl he
  unfold Course.read Prog.visit Setup.get
  rw [hrun]

end TwoTiers

/-- A value that is written to last for a second. -/
def briefWrite : Turn Unit where
  call := .set .buffer "k" (.buffer [7]) { ttl := Span.seconds 1 }
  now := 0
  caller := 0
  loaded := .ok (.buffer [])

/-- A write that the far tier refuses, so that the near tier drops the key. -/
def refusedWrite : Turn Unit where
  call := .set .buffer "k" (.buffer [8]) { ttl := Span.seconds 1, condition := .ifAbsent }
  now := 0
  caller := 0
  loaded := .ok (.buffer [])

/-- A look-up. -/
def earlyRead : Turn Unit where
  call := .get .buffer "k" {}
  now := 0
  caller := 0
  loaded := .ok (.buffer [])

/-- A visit when the second is over. -/
def lateVisit : Visit := ⟨Span.milliseconds 1200, 0, none⟩

/-- The clock can represent the deadlines of the near tier. -/
lemma affords_twoTiers {c : Cache MemoryStore} (halike : twoTiers.Alike c) {ttl : Span}
    (httl : ttl ≤ Span.seconds 1) : c.Affords 0 ttl := by
  have hdefault : twoTiers.near.map NearTier.defaultTtl = some NearTier.standardTtl := by
    decide +kernel
  refine (Cache.affords_congr halike.ttl).mpr fun t ht => ?_
  rw [ht] at hdefault
  have hstandard : t.defaultTtl = NearTier.standardTtl := Option.some.inj hdefault
  rw [hstandard]
  split
  · decide
  · exact Nat.lt_of_le_of_lt (Nat.add_le_add_left httl 0) (by decide)

/-- **The value is still read** when its second is over, because it was looked up before. -/
lemma read_prolonged :
    (course twoTiers [briefWrite, refusedWrite, earlyRead]).read lateVisit .buffer "k" {} =
      .finished (.ok (some (.buffer [7]))) := by
  let s₁ : Course := Course.step { cache := twoTiers } briefWrite
  let s₂ : Course := s₁.step refusedWrite
  have hnear : twoTiers.setup.near = true := by decide +kernel
  have hsound : twoTiers.Sound := (traced_nil empty_twoTiers (ρ := Unit)).sound
  have hserved : ∀ c : Cache MemoryStore, c.farAt "k" = some ⟨[7], some (Span.seconds 1)⟩ →
      c.farLive 0 "k" = some ⟨[7], some (Span.seconds 1)⟩ :=
    fun c hc => Cache.farLive_eq_some.mpr ⟨hc, by decide⟩
  -- the far tier holds the value for a second
  obtain ⟨halike₁, hfar₁, -⟩ := step_set (s := { cache := twoTiers }) (t := briefWrite) rfl rfl
    hsound hnear rfl (affords_twoTiers (.of_same hsound rfl rfl rfl) (by decide))
    (fun _ => by decide) rfl
  have hserved₁ : s₁.cache.farLive 0 "k" = some ⟨[7], some (Span.seconds 1)⟩ :=
    hserved s₁.cache hfar₁
  -- it refuses another value, and the near tier drops the key
  have hsetup₁ : s₁.cache.setup = twoTiers.setup := halike₁.setup
  obtain ⟨halike₂, hfar₂, hdropped⟩ := step_set (s := s₁) (t := refusedWrite) rfl rfl
    halike₁.sound (by rw [hsetup₁, hnear]) (by rw [hsetup₁]; rfl)
    (affords_twoTiers halike₁ (by decide)) (fun _ => by decide) (by rw [hsetup₁]; rfl)
  have hrefused : MemoryStore.allows .ifAbsent (s₁.cache.farLive 0 "k").isSome = false := by
    rw [hserved₁]
    rfl
  have hnone : s₂.cache.nearLive 0 "k" = none := by
    rw [Cache.nearLive, hdropped hrefused]
    rfl
  have hserved₂ : s₂.cache.farLive 0 "k" = some ⟨[7], some (Span.seconds 1)⟩ :=
    hserved s₂.cache (hfar₂.trans ((if_neg (Bool.eq_false_iff.mp hrefused)).trans hserved₁))
  -- the look-up copies it for a minute
  have hall₂ : twoTiers.Alike s₂.cache := Cache.Alike.trans halike₁ halike₂
  obtain ⟨halike₃, e, he, hcontent, hdeadline⟩ := step_get (s := s₂) (t := earlyRead) rfl rfl
    halike₂.sound (by rw [hall₂.setup, hnear]) hnone hserved₂
    (affords_twoTiers hall₂ (by decide))
  rw [hall₂.longest_eq] at hdeadline
  have hlong : lateVisit.now < e.deadline :=
    Nat.lt_of_lt_of_le (by decide +kernel) hdeadline
  have hlive : (s₂.step earlyRead).cache.nearLive lateVisit.now "k" = some e :=
    Cache.nearLive_eq_some.mpr ⟨he, by simpa [Entry.isLive] using hlong⟩
  have hread : (s₂.step earlyRead).read lateVisit .buffer "k" {} =
      .finished (e.content.read .buffer) :=
    read_near rfl halike₃.sound (by rw [(hall₂.trans halike₃).setup, Setup.hasTier, hnear]; rfl)
      hlive
  rw [hcontent] at hread
  exact hread

/-- The answer of a late read is accounted for. -/
theorem get_accounted_prolonged :
    Empty twoTiers ∧ (∀ t ∈ [briefWrite, refusedWrite, earlyRead], t.call.Whole) ∧
      Accounted twoTiers [briefWrite, refusedWrite, earlyRead] lateVisit.now .buffer "k"
        (.ok (some (.buffer [7]))) := by
  have hwhole : ∀ t ∈ [briefWrite, refusedWrite, earlyRead], t.call.Whole := by
    simp [briefWrite, refusedWrite, earlyRead, Call.Whole]
  have hanswer := get_accounted twoTiers _ empty_twoTiers hwhole lateVisit .buffer "k" {} rfl
    (.ok (some (.buffer [7]))) read_prolonged
  exact ⟨empty_twoTiers, hwhole, hanswer.resolve_left (by simp)⟩

/-- **A look-up can keep a value readable** after the lifetime of every write of its key has
ended. -/
theorem get_outlives_writes :
    Empty twoTiers ∧ twoTiers.setup.near = true ∧ twoTiers.setup.far = true ∧
      (∀ t ∈ [briefWrite, refusedWrite, earlyRead], t.call.Whole ∧ t.now ≤ lateVisit.now) ∧
      (course twoTiers [briefWrite, refusedWrite, earlyRead]).read lateVisit .buffer "k" {} =
        .finished (.ok (some (.buffer [7]))) ∧
      ∀ before t after ty v o, [briefWrite, refusedWrite, earlyRead] = before ++ t :: after →
        (course twoTiers before).Writes t ty "k" v o → ¬ Lasts t.now o.lifetime lateVisit.now := by
  have hwhole : ∀ t ∈ [briefWrite, refusedWrite, earlyRead],
      t.call.Whole ∧ t.now ≤ lateVisit.now := by
    simp [briefWrite, refusedWrite, earlyRead, Call.Whole]
  refine ⟨empty_twoTiers, by decide +kernel, rfl, hwhole, read_prolonged,
    fun before t after ty v o hturns hwrites => ?_⟩
  have hmem : t ∈ [briefWrite, refusedWrite, earlyRead] := by
    rw [hturns]
    simp
  have hover : ¬ Lasts 0 (Span.seconds 1) lateVisit.now := by decide
  generalize "k" = key at hwrites
  simp only [List.mem_cons, List.not_mem_nil, or_false] at hmem
  rcases hmem with rfl | rfl | rfl
  · cases hwrites with
    | set hcall =>
      cases hcall
      exact hover
    | compute hcall => cases hcall
  · cases hwrites with
    | set hcall =>
      cases hcall
      exact hover
    | compute hcall => cases hcall
  · cases hwrites with
    | set hcall => cases hcall
    | compute hcall => cases hcall

end Serial

end LayeredCache
