import LayeredCache.Proofs.Cache.Tiers
import LayeredCache.Proofs.Flight.Passing

/-!
# Programs that avoid a key

A program that never names a key may be run between the operations on that key: it can push the
entry of the key out of the near tier, and sweep it out of the far tier when it has expired, but it
neither adds nor replaces anything under the key, and it leaves the shared runs of the key alone.

## Main definitions

* `Prog.Avoids` — a program names a key in no request.
* `Deed.Writes`, `Deed.Deletes`, `Deed.Removes` — what is done to a key.
* `Cache.Spared` — a cache after a program that avoids a key.
* `Cache.Clear` — a caller may go on with such a program.

## Main results

* `Prog.Avoids.sparing` — programs that avoid a key spare it.
-/

set_option autoImplicit false

namespace LayeredCache

open Far Flight

/-- A request to the far tier names a key. -/
def Far.Request.Names (key : String) : Far.Request → Prop
  | .write _ k _ _ => k = key
  | .get k => k = key
  | .delete keys => key ∈ keys
  | .ping => False

/-- A program names a key in no request, whatever it is answered. -/
def Prog.Avoids {α : Type} (key : String) : Prog α → Prop
  | .done _ => True
  | .find k next => k ≠ key ∧ ∀ found, (next found).Avoids key
  | .holds k next => k ≠ key ∧ ∀ b, (next b).Avoids key
  | .put k _ _ next => k ≠ key ∧ next.Avoids key
  | .drop k next => k ≠ key ∧ next.Avoids key
  | .call request next => ¬ request.Names key ∧ ∀ answer, (next answer).Avoids key
  | .tally _ next => next.Avoids key
  | .count _ next => next.Avoids key
  | .startLoad next => next.Avoids key
  | .awaitLoad next => ∀ answer, (next answer).Avoids key
  | .join k next => k ≠ key ∧ ∀ outcome, (next outcome).Avoids key
  | .land _ next => next.Avoids key

/-- A key is written in the far tier. -/
def Deed.Writes (key : String) : Deed → Prop
  | .ask (.write _ k _ _) _ => k = key
  | _ => False

/-- A key is deleted from the far tier. -/
def Deed.Deletes (key : String) : Deed → Prop
  | .ask (.delete keys) _ => key ∈ keys
  | _ => False

/-- A key is removed from a tier. -/
def Deed.Removes (key : String) : Deed → Prop
  | .drop k => k = key
  | d => d.Deletes key

/-- A deed leaves a key alone. -/
def Deed.Leaves (key : String) (d : Deed) : Prop := ¬ d.Writes key ∧ ¬ d.Removes key

/-- A cache after a caller has run a program that avoids a key. -/
structure Cache.Spared (key : String) (i : Caller) (c c' : Cache MemoryStore) : Prop where
  sound : c'.Sound
  setup : c'.setup = c.setup
  ttl : c'.near.map NearTier.defaultTtl = c.near.map NearTier.defaultTtl
  near : ∀ e, c'.nearAt key = some e → c.nearAt key = some e
  far : ∀ h, c'.farAt key = some h → c.farAt key = some h
  lasting : ∀ h, c.farAt key = some h → h.deadline = none → c'.farAt key = some h
  flights : Flight.Group.Spares key i c.flights c'.flights
  /-- It may have started its own loader. -/
  started : ∃ n, c'.started = c.started ++ List.replicate n i

namespace Cache.Spared

variable {key : String} {i : Caller} {c c' c'' : Cache MemoryStore}

/-- Doing nothing spares a key. -/
lemma refl (h : c.Sound) (hf : c.flights.Orderly) : Spared key i c c :=
  ⟨h, rfl, rfl, fun _ he => he, fun _ hh => hh, fun _ hh _ => hh, .refl hf,
    0, by simp⟩

/-- Two programs that spare a key. -/
lemma trans (h : Spared key i c c') (h' : Spared key i c' c'') : Spared key i c c'' where
  sound := h'.sound
  setup := h'.setup.trans h.setup
  ttl := h'.ttl.trans h.ttl
  near e he := h.near e (h'.near e he)
  far e he := h.far e (h'.far e he)
  lasting e he hd := h'.lasting e (h.lasting e he hd) hd
  flights := h.flights.trans h'.flights
  started := by
    obtain ⟨n, hn⟩ := h.started
    obtain ⟨n', hn'⟩ := h'.started
    exact ⟨n + n', by rw [hn', hn, List.append_assoc, List.replicate_add]⟩

/-- A change that the tiers and the shared runs do not see. -/
lemma of_same (h : c.Sound) (hf : c.flights.Orderly) (hnear : c'.near = c.near)
    (hfar : c'.far = c.far) (hsetup : c'.setup = c.setup) (hflights : c'.flights = c.flights)
    (hstarted : ∃ n, c'.started = c.started ++ List.replicate n i) : Spared key i c c' where
  sound t ht := h t (hnear ▸ ht)
  setup := hsetup
  ttl := by rw [hnear]
  near e he := (nearAt_congr hnear key).symm.trans he
  far e he := (farAt_congr hfar key).symm.trans he
  lasting e he _ := (farAt_congr hfar key).trans he
  flights := by
    rw [hflights]
    exact .refl hf
  started := hstarted

/-- A change of the near tier that shows no new entry under the key. -/
lemma of_near {t t' : NearTier} (hf : c.flights.Orderly) (hnear : c.near = some t) (ht' : t'.Sound)
    (httl : t'.defaultTtl = t.defaultTtl)
    (hkey : ∀ e, t'.entries.peek key = some e → t.entries.peek key = some e) :
    Spared key i c { c with near := some t' } where
  sound u hu := by
    obtain rfl := Option.some.inj hu
    exact ht'
  setup := by simp only [Cache.setup, hnear, Option.isSome_some]
  ttl := by simp only [hnear, Option.map_some, httl]
  near e he := (nearAt_of_some hnear key).trans (hkey e he)
  far _ hh := hh
  lasting _ hh _ := hh
  flights := .refl hf
  started := ⟨0, by simp⟩

/-- A change of the far tier that adds no entry under the key and keeps one that never expires. -/
lemma of_far {store store' : MemoryStore} (h : c.Sound) (hf : c.flights.Orderly)
    (hfar : c.far = some store)
    (hkey : ∀ held, store'.entries[key]? = some held → store.entries[key]? = some held)
    (hlast : ∀ held, store.entries[key]? = some held → held.deadline = none →
      store'.entries[key]? = some held) :
    Spared key i c { c with far := some store' } where
  sound := h
  setup := by simp only [Cache.setup, hfar, Option.isSome_some]
  ttl := rfl
  near _ he := he
  far held hh := (farAt_of_some hfar key).trans (hkey held hh)
  lasting held hh hd := hlast held ((farAt_of_some hfar key).symm.trans hh) hd
  flights := .refl hf
  started := ⟨0, by simp⟩

/-- A change of the shared runs that spares the key. -/
lemma of_flights {g : Flight.Group Outcome} (h : c.Sound)
    (hg : Flight.Group.Spares key i c.flights g) :
    Spared key i c { c with flights := g } where
  sound := h
  setup := rfl
  ttl := rfl
  near _ he := he
  far _ hh := hh
  lasting _ hh _ := hh
  flights := hg
  started := ⟨0, by simp⟩

end Cache.Spared

/-! ## Programs -/

/-- A deed of a program that avoids a key leaves it alone. -/
lemma Far.Request.leaves_of_not_names {key : String} {request : Far.Request}
    (h : ¬ request.Names key) (answer : Except Failure request.Reply) :
    (Deed.ask request answer).Leaves key := by
  cases request <;> exact ⟨by first | exact h | exact id, by first | exact h | exact id⟩

/-- A store that answers a request without the name of a key keeps what is under the key, unless
it has expired. -/
lemma Far.MemoryStore.answer_avoids {key : String} (store : MemoryStore) (now : Instant)
    {request : Far.Request} (h : ¬ request.Names key) :
    (∀ held, (FarStore.answer store now request).2.entries[key]? = some held →
      store.entries[key]? = some held) ∧
    ∀ held, store.entries[key]? = some held → held.deadline = none →
      (FarStore.answer store now request).2.entries[key]? = some held := by
  cases request with
  | write condition k data ttl =>
    have hentries : (FarStore.answer store now (.write condition k data ttl)).2.entries[key]? =
        store.liveAt now key :=
      (MemoryStore.entries_answer_write store now condition k data ttl key).resolve_right
        fun hwritten => h hwritten.2.symm
    rw [hentries]
    exact ⟨fun held hh => MemoryStore.entry_of_liveAt hh,
      fun held hh hd => MemoryStore.liveAt_of_permanent hh hd now⟩
  | get k =>
    have hentries : (FarStore.answer store now (.get k)).2.entries[key]? = store.entries[key]? := by
      have hkey : key ≠ k := fun heq => h heq.symm
      rw [MemoryStore.answer_get_snd, store.entries_get, if_neg hkey]
    rw [hentries]
    exact ⟨fun held hh => hh, fun held hh _ => hh⟩
  | delete keys =>
    have hentries : (FarStore.answer store now (.delete keys)).2.entries[key]? =
        store.entries[key]? := (store.entries_delete keys key).trans (if_neg h)
    rw [hentries]
    exact ⟨fun held hh => hh, fun held hh _ => hh⟩
  | ping => exact ⟨fun held hh => hh, fun held hh _ => hh⟩

/-- A caller is in no call, or runs. -/
def Flight.Group.Settled {τ : Type} (g : Flight.Group τ) (i : Caller) : Prop :=
  g.seat? i = none ∨ g.Runs i

/-- Before a caller goes on with a program, it is in no call, or runs, or is about to join. -/
def Prog.Poised {α : Type} (p : Prog α) (i : Caller) (g : Flight.Group Outcome) : Prop :=
  g.Settled i ∨ ∃ k next, p = .join k next

/-- A caller that is not about to join is in no call, or runs. -/
lemma Prog.Poised.settled {α : Type} {p : Prog α} {i : Caller} {g : Flight.Group Outcome}
    (h : p.Poised i g) (hnot : ∀ k next, p ≠ .join k next) : g.Settled i := by
  rcases h with h | ⟨k, next, h⟩
  · exact h
  · exact absurd h (hnot k next)

/-- A caller that has left is in no call. -/
lemma Flight.Group.settled_leave {τ : Type} {g : Flight.Group τ} (h : g.Orderly) (i : Caller) :
    (g.leave i).Settled i := by
  cases hs : (g.leave i).seat? i with
  | none => exact .inl hs
  | some p =>
    obtain ⟨c, hc⟩ := seated_of_seat hs
    exact absurd rfl (h.sits_leave.mp ⟨c, hc, rfl, rfl⟩).1

/-- A caller that has landed is in no call. -/
lemma Flight.Group.settled_land {τ : Type} {g : Flight.Group τ} (h : g.Orderly) {i : Caller}
    (hi : g.Settled i) (v : τ) : (g.land i v).Settled i := by
  rcases hi with hnone | hruns
  · rw [Orderly.land_of_outside hnone]
    exact .inl hnone
  · obtain ⟨p, key, hi⟩ := Orderly.sits_of_runs hruns
    cases hs : (g.land i v).seat? i with
    | none => exact .inl hs
    | some p =>
      obtain ⟨c, hc⟩ := seated_of_seat hs
      exact absurd rfl ((h.sits_land hi v).mp ⟨c, hc, rfl, rfl⟩).1

/-- A caller may go on with a program that avoids a key: it is in no call of the key, and in no call
at all or runs. -/
structure Cache.Clear (key : String) (i : Caller) (c : Cache MemoryStore) : Prop where
  sound : c.Sound
  orderly : c.flights.Orderly
  own : ∀ q k o, c.flights.Sits i q k o → k ≠ key
  settled : c.flights.Settled i

/-- It may still go on when only the tiers have changed. -/
lemma Cache.Clear.of_flights {key : String} {i : Caller} {c c' : Cache MemoryStore}
    (h : c.Clear key i) (hsound : c'.Sound) (hflights : c'.flights = c.flights) :
    c'.Clear key i where
  sound := hsound
  orderly := hflights ▸ h.orderly
  own := hflights ▸ h.own
  settled := hflights ▸ h.settled

/-- What running a program that avoids a key comes to. -/
structure Prog.Sparing {α : Type} (key : String) (visit : Visit) (p : Prog α)
    (c : Cache MemoryStore) : Prop where
  spared : c.Spared key visit.caller (p.run visit c).2
  deeds : ∀ d ∈ p.deeds visit c, d.Leaves key
  rest : ∀ rest, (p.run visit c).1 = .blocked rest →
    rest.Avoids key ∧ rest.Poised visit.caller (p.run visit c).2.flights

namespace Prog

variable {α : Type} {key : String} {visit : Visit} {c c₁ : Cache MemoryStore}

/-- A program that goes on sparing a key after a step that spared it. -/
lemma Sparing.step {p next : Prog α} (ds : List Deed) (h : c.Spared key visit.caller c₁)
    (hnext : next.Sparing key visit c₁) (hrun : p.run visit c = next.run visit c₁)
    (hdeeds : p.deeds visit c = ds ++ next.deeds visit c₁) (hds : ∀ d ∈ ds, d.Leaves key) :
    p.Sparing key visit c where
  spared := hrun ▸ h.trans hnext.spared
  deeds d hd := by
    rw [hdeeds, List.mem_append] at hd
    exact hd.elim (hds d) (hnext.deeds d)
  rest rest hrest := by
    rw [hrun] at hrest ⊢
    exact hnext.rest rest hrest

/-- A program that stops without having changed a tier. -/
lemma Sparing.stop {p : Prog α} {r : Progress α} (h : c.Spared key visit.caller c₁)
    (hrun : p.run visit c = (r, c₁)) (hdeeds : p.deeds visit c = [])
    (hrest : ∀ rest, r = .blocked rest →
      rest.Avoids key ∧ rest.Poised visit.caller c₁.flights) : p.Sparing key visit c where
  spared := hrun ▸ h
  deeds d hd := by
    rw [hdeeds] at hd
    cases hd
  rest rest hblocked := by
    rw [hrun] at hblocked ⊢
    exact hrest rest hblocked

/-! ### One request -/

/-- A look-up in the near tier. -/
lemma Sparing.find {k : String} {next : Option Content → Prog α} (h : c.Clear key visit.caller)
    (hk : k ≠ key)
    (hnext : ∀ found c₁, c₁.Clear key visit.caller → (next found).Sparing key visit c₁) :
    (Prog.find k next).Sparing key visit c := by
  cases hnear : c.near with
  | none =>
    refine .step [] (.refl h.sound h.orderly) (hnext none c h) ?_ ?_ (by simp)
    · simp only [run, hnear]
    · simp only [Prog.deeds, hnear, List.nil_append]
  | some t =>
    obtain ⟨hsound, httl, -, hpeek⟩ := (h.sound t hnear).get visit.now k
    have hspared := Cache.Spared.of_near (i := visit.caller) h.orderly hnear hsound httl
      fun e he => by rwa [hpeek, if_neg (fun hsame => hk hsame.1.symm)] at he
    refine .step [] hspared
      (hnext (t.get visit.now k).1 _ (h.of_flights hspared.sound rfl)) ?_ ?_ (by simp)
    · simp only [run, hnear]
    · simp only [Prog.deeds, hnear, List.nil_append]

/-- A write into the near tier. -/
lemma Sparing.put {k : String} {content : Content} {ttl : Span} {next : Prog α}
    (h : c.Clear key visit.caller) (hk : k ≠ key)
    (hnext : ∀ c₁, c₁.Clear key visit.caller → next.Sparing key visit c₁) :
    (Prog.put k content ttl next).Sparing key visit c := by
  cases hnear : c.near with
  | none =>
    refine .step [] (.refl h.sound h.orderly) (hnext c h) ?_ ?_ (by simp)
    · simp only [run, hnear]
    · simp only [Prog.deeds, hnear, List.nil_append]
  | some t =>
    cases hput : t.put visit.now k content ttl with
    | none =>
      refine .stop (.refl h.sound h.orderly) (r := .crashed) ?_ ?_ (by simp)
      · simp only [run, hnear, hput]
      · simp only [Prog.deeds, hnear, hput]
    | some t' =>
      obtain ⟨hsound, httl, -, hothers⟩ := (h.sound t hnear).put hput
      have hspared := Cache.Spared.of_near (i := visit.caller) h.orderly hnear hsound httl
        (hothers key (Ne.symm hk))
      refine .step [.put k content] hspared (hnext _ (h.of_flights hspared.sound rfl)) ?_ ?_ ?_
      · simp only [run, hnear, hput]
      · simp only [Prog.deeds, hnear, hput, List.singleton_append]
      · simp [Deed.Leaves, Deed.Writes, Deed.Removes, Deed.Deletes]

/-- A removal from the near tier. -/
lemma Sparing.drop {k : String} {next : Prog α} (h : c.Clear key visit.caller) (hk : k ≠ key)
    (hnext : ∀ c₁, c₁.Clear key visit.caller → next.Sparing key visit c₁) :
    (Prog.drop k next).Sparing key visit c := by
  have hspared : c.Spared key visit.caller (c.deleteNear k) := by
    cases hnear : c.near with
    | none =>
      have hsame : c.deleteNear k = c := by
        unfold Cache.deleteNear
        rw [hnear]
        cases c
        cases hnear
        rfl
      rw [hsame]
      exact .refl h.sound h.orderly
    | some t =>
      obtain ⟨hsound, httl, hpeek⟩ := (h.sound t hnear).delete k
      have hdelete : c.deleteNear k = { c with near := some (t.delete k) } := by
        rw [Cache.deleteNear, hnear]
        rfl
      rw [hdelete]
      exact .of_near h.orderly hnear hsound httl fun e he => by
        rwa [hpeek, if_neg (Ne.symm hk)] at he
  exact .step [.drop k] hspared (hnext _ (h.of_flights hspared.sound rfl)) rfl rfl
    (by simp [Deed.Leaves, Deed.Writes, Deed.Removes, hk])

/-- A request to the far tier. -/
lemma Sparing.call {request : Far.Request} {next : Except Failure request.Reply → Prog α}
    (h : c.Clear key visit.caller) (hnames : ¬ request.Names key)
    (hnext : ∀ answer c₁, c₁.Clear key visit.caller → (next answer).Sparing key visit c₁) :
    (Prog.call request next).Sparing key visit c := by
  cases hfar : c.far with
  | none =>
    refine .step [] (.refl h.sound h.orderly) (hnext (.error .missing) c h) ?_ ?_ (by simp)
    · simp only [run, hfar]
    · simp only [Prog.deeds, hfar, List.nil_append]
  | some store =>
    obtain ⟨hkey, hlast⟩ := store.answer_avoids visit.now hnames
    have hspared := Cache.Spared.of_far (i := visit.caller) h.sound h.orderly hfar hkey hlast
    have hclear := h.of_flights hspared.sound rfl
    have hleaves := Far.Request.leaves_of_not_names hnames
    cases hanswer : FarStore.answer store visit.now request with
    | mk answer store' =>
      rw [hanswer] at hspared hclear
      cases answer with
      | reply value =>
        refine .step [.ask request (.ok value)] hspared (hnext (.ok value) _ hclear) ?_ ?_
          (by simpa using hleaves (.ok value))
        · simp only [run, hfar, hanswer]
        · simp only [Prog.deeds, hfar, hanswer, List.singleton_append]
      | failure cause =>
        refine .step [.ask request (.error cause)] hspared (hnext (.error cause) _ hclear) ?_ ?_
          (by simpa using hleaves (.error cause))
        · simp only [run, hfar, hanswer]
        · simp only [Prog.deeds, hfar, hanswer, List.singleton_append]
      | crash =>
        refine .stop hspared (r := .crashed) ?_ ?_ (by simp)
        · simp only [run, hfar, hanswer]
        · simp only [Prog.deeds, hfar, hanswer]

/-- Waiting for the loader. -/
lemma Sparing.awaitLoad {next : Except LoadFailure Value → Prog α}
    (h : c.Clear key visit.caller) (hp : (Prog.awaitLoad next).Avoids key)
    (hnext : ∀ answer, (next answer).Sparing key visit c) :
    (Prog.awaitLoad next).Sparing key visit c := by
  cases hloaded : visit.loaded with
  | none =>
    refine .stop (.refl h.sound h.orderly) (r := .blocked (.awaitLoad next)) ?_ ?_ ?_
    · simp only [run, hloaded]
    · simp only [Prog.deeds, hloaded]
    · intro rest hrest
      obtain rfl := Progress.blocked.inj hrest
      exact ⟨hp, .inl h.settled⟩
  | some answer =>
    refine .step [] (.refl h.sound h.orderly) (hnext answer) ?_ ?_ (by simp)
    · simp only [run, hloaded]
    · simp only [Prog.deeds, hloaded, List.nil_append]

/-- Joining the shared run of another key. -/
lemma Sparing.join {k : String} {next : Option Outcome → Prog α} (hc : c.Sound)
    (hf : c.flights.Orderly) (hown : ∀ q k o, c.flights.Sits visit.caller q k o → k ≠ key)
    (hp : (Prog.join k next).Avoids key)
    (hnext : ∀ outcome c₁, c₁.Clear key visit.caller → (next outcome).Sparing key visit c₁) :
    (Prog.join k next).Sparing key visit c := by
  have hjoin := Flight.Group.Spares.join (i := visit.caller) hf hp.1
  have hblocked : c.Spared key visit.caller
      { c with flights := c.flights.join visit.caller k } := .of_flights hc hjoin
  have hstays : ∀ rest, Progress.blocked (.join k next) = .blocked rest →
      rest.Avoids key ∧ rest.Poised visit.caller (c.flights.join visit.caller k) := by
    intro rest hrest
    obtain rfl := Progress.blocked.inj hrest
    exact ⟨hp, .inr ⟨k, next, rfl⟩⟩
  cases hturn : (c.flights.join visit.caller k).turn visit.caller with
  | collect outcome =>
    have hleave := hjoin.trans (.leave hjoin.orderly (hjoin.own hown))
    refine .step [] (.of_flights hc hleave) (hnext (some outcome) _ ⟨hc, hleave.orderly,
      hleave.own hown, Flight.Group.settled_leave hjoin.orderly visit.caller⟩) ?_ ?_ (by simp)
    · simp only [run, hturn]
    · simp only [Prog.deeds, hturn, List.nil_append]
  | start =>
    obtain ⟨p, d, hd, hhead, -, hout⟩ := hjoin.orderly.head_of_start hturn
    have hstart := hjoin.trans (.start hjoin.orderly hd hhead hout)
    have hruns := (hjoin.orderly.runs_start (w := visit.caller) hd hhead hout).mpr (.inr rfl)
    refine .step [] (.of_flights hc hstart)
      (hnext none _ ⟨hc, hstart.orderly, hstart.own hown, .inr hruns⟩) ?_ ?_ (by simp)
    · simp only [run, hturn]
    · simp only [Prog.deeds, hturn, List.nil_append]
  | outside =>
    refine .stop hblocked (r := .blocked (.join k next)) ?_ ?_ hstays
    · simp only [run, hturn]
    · simp only [Prog.deeds, hturn]
  | wait =>
    refine .stop hblocked (r := .blocked (.join k next)) ?_ ?_ hstays
    · simp only [run, hturn]
    · simp only [Prog.deeds, hturn]
  | running =>
    refine .stop hblocked (r := .blocked (.join k next)) ?_ ?_ hstays
    · simp only [run, hturn]
    · simp only [Prog.deeds, hturn]

/-- Ending a shared run. -/
lemma Sparing.land {outcome : Outcome} {next : Prog α} (h : c.Clear key visit.caller)
    (hnext : ∀ c₁, c₁.Clear key visit.caller → next.Sparing key visit c₁) :
    (Prog.land outcome next).Sparing key visit c := by
  have hland : Flight.Group.Spares key visit.caller c.flights
      (c.flights.land visit.caller outcome) := by
    rcases h.settled with hnone | hruns
    · rw [Flight.Group.Orderly.land_of_outside hnone]
      exact .refl h.orderly
    · exact .land h.orderly h.own hruns outcome
  exact .step [] (.of_flights h.sound hland) (hnext _ ⟨h.sound, hland.orderly, hland.own h.own,
    Flight.Group.settled_land h.orderly h.settled outcome⟩) rfl rfl (by simp)

/-! ### Whole programs -/

/-- **Programs that avoid a key spare it.**

**Proof sketch.** Induction on the program. No request names the key, so a request to a tier adds
nothing under it, and a caller that is in no call of the key enters none. -/
theorem Avoids.sparing {p : Prog α} (hp : p.Avoids key) (hc : c.Sound) (hf : c.flights.Orderly)
    (hown : ∀ q k o, c.flights.Sits visit.caller q k o → k ≠ key)
    (hpoised : p.Poised visit.caller c.flights) : p.Sparing key visit c := by
  induction p generalizing c with
  | done a => exact .stop (.refl hc hf) rfl rfl (by simp)
  | find k next ih =>
    exact .find ⟨hc, hf, hown, hpoised.settled (by simp)⟩ hp.1 fun found c₁ h₁ =>
      ih found (hp.2 found) h₁.sound h₁.orderly h₁.own (.inl h₁.settled)
  | holds k next ih =>
    exact .step [] (.refl hc hf)
      (ih _ (hp.2 _) hc hf hown (.inl (hpoised.settled (by simp)))) rfl rfl (by simp)
  | put k content ttl next ih =>
    exact .put ⟨hc, hf, hown, hpoised.settled (by simp)⟩ hp.1 fun c₁ h₁ =>
      ih hp.2 h₁.sound h₁.orderly h₁.own (.inl h₁.settled)
  | drop k next ih =>
    exact .drop ⟨hc, hf, hown, hpoised.settled (by simp)⟩ hp.1 fun c₁ h₁ =>
      ih hp.2 h₁.sound h₁.orderly h₁.own (.inl h₁.settled)
  | call request next ih =>
    exact .call ⟨hc, hf, hown, hpoised.settled (by simp)⟩ hp.1 fun answer c₁ h₁ =>
      ih answer (hp.2 answer) h₁.sound h₁.orderly h₁.own (.inl h₁.settled)
  | tally found next ih =>
    have hspared : c.Spared key visit.caller (c.recordTally found) := .of_same hc hf rfl rfl rfl rfl
      ⟨0, (List.append_nil _).symm⟩
    exact .step [] hspared (ih hp hc hf hown (.inl (hpoised.settled (by simp)))) rfl rfl (by simp)
  | count event next ih =>
    have hspared : c.Spared key visit.caller (c.recordEvent event) := .of_same hc hf rfl rfl rfl rfl
      ⟨0, (List.append_nil _).symm⟩
    exact .step [] hspared (ih hp hc hf hown (.inl (hpoised.settled (by simp)))) rfl rfl (by simp)
  | startLoad next ih =>
    have hspared : c.Spared key visit.caller { c with started := c.started ++ [visit.caller] } :=
      .of_same hc hf rfl rfl rfl rfl ⟨1, rfl⟩
    exact .step [] hspared (ih hp hc hf hown (.inl (hpoised.settled (by simp)))) rfl rfl (by simp)
  | awaitLoad next ih =>
    have hin := hpoised.settled (by simp)
    exact .awaitLoad ⟨hc, hf, hown, hin⟩ hp
      fun answer => ih answer (hp answer) hc hf hown (.inl hin)
  | join k next ih =>
    exact .join hc hf hown hp fun outcome c₁ h₁ =>
      ih outcome (hp.2 outcome) h₁.sound h₁.orderly h₁.own (.inl h₁.settled)
  | land outcome next ih =>
    exact .land ⟨hc, hf, hown, hpoised.settled (by simp)⟩ fun c₁ h₁ =>
      ih hp h₁.sound h₁.orderly h₁.own (.inl h₁.settled)

end Prog

end LayeredCache
