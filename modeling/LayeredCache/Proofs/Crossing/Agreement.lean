import LayeredCache.Proofs.Cache.Storing
import LayeredCache.Proofs.Crossing.Protocol
import LayeredCache.Proofs.Crossing.Steps
import LayeredCache.Proofs.Serial.FreshReads

/-!
# The tiers agree unless calls cross

Any number of look-ups, unconditional writes and deletions of one key are made at the same time on a
cache with two tiers, and take their steps in any order. When all of them have ended, the near tier
holds nothing under the key, or what the far tier holds, or it was left behind by two calls that
crossed each other.

The far tier is any store that answers the requests of the key as a store should.

## Main definitions

* `Far.Keeps` — a store that keeps what was last written under a key.
* `Serial.Call.Plain` — look-ups, unconditional writes and deletions of a key.
* `Crossing.Still` — what a program has still to do to a key.
* `Crossing.Shows` — callers at work are at certain stages.

## Main results

* `Crossing.Shows.turn` — a step of a caller is one of the protocol, or none.
* `Crossing.tiers_agree_or_crossed` — the tiers agree unless calls crossed.
* `Crossing.crossing_writes` — two writes that cross leave each its bytes in another tier.
* `Crossing.not_staysAgreed` — so the tiers need not agree.
-/

set_option autoImplicit false

namespace LayeredCache

open Flight (Caller)

/-! ## Stores that keep a key -/

/-- **A store that keeps a key.** In the states in which it `holds` some bytes under the key or
nothing, look-ups give this, and it holds what is written until it is deleted; nothing fails. -/
structure Far.Keeps {σ : Type} [FarStore σ] (key : String) (holds : σ → Option Bytes → Prop) :
    Prop where
  get : ∀ store held now, holds store held →
    (FarStore.answer store now (.get key)).1 =
        held.elim (.failure .missing) (fun data => .reply data) ∧
      holds (FarStore.answer store now (.get key)).2 held
  write : ∀ store held now data, holds store held →
    (FarStore.answer store now (.write .always key data 0)).1 = .reply true ∧
      holds (FarStore.answer store now (.write .always key data 0)).2 (some data)
  delete : ∀ store held now, holds store held →
    (FarStore.answer store now (.delete [key])).1 = .reply () ∧
      holds (FarStore.answer store now (.delete [key])).2 none

/-- A store in memory has an entry that never expires under a key, or none. -/
def Far.MemoryStore.Holds (key : String) (s : MemoryStore) (held : Option Bytes) : Prop :=
  s.entries[key]? = held.map fun data => ⟨data, none⟩

/-- A store in memory keeps every key. -/
lemma Far.MemoryStore.keeps (key : String) : Keeps key (MemoryStore.Holds key) where
  get s held now h := by
    have hlive : s.liveAt now key = held.map fun data => ⟨data, none⟩ := by
      cases held with
      | none => rw [liveAt, h, Option.map_none, Option.filter_none]
      | some data => exact liveAt_of_permanent h rfl now
    refine ⟨?_, ?_⟩
    · rw [answer_get, hlive]
      cases held <;> rfl
    · rw [Holds, answer_get_snd, entries_get, if_pos rfl, hlive]
  write s held now data h := by
    have hreply : (FarStore.answer s now (.write .always key data 0)).1 = .reply true :=
      answer_write_of_representable fun hne => absurd rfl hne
    exact ⟨hreply, entry_of_applied hreply⟩
  delete s held now h := ⟨rfl, (s.entries_delete [key] key).trans (if_pos (by simp))⟩

/-! ## Calls of a key -/

variable {ρ : Type}

/-- A look-up, an unconditional write without a lifetime or a deletion of a key, of both tiers. -/
def Serial.Call.Plain (key : String) : Serial.Call ρ → Prop
  | .get _ k o => k = key ∧ o.skip = .none
  | .set _ k _ o => k = key ∧ o.Ordinary ∧ o.condition = .always ∧ o.ttl = 0
  | .delete k => k = key
  | _ => False

namespace Crossing

/-- What a program has still to do to a key when its call is at a stage. -/
inductive Still (key : String) : Stage → Prog Unit → Prop
  | done : Still key .over (.done ())
  /-- The near tier had what was looked for. -/
  | found : Still key .looking (.done ())
  | tally {stage : Stage} {b : Bool} {next : Prog Unit} :
      Still key stage next → Still key stage (.tally b next)
  | count {stage : Stage} {event : Event} {next : Prog Unit} :
      Still key stage next → Still key stage (.count event next)
  | find {next : Option Content → Prog Unit} :
      (∀ content, Still key .looking (next content)) → Still key .looking (.find key next)
  | ask {next : Except Failure Bytes → Prog Unit} :
      (∀ cause, Still key .over (next (.error cause))) →
      (∀ data, Still key (.copying data) (next (.ok data))) →
      Still key .looking (.call (.get key) next)
  | copy {data : Bytes} {ttl : Span} {next : Prog Unit} :
      Still key .over next → Still key (.copying data) (.put key (.stored data) ttl next)
  | lay {data : Bytes} {ttl : Span} {next : Prog Unit} :
      Still key (.writing data) next → Still key (.setting data) (.put key (.stored data) ttl next)
  | write {data : Bytes} {next : Except Failure Bool → Prog Unit} :
      (∀ applied, Still key .over (next (.ok applied))) →
      Still key (.writing data) (.call (.write .always key data 0) next)
  | clear {next : Prog Unit} :
      Still key .deleting next → Still key .clearing (.drop key next)
  | erase {next : Except Failure Unit → Prog Unit} :
      Still key .over (next (.ok ())) → Still key .deleting (.call (.delete [key]) next)

section Programs

variable {s : Setup} {key : String} {o : CallOptions} {ty : Ty}

/-- The program of a look-up. -/
lemma still_get (hnear : s.near = true) (hfar : s.far = true) (hskip : o.skip = .none) :
    Still key .looking ((Serial.Call.get ty key o : Serial.Call ρ).program s) := by
  have htier := Setup.hasTier_of_uses (o := o) (.inl ((Setup.usesNear_eq hskip).trans hnear))
  simp only [Serial.Call.program, Setup.get, Setup.lookup, Setup.findNear, Setup.fetch,
    Setup.putNear, htier.1, htier.2, Setup.usesNear_eq hskip, Setup.usesFar_eq hskip, hnear, hfar,
    if_true, Bool.not_true, Bool.false_eq_true, if_false]
  refine .find fun content => .count ?_
  cases content with
  | some content => exact .found
  | none =>
    exact .ask (fun cause => .tally (.count .done)) fun data => .tally (.count (.copy .done))

/-- The program of a write: it writes into the near tier, then into the far tier. -/
lemma program_set {v : Value} {data : Bytes} (key : String) (o : CallOptions)
    (hnear : s.near = true) (hfar : s.far = true) (ho : o.Ordinary)
    (hcondition : o.condition = .always) (httl : o.ttl = 0)
    (hencode : s.envelope.encode ty v = .ok data) :
    ∃ next : Except Failure Bool → Prog Unit, (∀ applied, next (.ok applied) = .done ()) ∧
      (Serial.Call.set ty key v o : Serial.Call ρ).program s =
        .put key (.stored data) 0 (.call (.write .always key data 0) next) := by
  have htier := Setup.hasTier_of_uses (o := o) (.inl ((Setup.usesNear_eq ho.skip).trans hnear))
  have hnear' := (Setup.usesNear_eq ho.skip).trans hnear
  have hfar' := (Setup.usesFar_eq ho.skip).trans hfar
  obtain ⟨ttl, condition, skip, raw, group⟩ := o
  obtain ⟨-, rfl⟩ := ho
  obtain rfl : condition = .always := hcondition
  obtain rfl : ttl = 0 := httl
  simp only [Serial.Call.program, Setup.set, hencode, Setup.store, Setup.putNear, Setup.contentOf,
    htier.1, htier.2, hnear', hfar', if_true, Bool.not_true, Bool.false_eq_true, if_false]
  exact ⟨_, fun applied => by cases applied <;> rfl, rfl⟩

/-- The program of a deletion. -/
lemma still_delete (hnear : s.near = true) (hfar : s.far = true) :
    Still key .clearing ((Serial.Call.delete key : Serial.Call ρ).program s) := by
  simp only [Serial.Call.program, Setup.delete, Setup.deleteFrom, Setup.dropNear, Setup.hasTier,
    hnear, hfar, Bool.or_true, if_true]
  exact .clear (.erase .done)

/-- **A call of a key** is at its beginning, unless its value cannot be encoded. -/
lemma still_program {call : Serial.Call ρ} (hnear : s.near = true) (hfar : s.far = true)
    (hplain : call.Plain key) :
    ∃ stage : Stage, (¬ stage.IsHalfway ∧ ∀ data, stage ≠ .copying data) ∧
      Still key stage (call.program s) := by
  cases call with
  | get ty k o =>
    obtain ⟨rfl, hskip⟩ := hplain
    exact ⟨.looking, ⟨id, by simp⟩, still_get hnear hfar hskip⟩
  | set ty k v o =>
    obtain ⟨rfl, ho, hcondition, httl⟩ := hplain
    cases hencode : s.envelope.encode ty v with
    | error cause =>
      refine ⟨.over, ⟨id, by simp⟩, ?_⟩
      simp only [Serial.Call.program, Setup.set, hencode]
      exact .done
    | ok data =>
      obtain ⟨next, hnext, hprogram⟩ :=
        program_set (ρ := ρ) k o hnear hfar ho hcondition httl hencode
      refine ⟨.setting data, ⟨id, by simp⟩, ?_⟩
      rw [hprogram]
      exact .lay (.write fun applied => by rw [hnext]; exact .done)
  | delete k =>
    obtain rfl : k = key := hplain
    exact ⟨.clearing, ⟨id, by simp⟩, still_delete hnear hfar⟩
  | _ => exact hplain.elim

end Programs

/-! ## Callers at work -/

/-- What is left after a step has still to do what is done from a stage on. -/
def StillAfter (key : String) (stage : Stage) : Prog.Step Unit → Prop
  | .stops _ => stage = .over
  | .goes rest => Still key stage rest

variable {σ : Type}

/-- Callers at work are at certain stages, and the tiers hold under a key what is said of them. -/
structure Shows (key : String) (holds : σ → Option Bytes → Prop) (t : Throng σ) (s : State) :
    Prop where
  sound : t.cache.Sound
  tier : t.cache.setup.near = true
  near : (t.cache.nearAt key).map Entry.content = s.near.map Content.stored
  far : ∃ store, t.cache.far = some store ∧ holds store s.far
  callers : ∀ i p, t.callers[i]? = some (.goes p) → Still key (s.stage i) p
  stopped : ∀ i, (∀ p, t.callers[i]? ≠ some (.goes p)) → s.stage i = .over
  log : t.log = s.log

section Turns

variable {key : String} {holds : σ → Option Bytes → Prop} {t : Throng σ} {s s' : State}
  {i : Caller} {p : Prog Unit} {c' : Cache σ} {r : Prog.Step Unit} {ds : Log}

/-- **A step of a caller** shows in what the tiers hold and in how far this caller came. -/
lemma Shows.advance (h : Shows key holds t s) (hi : t.callers[i]? = some (.goes p))
    (hsound : c'.Sound) (htier : c'.setup.near = true)
    (hnear : (c'.nearAt key).map Entry.content = s'.near.map Content.stored)
    (hfar : ∃ store, c'.far = some store ∧ holds store s'.far)
    (stage : Stage) (hr : StillAfter key stage r)
    (hstage : s'.stage = Function.update s.stage i stage) (hlog : s'.log = s.log ++ ds) :
    Shows key holds ⟨c', t.callers.set i r, t.log ++ ds⟩ s' := by
  have hlt : i < t.callers.length := (List.getElem?_eq_some_iff.mp hi).1
  refine ⟨hsound, htier, hnear, hfar, fun j q hj => ?_, fun j hj => ?_, by rw [hlog, h.log]⟩
  · rw [hstage]
    by_cases hji : j = i
    · subst hji
      rw [List.getElem?_set_self hlt, Option.some.injEq] at hj
      subst hj
      rw [Function.update_self]
      exact hr
    · rw [List.getElem?_set_ne (Ne.symm hji)] at hj
      rw [Function.update_of_ne hji]
      exact h.callers j q hj
  · rw [hstage]
    by_cases hji : j = i
    · subst hji
      rw [Function.update_self]
      cases r with
      | stops how => exact hr
      | goes rest => exact absurd (List.getElem?_set_self hlt) (hj rest)
    · rw [Function.update_of_ne hji]
      refine h.stopped j fun q hq => hj q ?_
      rw [List.getElem?_set_ne (Ne.symm hji)]
      exact hq

/-- There is a near tier. -/
lemma Shows.near_tier (h : Shows key holds t s) :
    ∃ tier, t.cache.near = some tier ∧ tier.Sound := by
  obtain ⟨tier, htier⟩ := Option.isSome_iff_exists.mp h.tier
  exact ⟨tier, htier, h.sound tier htier⟩

/-- A call that gives up before it has begun to write. -/
lemma Shows.rest (h : Shows key holds t s) (hi : t.callers[i]? = some (.goes p))
    (how : Progress Unit) :
    Shows key holds ⟨t.cache, t.callers.set i (.stops how), t.log ++ []⟩
      { s with stage := Function.update s.stage i .over } :=
  h.advance hi h.sound h.tier h.near h.far .over rfl rfl (List.append_nil _).symm

/-- A step that touches no tier. -/
lemma Shows.pass (h : Shows key holds t s) (hi : t.callers[i]? = some (.goes p)) (hsound : c'.Sound)
    (htier : c'.setup.near = true) (hnear : c'.nearAt key = t.cache.nearAt key)
    (hfar : c'.far = t.cache.far) (hr : StillAfter key (s.stage i) r) :
    Shows key holds ⟨c', t.callers.set i r, t.log ++ []⟩ s :=
  h.advance hi hsound htier (hnear ▸ h.near) (hfar ▸ h.far) _ hr
    (Function.update_eq_self i s.stage).symm (List.append_nil _).symm

/-- A write into the near tier shows there. -/
lemma Shows.lay (h : Shows key holds t s) (hi : t.callers[i]? = some (.goes p)) {now : Instant}
    {data : Bytes} {ttl : Span} {tier tier' : NearTier} (htier : t.cache.near = some tier)
    (hput : tier.put now key (.stored data) ttl = some tier') {stage : Stage}
    (hr : StillAfter key stage r) :
    Shows key holds ⟨{ t.cache with near := some tier' }, t.callers.set i r, t.log ++ ds⟩
      { s with
        near := some data, stage := Function.update s.stage i stage, log := s.log ++ ds } := by
  obtain ⟨hsound, httl, ⟨deadline, hpeek⟩, -⟩ := (h.sound tier htier).put hput
  have hkept := Cache.Kept.of_near htier hsound httl
  refine h.advance hi hkept.sound ?_ ?_ h.far stage hr rfl rfl
  · rw [hkept.setup, h.tier]
  · rw [Cache.nearAt, Option.bind_some, hpeek]
    rfl

/-- A request to the far tier shows in what that tier holds. -/
lemma Shows.send (h : Shows key holds t s) (hi : t.callers[i]? = some (.goes p)) {store : σ}
    {held : Option Bytes} (hheld : holds store held) {stage : Stage}
    (hr : StillAfter key stage r) :
    Shows key holds ⟨{ t.cache with far := some store }, t.callers.set i r, t.log ++ ds⟩
      { s with far := held, stage := Function.update s.stage i stage, log := s.log ++ ds } :=
  h.advance hi h.sound h.tier h.near ⟨store, rfl, hheld⟩ stage hr rfl rfl

/-- A look-up in the near tier takes at most an expired entry away. -/
lemma Shows.seek (h : Shows key holds t s) (hi : t.callers[i]? = some (.goes p)) {now : Instant}
    {tier : NearTier} (htier : t.cache.near = some tier) (hr : StillAfter key (s.stage i) r) :
    ∃ s', (s' = s ∨ Moves key s s') ∧
      Shows key holds ⟨{ t.cache with near := some (tier.get now key).2 }, t.callers.set i r,
        t.log ++ []⟩ s' := by
  obtain ⟨hsound, httl, -, hpeek⟩ := (h.sound tier htier).get now key
  have hkept := Cache.Kept.of_near htier hsound httl
  have htiers :
      ({ t.cache with near := some (tier.get now key).2 } : Cache σ).setup.near = true := by
    rw [hkept.setup, h.tier]
  have hnear : ({ t.cache with near := some (tier.get now key).2 } : Cache σ).nearAt key =
      if (tier.entries.peek key).any (fun e => !e.isLive now) then none
      else t.cache.nearAt key := by
    rw [Cache.nearAt_of_some htier, Cache.nearAt, Option.bind_some, hpeek]
    simp only [true_and]
  split at hnear
  · refine ⟨_, .inr (.vanishes s), h.advance hi hkept.sound htiers ?_ h.far _ hr
      (Function.update_eq_self i s.stage).symm (List.append_nil _).symm⟩
    rw [hnear]
    rfl
  · exact ⟨s, .inl rfl, h.pass hi hkept.sound htiers hnear rfl hr⟩

variable [FarStore σ]

/-- The step that a caller takes with the program `p` is one of the protocol, or changes nothing of
what the protocol follows. -/
def Turned (key : String) (holds : σ → Option Bytes → Prop) (t : Throng σ) (s : State)
    (x : Caller × Instant) (p : Prog Unit) : Prop :=
  ∃ s', (s' = s ∨ Moves key s s') ∧
    Shows key holds ⟨(p.step (Throng.visitOf x) t.cache).2,
      t.callers.set x.1 (p.step (Throng.visitOf x) t.cache).1,
      t.log ++ (p.deed (Throng.visitOf x) t.cache).toList.map (x.1, ·)⟩ s'

variable {x : Caller × Instant} {data : Bytes} {stage : Stage}

/-- **A write into the near tier**, unless the clock cannot represent its deadline. -/
lemma Shows.turned_put (h : Shows key holds t s) {ttl : Span} {next : Prog Unit}
    (hi : t.callers[x.1]? = some (.goes (.put key (.stored data) ttl next)))
    (hunwritten : ¬ (s.stage x.1).IsHalfway) (hnext : Still key stage next)
    (hmoves : Moves key s { s with
      near := some data, stage := Function.update s.stage x.1 stage
      log := s.log ++ [(x.1, .put key (.stored data))] }) :
    Turned key holds t s x (.put key (.stored data) ttl next) := by
  obtain ⟨tier, htier, -⟩ := h.near_tier
  rw [Turned]
  cases hput : tier.put (Throng.visitOf x).now key (.stored data) ttl with
  | none =>
    obtain ⟨hstep, hdeed⟩ := Prog.step_put_crashed _ next htier hput
    rw [hstep, hdeed]
    exact ⟨_, .inr (.rests s x.1 hunwritten), h.rest hi _⟩
  | some tier' =>
    obtain ⟨hstep, hdeed⟩ := Prog.step_put _ next htier hput
    rw [hstep, hdeed]
    exact ⟨_, .inr hmoves, h.lay hi htier hput hnext⟩

/-- **A look-up in the far tier** gives what that tier holds. -/
lemma Shows.turned_get (hkeeps : Far.Keeps key holds) (h : Shows key holds t s)
    {next : Except Failure Bytes → Prog Unit}
    (hi : t.callers[x.1]? = some (.goes (.call (.get key) next)))
    (hlooking : s.stage x.1 = .looking) (herror : ∀ cause, Still key .over (next (.error cause)))
    (hok : ∀ data, Still key (.copying data) (next (.ok data))) :
    Turned key holds t s x (.call (.get key) next) := by
  obtain ⟨store, hstore, hheld⟩ := h.far
  obtain ⟨hanswer, hholds⟩ := hkeeps.get store s.far (Throng.visitOf x).now hheld
  rw [Turned]
  cases hfar : s.far with
  | none =>
    rw [hfar] at hanswer
    obtain ⟨hstep, hdeed⟩ := Prog.step_call_failure _ (.get key) next hstore hanswer
    rw [hstep, hdeed]
    exact ⟨_, .inr (.hears s x.1 (.error .missing) hlooking),
      h.send hi hholds (by rw [hfar]; exact herror .missing)⟩
  | some data =>
    rw [hfar] at hanswer
    obtain ⟨hstep, hdeed⟩ := Prog.step_call_reply _ (.get key) next hstore hanswer
    rw [hstep, hdeed]
    exact ⟨_, .inr (.hears s x.1 (.ok data) hlooking),
      h.send hi hholds (by rw [hfar]; exact hok data)⟩

/-- **A write into the far tier.** -/
lemma Shows.turned_write (hkeeps : Far.Keeps key holds) (h : Shows key holds t s)
    {next : Except Failure Bool → Prog Unit}
    (hi : t.callers[x.1]? = some (.goes (.call (.write .always key data 0) next)))
    (hwriting : s.stage x.1 = .writing data)
    (hnext : ∀ applied, Still key .over (next (.ok applied))) :
    Turned key holds t s x (.call (.write .always key data 0) next) := by
  obtain ⟨store, hstore, hheld⟩ := h.far
  obtain ⟨hanswer, hholds⟩ := hkeeps.write store s.far (Throng.visitOf x).now data hheld
  obtain ⟨hstep, hdeed⟩ := Prog.step_call_reply _ (.write .always key data 0) next hstore hanswer
  rw [Turned, hstep, hdeed]
  exact ⟨_, .inr (.writes s x.1 data .always 0 (.ok true) hwriting), h.send hi hholds (hnext true)⟩

/-- **A deletion in the far tier.** -/
lemma Shows.turned_delete (hkeeps : Far.Keeps key holds) (h : Shows key holds t s)
    {next : Except Failure Unit → Prog Unit}
    (hi : t.callers[x.1]? = some (.goes (.call (.delete [key]) next)))
    (hdeleting : s.stage x.1 = .deleting) (hnext : Still key .over (next (.ok ()))) :
    Turned key holds t s x (.call (.delete [key]) next) := by
  obtain ⟨store, hstore, hheld⟩ := h.far
  obtain ⟨hanswer, hholds⟩ := hkeeps.delete store s.far (Throng.visitOf x).now hheld
  obtain ⟨hstep, hdeed⟩ := Prog.step_call_reply _ (.delete [key]) next hstore hanswer
  rw [Turned, hstep, hdeed]
  exact ⟨_, .inr (.erases s x.1 (.ok ()) hdeleting), h.send hi hholds hnext⟩

/-- **A deletion in the near tier.** -/
lemma Shows.turned_drop (h : Shows key holds t s) {next : Prog Unit}
    (hi : t.callers[x.1]? = some (.goes (.drop key next))) (hclearing : s.stage x.1 = .clearing)
    (hnext : Still key .deleting next) : Turned key holds t s x (.drop key next) := by
  have hkept := Cache.Kept.of_deleteNear h.sound key
  refine ⟨_, .inr (.clears s x.1 hclearing), h.advance hi hkept.sound ?_ ?_ h.far
    .deleting hnext rfl rfl⟩
  · exact (congrArg Setup.near hkept.setup).trans h.tier
  · rw [Prog.step, Cache.nearAt_deleteNear h.sound, if_pos rfl]
    rfl

/-- **A turn of a caller** is a step of the protocol, or changes nothing of what the protocol
follows. -/
theorem Shows.turn (hkeeps : Far.Keeps key holds) (h : Shows key holds t s)
    (x : Caller × Instant) :
    ∃ s', (s' = s ∨ Moves key s s') ∧ Shows key holds (t.turn x) s' := by
  unfold Throng.turn
  split
  case h_2 => exact ⟨s, .inl rfl, h⟩
  case h_1 p hi =>
    have hstill := h.callers x.1 p hi
    generalize hstage : s.stage x.1 = stage at hstill
    cases hstill with
    | done => exact ⟨_, .inr (.rests s x.1 (hstage ▸ id)), h.rest hi _⟩
    | found => exact ⟨_, .inr (.rests s x.1 (hstage ▸ id)), h.rest hi _⟩
    | tally hnext =>
      exact ⟨s, .inl rfl, h.pass hi h.sound h.tier rfl rfl (hstage ▸ hnext)⟩
    | count hnext =>
      exact ⟨s, .inl rfl, h.pass hi h.sound h.tier rfl rfl (hstage ▸ hnext)⟩
    | find hnext =>
      obtain ⟨tier, htier, -⟩ := h.near_tier
      rw [Prog.step_find _ htier]
      exact h.seek hi htier (hstage ▸ hnext _)
    | ask herror hok => exact h.turned_get hkeeps hi hstage herror hok
    | copy hnext => exact h.turned_put hi (hstage ▸ id) hnext (.copies s x.1 _ hstage)
    | lay hnext => exact h.turned_put hi (hstage ▸ id) hnext (.lays s x.1 _ hstage)
    | write hnext => exact h.turned_write hkeeps hi hstage hnext
    | clear hnext => exact h.turned_drop hi hstage hnext
    | erase hnext => exact h.turned_delete hkeeps hi hstage hnext

/-- Callers at work whose stages are tracked. -/
def Follows (key : String) (holds : σ → Option Bytes → Prop) (t : Throng σ) : Prop :=
  ∃ s, Shows key holds t s ∧ Tracked key s

/-- Turns keep callers at work tracked. -/
lemma Follows.after (hkeeps : Far.Keeps key holds) (h : Follows key holds t)
    (turns : List (Caller × Instant)) : Follows key holds (t.after turns) := by
  induction turns generalizing t with
  | nil => exact h
  | cons x turns ih =>
    obtain ⟨s, hshows, htracked⟩ := h
    obtain ⟨s', hmoves, hshows'⟩ := hshows.turn hkeeps x
    refine ih ⟨s', hshows', ?_⟩
    rcases hmoves with rfl | hmoves
    · exact htracked
    · exact htracked.step hmoves

end Turns

/-! ## The tiers after calls -/

/-- The two tiers of a cache agree on a key: what the near tier has under it, expired or not, is
what the far tier holds. -/
structure Agrees (key : String) (holds : σ → Option Bytes → Prop) (c : Cache σ) : Prop where
  sound : c.Sound
  tier : c.setup.near = true
  tiers : ∃ store held, c.far = some store ∧ holds store held ∧
    ∀ e, c.nearAt key = some e → ∃ data, e.content = .stored data ∧ held = some data

/-- Calls that are about to be made of a cache. -/
def calling (start : Cache σ) (calls : List (Serial.Call ρ)) : Throng σ where
  cache := start
  callers := calls.map fun call => .goes (call.program start.setup)

section Calls

variable {key : String} {holds : σ → Option Bytes → Prop} {start : Cache σ}

/-- Calls that are about to be made are tracked when the tiers agree. -/
lemma Agrees.follows (h : Agrees key holds start) {calls : List (Serial.Call ρ)}
    (hplain : ∀ call ∈ calls, call.Plain key) : Follows key holds (calling start calls) := by
  obtain ⟨store, held, hstore, hheld, hnear⟩ := h.tiers
  have hstages : ∀ i : Caller, ∃ stage : Stage,
      (¬ stage.IsHalfway ∧ ∀ data, stage ≠ .copying data) ∧
      (∀ call : Serial.Call ρ, calls[i]? = some call →
        Still key stage (call.program start.setup)) ∧
      (calls[i]? = none → stage = .over) := by
    intro i
    cases hi : calls[i]? with
    | none => exact ⟨.over, ⟨id, by simp⟩, nofun, fun _ => rfl⟩
    | some call =>
      obtain ⟨stage, hfirst, hstill⟩ := still_program h.tier (Cache.far_eq_true rfl hstore)
        (hplain call (List.mem_of_getElem? hi))
      exact ⟨stage, hfirst, fun call' hcall' => Option.some.inj hcall' ▸ hstill, nofun⟩
  choose stage hfirst hstill hover using hstages
  refine ⟨⟨(start.nearAt key).bind fun _ => held, held, stage, []⟩,
    ⟨h.sound, h.tier, ?_, ⟨store, hstore, hheld⟩, fun i p hp => ?_, fun i hi => ?_, rfl⟩,
    .start rfl hfirst fun data hdata => ?_⟩
  · change (start.nearAt key).map Entry.content = _
    cases he : start.nearAt key with
    | none => rfl
    | some e =>
      obtain ⟨data, hcontent, rfl⟩ := hnear e he
      exact congrArg some hcontent
  · obtain ⟨call, hcall, hgoes⟩ := Option.map_eq_some_iff.mp (List.getElem?_map ▸ hp)
    cases hgoes
    exact hstill i call hcall
  · refine hover i (Option.eq_none_iff_forall_ne_some.mpr fun call hcall => ?_)
    refine hi (call.program start.setup) ?_
    simp only [calling, List.getElem?_map, hcall, Option.map_some]
  · exact (Option.bind_eq_some_iff.mp hdata).choose_spec.2

variable [FarStore σ]

/-- **The tiers agree unless calls crossed.** Any number of look-ups, unconditional writes and
deletions of one key are made of a cache whose tiers agree on the key, and take their steps in any
order. When all have ended, what the near tier has under the key is what the far tier holds, or the
call that put it there was crossed by another one.

**Proof sketch.** Every step of a caller is a step of the protocol or changes nothing of what it
follows (`Shows.turn`), and those keep the invariant (`Tracked.step`). No write is halfway when all
calls have ended. -/
theorem tiers_agree_or_crossed (hkeeps : Far.Keeps key holds) (hagrees : Agrees key holds start)
    (calls : List (Serial.Call ρ)) (hplain : ∀ call ∈ calls, call.Plain key)
    (turns : List (Caller × Instant)) (hover : ((calling start calls).after turns).Over)
    {e : Entry} (he : ((calling start calls).after turns).cache.nearAt key = some e) :
    ∃ data, e.content = .stored data ∧
      ((∃ store, ((calling start calls).after turns).cache.far = some store ∧
          holds store (some data)) ∨
        Crossed key ((calling start calls).after turns).log data) := by
  obtain ⟨s, hshows, htracked⟩ := (hagrees.follows hplain).after hkeeps turns
  generalize (calling start calls).after turns = t at hshows hover he
  have hnear := hshows.near
  rw [he, Option.map_some] at hnear
  obtain ⟨data, hdata, hcontent⟩ := Option.map_eq_some_iff.mp hnear.symm
  refine ⟨data, hcontent.symm, ?_⟩
  have hdone : ∀ i, s.stage i ≠ .writing data := by
    intro i hi
    have hstopped := hshows.stopped i fun p hp => hover p (List.mem_of_getElem? hp)
    cases hi.symm.trans hstopped
  rw [hshows.log]
  refine (htracked.agree_or_crossed hdone hdata).imp_left fun hfar => ?_
  obtain ⟨store, hstore, hheld⟩ := hshows.far
  exact ⟨store, hstore, hfar ▸ hheld⟩

/-! ## Writes that cross -/

/-- The turns of two writes of which the second changes the near tier after the first and the far
tier before it. -/
def crossingTurns (now : Instant) : List (Caller × Instant) :=
  [(0, now), (1, now), (1, now), (0, now), (0, now), (1, now)]

/-- **Two writes that cross** leave the value of one in the near tier and that of the other in the
far tier. -/
theorem crossing_writes (hkeeps : Far.Keeps key holds) (hagrees : Agrees key holds start)
    {now : Instant} (hafford : start.Affords now 0)
    (hlasting : ∀ tier, start.near = some tier → 0 < tier.defaultTtl) {ty : Ty} {v₁ v₂ : Value}
    {data₁ data₂ : Bytes} (hencode₁ : start.setup.envelope.encode ty v₁ = .ok data₁)
    (hencode₂ : start.setup.envelope.encode ty v₂ = .ok data₂) :
    ∃ t, (calling start [.set ty key v₁ {}, (.set ty key v₂ {} : Serial.Call ρ)]).after
        (crossingTurns now) = t ∧ t.Over ∧
      (∃ e, t.cache.nearLive now key = some e ∧ e.content = .stored data₂) ∧
      ∃ store, t.cache.far = some store ∧ holds store (some data₁) := by
  obtain ⟨tier, htier⟩ := Option.isSome_iff_exists.mp hagrees.tier
  obtain ⟨store, held, hstore, hheld, -⟩ := hagrees.tiers
  have hfar := Cache.far_eq_true (s := start.setup) rfl hstore
  obtain ⟨next₁, hnext₁, hprogram₁⟩ := program_set (ρ := ρ) key {} hagrees.tier hfar ⟨rfl, rfl⟩ rfl
    rfl hencode₁
  obtain ⟨next₂, hnext₂, hprogram₂⟩ := program_set (ρ := ρ) key {} hagrees.tier hfar ⟨rfl, rfl⟩ rfl
    rfl hencode₂
  -- the near tier takes both values in turn
  have hrep : now + tier.defaultTtl < Instant.horizon := hafford tier htier
  have hput₁ : tier.put now key (.stored data₁) 0 ≠ none := NearTier.put_ne_none hrep _ _
  obtain ⟨tier₁, hput₁⟩ := Option.ne_none_iff_exists'.mp hput₁
  obtain ⟨hsound₁, httl₁, -, -⟩ := (hagrees.sound tier htier).put hput₁
  rw [← httl₁] at hrep
  have hput₂ : tier₁.put now key (.stored data₂) 0 ≠ none := NearTier.put_ne_none hrep _ _
  obtain ⟨tier₂, hput₂⟩ := Option.ne_none_iff_exists'.mp hput₂
  have hpeek := hsound₁.peek_put hput₂
  -- the far tier takes them in the other order
  obtain ⟨hreply₂, hheld₂⟩ := hkeeps.write store held now data₂ hheld
  obtain ⟨hreply₁, hheld₁⟩ := hkeeps.write _ _ now data₁ hheld₂
  have hcalling : calling start [.set ty key v₁ {}, (.set ty key v₂ {} : Serial.Call ρ)] =
      ⟨start, [.goes (.put key (.stored data₁) 0 (.call (.write .always key data₁ 0) next₁)),
        .goes (.put key (.stored data₂) 0 (.call (.write .always key data₂ 0) next₂))], []⟩ := by
    rw [calling, List.map_cons, List.map_cons, List.map_nil, hprogram₁, hprogram₂]
  refine ⟨_, rfl, ?_⟩
  rw [hcalling, Throng.after, crossingTurns, List.foldl_cons]
  obtain ⟨hstep, hdeed⟩ := Prog.step_put (Throng.visitOf (0, now))
    (.call (.write .always key data₁ 0) next₁) htier hput₁
  rw [Throng.turn_goes rfl hstep hdeed, List.foldl_cons]
  obtain ⟨hstep, hdeed⟩ := Prog.step_put (Throng.visitOf (1, now))
    (c := { start with near := some tier₁ }) (.call (.write .always key data₂ 0) next₂) rfl hput₂
  rw [Throng.turn_goes rfl hstep hdeed, List.foldl_cons]
  obtain ⟨hstep, hdeed⟩ := Prog.step_call_reply (Throng.visitOf (1, now))
    (c := { start with near := some tier₂ }) (.write .always key data₂ 0) next₂ hstore hreply₂
  rw [hnext₂] at hstep
  rw [Throng.turn_goes rfl hstep hdeed, List.foldl_cons]
  obtain ⟨hstep, hdeed⟩ := Prog.step_call_reply (Throng.visitOf (0, now))
    (c := { start with near := some tier₂, far := some _ }) (.write .always key data₁ 0) next₁ rfl
    hreply₁
  rw [hnext₁] at hstep
  rw [Throng.turn_goes rfl hstep hdeed, List.foldl_cons, Throng.turn_goes rfl rfl rfl,
    List.foldl_cons, Throng.turn_goes rfl rfl rfl, List.foldl_nil]
  refine ⟨?_, ⟨_, Cache.nearLive_eq_some.mpr ⟨hpeek, ?_⟩, rfl⟩, _, rfl, hheld₁⟩
  · simp [Throng.Over]
  · have hlife := NearTier.le_jittered tier₁.defaultTtl 0 (tier₁.draws tier₁.drawn)
    rw [if_pos rfl, httl₁] at hlife
    have hpos := Nat.lt_of_lt_of_le
      (Nat.sub_pos_of_lt (Nat.div_lt_self (hlasting tier htier) (by decide))) hlife
    rw [httl₁]
    exact decide_eq_true (Nat.lt_add_of_pos_right hpos)

end Calls

open Serial (twoTiers)

/-- Two writes of a key. -/
def twoWrites : List (Serial.Call Unit) :=
  [.set .buffer "k" (.buffer [7]) {}, .set .buffer "k" (.buffer [8]) {}]

/-- The two writes are plain. -/
lemma plain_twoWrites : ∀ call ∈ twoWrites, call.Plain "k" := by
  rw [twoWrites, List.forall_mem_cons, List.forall_mem_singleton]
  exact ⟨⟨rfl, ⟨rfl, rfl⟩, rfl, rfl⟩, ⟨rfl, ⟨rfl, rfl⟩, rfl, rfl⟩⟩

/-- Two empty tiers agree. -/
lemma agrees_twoTiers : Agrees "k" (Far.MemoryStore.Holds "k") twoTiers where
  sound := (Serial.settled_nil Serial.empty_twoTiers (ρ := Unit)).sound
  tier := by decide +kernel
  tiers := by
    refine ⟨{}, none, rfl, ?_, fun e he => ?_⟩
    · simp [Far.MemoryStore.Holds]
    · cases (Serial.nearAt_of_empty Serial.empty_twoTiers "k").symm.trans he

/-- The two writes cross. -/
lemma twoWrites_cross : ∃ t, (calling twoTiers twoWrites).after (crossingTurns 0) = t ∧ t.Over ∧
    (∃ e, t.cache.nearLive 0 "k" = some e ∧ e.content = .stored [8]) ∧
    ∃ store, t.cache.far = some store ∧ Far.MemoryStore.Holds "k" store (some [7]) := by
  have hnew : twoTiers.near = NearTier.new (fun _ => 0) (fun _ => 0) 64 4096 := rfl
  refine crossing_writes (Far.MemoryStore.keeps "k") agrees_twoTiers (Cache.affords_new hnew)
    (fun tier htier => ?_) rfl rfl
  rw [NearTier.defaultTtl_new (hnew.symm.trans htier)]
  decide

/-- The near tier was left behind by writes that cross. -/
theorem tiers_agree_or_crossed_twoWrites :
    Agrees "k" (Far.MemoryStore.Holds "k") twoTiers ∧ (∀ call ∈ twoWrites, call.Plain "k") ∧
      ((calling twoTiers twoWrites).after (crossingTurns 0)).Over ∧
      Crossed "k" ((calling twoTiers twoWrites).after (crossingTurns 0)).log [8] := by
  obtain ⟨t, rfl, hover, ⟨e, he, hcontent⟩, store, hstore, hheld⟩ := twoWrites_cross
  obtain ⟨data, hdata, hcase⟩ := tiers_agree_or_crossed (Far.MemoryStore.keeps "k") agrees_twoTiers
    twoWrites plain_twoWrites (crossingTurns 0) hover (Cache.nearLive_eq_some.mp he).1
  obtain rfl : data = [8] := Content.stored.inj (hdata.symm.trans hcontent)
  refine ⟨agrees_twoTiers, plain_twoWrites, hover, hcase.resolve_left ?_⟩
  -- the far tier holds the other value
  rintro ⟨store', hstore', hheld'⟩
  obtain rfl := Option.some.inj (hstore.symm.trans hstore')
  cases hheld.symm.trans hheld'

/-- Whatever plain calls are made of a key, and in whatever order they take their steps: when all
have ended, what the near tier serves under the key is what the far tier serves. -/
def StaysAgreed (key : String) (start : Cache Far.MemoryStore) : Prop :=
  ∀ (calls : List (Serial.Call Unit)) (turns : List (Caller × Instant)) (now : Instant),
    (∀ call ∈ calls, call.Plain key) → ((calling start calls).after turns).Over →
      ∀ e, ((calling start calls).after turns).cache.nearLive now key = some e →
        ∃ held, ((calling start calls).after turns).cache.farLive now key = some held ∧
          e.content = .stored held.data

/-- **The tiers need not agree**, not even when both were empty at first. -/
theorem not_staysAgreed : ¬ StaysAgreed "k" twoTiers := by
  intro hstays
  obtain ⟨t, ht, hover, ⟨e, he, hcontent⟩, store, hstore, hheld⟩ := twoWrites_cross
  subst ht
  obtain ⟨held, hlive, hsame⟩ := hstays twoWrites (crossingTurns 0) 0 plain_twoWrites hover e he
  have hfar := (Cache.farLive_eq_some.mp hlive).1
  rw [Cache.farAt_of_some hstore, hheld] at hfar
  obtain rfl := Option.some.inj hfar
  cases hcontent.symm.trans hsame

end Crossing

end LayeredCache
