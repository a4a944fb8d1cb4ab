import LayeredCache.Far.Drill
import LayeredCache.Proofs.Cache.Courses
import LayeredCache.Proofs.Cache.Seeking

/-!
# Reading or computing does what its look-ups call for

A caller that reads or computes looks its key up once, or twice when it has dropped an unreadable
entry in between. What it does next depends on what the last look-up has answered and on nothing
else: it takes the value, it gives the failure back, or it computes the value and writes it. This
holds while other callers use the cache at the same time, whatever the tiers answer.

## Main definitions

* `Setup.MakeTrace`, `Setup.SeekTrace`, `Setup.TakeTrace` — what reading or computing can go
  through, with the answers of its look-ups and what was computed.
* `Setup.CalledFor` — what the look-ups call for.

## Main results

* `Setup.take_trace` — reading or computing goes through nothing else.
* `Setup.take_called_for` — reading or computing does what its look-ups call for.
-/

set_option autoImplicit false

namespace LayeredCache

open Prog

/-- A failure that says that an entry cannot be read does not say that it is missing. -/
lemma Failure.not_missing_of_corruption {f : Failure} (h : f.isCorruption = true) :
    f.isMissing = false := by
  induction f with
  | shared inner ih => exact ih h
  | _ => first | rfl | cases h

/-! ## Kinds of contacts -/

/-- Whether a contact asks a tier to hold something. -/
def Contact.stores : Contact → Bool
  | .put _ _ _ _ => true
  | .ask (.write _ _ _ _) _ => true
  | _ => false

/-- Whether a contact asks a tier to delete something. -/
def Contact.deletes : Contact → Bool
  | .drop _ => true
  | .ask (.delete _) _ => true
  | _ => false

/-- Nothing is written but what the far tier has answered, which is copied into the near tier. -/
def OnlyCopies (key : String) (log : List Contact) : Prop :=
  ∀ x ∈ log, x.stores = true → ∃ data ttl kept, x = .put key (.stored data) ttl kept ∧
    .ask (.get key) (.reply data) ∈ log

/-- No entry is dropped because it cannot be read, and nothing is deleted but in the near tier,
which forgets a key when the far tier has refused a conditional write. -/
def OnlyForgets (log : List Contact) : Prop :=
  .count .heal ∉ log ∧ ∀ x ∈ log, x.deletes = true → (∃ key, x = .drop key) ∧
    ∃ condition key data ttl, .ask (.write condition key data ttl) (.reply false) ∈ log

section Kinds

variable {key : String} {log log' : List Contact}

lemma OnlyCopies.append (h : OnlyCopies key log) (h' : OnlyCopies key log') :
    OnlyCopies key (log ++ log') := by
  intro x hx hstores
  rcases List.mem_append.mp hx with hx | hx
  · obtain ⟨data, ttl, kept, heq, hmem⟩ := h x hx hstores
    exact ⟨data, ttl, kept, heq, List.mem_append_left _ hmem⟩
  · obtain ⟨data, ttl, kept, heq, hmem⟩ := h' x hx hstores
    exact ⟨data, ttl, kept, heq, List.mem_append_right _ hmem⟩

/-- Contacts of which none asks a tier to hold something. -/
lemma OnlyCopies.of_none (h : ∀ x ∈ log, x.stores = false) : OnlyCopies key log := by
  intro x hx hstores
  rw [h x hx] at hstores
  cases hstores

lemma OnlyForgets.append (h : OnlyForgets log) (h' : OnlyForgets log') :
    OnlyForgets (log ++ log') := by
  refine ⟨fun hmem => (List.mem_append.mp hmem).elim h.1 h'.1, fun x hx hdeletes => ?_⟩
  rcases List.mem_append.mp hx with hx | hx
  · obtain ⟨hdrop, condition, k, data, ttl, hmem⟩ := h.2 x hx hdeletes
    exact ⟨hdrop, condition, k, data, ttl, List.mem_append_left _ hmem⟩
  · obtain ⟨hdrop, condition, k, data, ttl, hmem⟩ := h'.2 x hx hdeletes
    exact ⟨hdrop, condition, k, data, ttl, List.mem_append_right _ hmem⟩

/-- Contacts of which none asks a tier to delete something. -/
lemma OnlyForgets.of_none (hheal : .count .heal ∉ log) (h : ∀ x ∈ log, x.deletes = false) :
    OnlyForgets log := by
  refine ⟨hheal, fun x hx hdeletes => ?_⟩
  rw [h x hx] at hdeletes
  cases hdeletes

end Kinds

namespace Setup

variable {ρ σ : Type} {s : Setup} {ty : Ty} {key : String} {o : CallOptions} {item : Item ρ}
  {log log' : List Contact}

/-- What a look-up answers. -/
abbrev Reading := Except Failure (Option Value)

/-! ## The table -/

/-- What computing and writing a value can go through: what was computed, the contacts, and what it
comes to. -/
inductive MakeTrace (s : Setup) (ty : Ty) (item : Item ρ) :
    Option (Except Failure Value) → List Contact → Progress (Reading) →
      Prop where
  /-- The loader has not given its answer. -/
  | awaits {log : List Contact} {rest : Prog (Except Failure Value)}
      {rest' : Prog (Reading)}
      (produce : ProduceTrace item "take" log (.blocked rest)) :
      MakeTrace s ty item none log (.blocked rest')
  | unmade {log : List Contact} {f : Failure}
      (produce : ProduceTrace item "take" log (.finished (.error f))) :
      MakeTrace s ty item (some (.error f)) log (.finished (.error f))
  /-- The value has no stored form. -/
  | unencoded {log : List Contact} {v : Value} {e : Envelope.Fault}
      (produce : ProduceTrace item "take" log (.finished (.ok v)))
      (encode : s.envelope.encode ty v = .error e) :
      MakeTrace s ty item (some (.ok v)) log (.finished (.error (.envelope e)))
  | unstored {log log' : List Contact} {v : Value} {data : Bytes} {f : Failure}
      (produce : ProduceTrace item "take" log (.finished (.ok v)))
      (encode : s.envelope.encode ty v = .ok data)
      (store : s.StoreTrace ty item.key v data item.options log' (.finished (.error f))) :
      MakeTrace s ty item (some (.ok v)) (log ++ log') (.finished (.error f))
  | stored {log log' : List Contact} {v : Value} {data : Bytes}
      (produce : ProduceTrace item "take" log (.finished (.ok v)))
      (encode : s.envelope.encode ty v = .ok data)
      (store : s.StoreTrace ty item.key v data item.options log' (.finished (.ok ()))) :
      MakeTrace s ty item (some (.ok v)) (log ++ log') (.finished (.ok (some v)))
  | crashed {log log' : List Contact} {v : Value} {data : Bytes}
      (produce : ProduceTrace item "take" log (.finished (.ok v)))
      (encode : s.envelope.encode ty v = .ok data)
      (store : s.StoreTrace ty item.key v data item.options log' .crashed) :
      MakeTrace s ty item (some (.ok v)) (log ++ log') .crashed

/-- What a look-up and what it calls for can go through, unless an entry is dropped: the answer,
what was computed, the contacts, and what this comes to. After an entry was dropped (`again`) none
is dropped any more. -/
inductive SeekTrace (s : Setup) (ty : Ty) (item : Item ρ) (again : Bool) :
    List (Reading) → Option (Except Failure Value) → List Contact →
      Progress (Reading) → Prop where
  | crashed {log : List Contact}
      (look : s.LookupTrace ty item.key item.options log .crashed) :
      SeekTrace s ty item again [] none log .crashed
  | found {log : List Contact} {v : Option Value}
      (look : s.LookupTrace ty item.key item.options log (.finished (.ok v))) :
      SeekTrace s ty item again [.ok v] none log (.finished (.ok v))
  | failed {log : List Contact} {f : Failure}
      (look : s.LookupTrace ty item.key item.options log (.finished (.error f)))
      (there : f.isMissing = false) (kept : again = true ∨ f.isCorruption = false) :
      SeekTrace s ty item again [.error f] none log (.finished (.error f))
  | missing {log log' : List Contact} {f : Failure} {made : Option (Except Failure Value)}
      {r : Progress (Reading)}
      (look : s.LookupTrace ty item.key item.options log (.finished (.error f)))
      (missing : f.isMissing = true) (make : s.MakeTrace ty item made log' r) :
      SeekTrace s ty item again [.error f] made (log ++ log') r

/-- What reading or computing can go through: the answers of the look-ups, what was computed, the
contacts, and what it comes to. -/
inductive TakeTrace (s : Setup) (ty : Ty) (item : Item ρ) :
    List (Reading) → Option (Except Failure Value) → List Contact →
      Progress (Reading) → Prop where
  | once {looks : List (Reading)} {made : Option (Except Failure Value)}
      {log : List Contact} {r : Progress (Reading)}
      (seek : s.SeekTrace ty item false looks made log r) : TakeTrace s ty item looks made log r
  /-- The deletion fails or crashes. -/
  | undropped {log log' : List Contact} {f : Failure} {e : Progress (Except Failure Unit)}
      {r : Progress (Reading)}
      (look : s.LookupTrace ty item.key item.options log (.finished (.error f)))
      (corrupt : f.isCorruption = true)
      (drop : s.DeleteTrace item.key item.options.skip log' e)
      (ends : (e = .crashed ∧ r = .crashed) ∨
        ∃ g, e = .finished (.error g) ∧ r = .finished (.error g)) :
      TakeTrace s ty item [.error f] none (log ++ .count .heal :: log') r
  | twice {log log' log'' : List Contact} {f : Failure}
      {looks : List (Reading)} {made : Option (Except Failure Value)}
      {r : Progress (Reading)}
      (look : s.LookupTrace ty item.key item.options log (.finished (.error f)))
      (corrupt : f.isCorruption = true)
      (drop : s.DeleteTrace item.key item.options.skip log' (.finished (.ok ())))
      (seek : s.SeekTrace ty item true looks made log'' r) :
      TakeTrace s ty item (.error f :: looks) made (log ++ .count .heal :: (log' ++ log'')) r

/-- **Computing and writing a value** goes through nothing else. -/
theorem make_trace {r : Progress (Reading)}
    (h : Trace s (s.compute ty item) log r) : ∃ made, s.MakeTrace ty item made log r := by
  rw [compute_eq, make, Prog.bind_assoc] at h
  cases Trace.of_bind h with
  | waits first => exact ⟨_, .awaits (produce_trace first)⟩
  | crashes first => cases produce_trace first
  | @ends made _ _ _ first second =>
    have hproduced := produce_trace first
    cases made with
    | error f =>
      cases second
      rw [List.append_nil]
      exact ⟨_, .unmade hproduced⟩
    | ok v =>
      simp only [keep] at second
      cases hencode : s.envelope.encode ty v with
      | error e =>
        rw [hencode] at second
        cases second
        rw [List.append_nil]
        exact ⟨_, .unencoded hproduced hencode⟩
      | ok data =>
        rw [hencode] at second
        simp only at second
        rw [Prog.bind_assoc] at second
        cases Trace.of_bind second with
        | @ends stored _ _ _ first second =>
          cases stored with
          | error f =>
            cases second
            rw [List.append_nil]
            exact ⟨_, .unstored hproduced hencode (store_trace first)⟩
          | ok _ =>
            cases second
            rw [List.append_nil]
            exact ⟨_, .stored hproduced hencode (store_trace first)⟩
        | waits first => cases store_trace first
        | crashes first => exact ⟨_, .crashed hproduced hencode (store_trace first)⟩

/-- **A look-up and what it calls for** go through nothing else. `f` is what follows the look-up. -/
lemma seek_trace (again : Bool) {f : Reading → Prog Reading} {r : Progress Reading}
    (h : Trace s ((s.lookup ty item.key item.options).bind f) log r)
    (hfound : ∀ v, f (.ok v) = .done (.ok v))
    (hmissing : ∀ g : Failure, g.isMissing = true → f (.error g) = s.compute ty item)
    (hfailed : ∀ g : Failure, g.isMissing = false → again = true ∨ g.isCorruption = false →
      f (.error g) = .done (.error g)) :
    (∃ looks made, s.SeekTrace ty item again looks made log r) ∨
      ∃ g first second, log = first ++ second ∧ again = false ∧ g.isCorruption = true ∧
        s.LookupTrace ty item.key item.options first (.finished (.error g)) ∧
          Trace s (f (.error g)) second r := by
  cases Trace.of_bind h with
  | waits first => cases lookup_trace first
  | crashes first => exact .inl ⟨_, _, .crashed (lookup_trace first)⟩
  | @ends reading _ _ _ first second =>
    have hlook := lookup_trace first
    cases reading with
    | ok v =>
      rw [hfound] at second
      cases second
      rw [List.append_nil]
      exact .inl ⟨_, _, .found hlook⟩
    | error g =>
      cases hm : g.isMissing with
      | true =>
        rw [hmissing g hm] at second
        obtain ⟨made, hmake⟩ := make_trace second
        exact .inl ⟨_, _, .missing hlook hm hmake⟩
      | false =>
        by_cases hkept : again = true ∨ g.isCorruption = false
        · rw [hfailed g hm hkept] at second
          cases second
          rw [List.append_nil]
          exact .inl ⟨_, _, .failed hlook hm hkept⟩
        · rw [not_or, Bool.not_eq_true, Bool.not_eq_false] at hkept
          exact .inr ⟨g, _, _, rfl, hkept.1, hkept.2, hlook, second⟩

/-- **Reading or computing** goes through nothing else. -/
theorem take_trace {r : Progress Reading} (h : Trace s (s.take ty item) log r) :
    ∃ looks made, s.TakeTrace ty item looks made log r := by
  rcases seek_trace false h (fun v => rfl) (fun g hg => by simp [hg])
    (fun g hg hkept => by
      rw [Bool.false_eq_true, false_or] at hkept
      simp [hg, hkept, pure]) with
    ⟨looks, made, hseek⟩ | ⟨g, first, second, rfl, -, hcorrupt, hlook, hrest⟩
  · exact ⟨_, _, .once hseek⟩
  · have hnot := Failure.not_missing_of_corruption hcorrupt
    simp only [hnot, hcorrupt] at hrest
    cases Trace.of_bind hrest with
    | waits dropping =>
      cases dropping with
      | count rest =>
        generalize hb : (Progress.blocked _ : Progress (Except Failure Unit)) = e at rest
        cases delete_trace rest with
        | near => cases hb
        | far uses answer => cases answer <;> cases hb
    | crashes dropping =>
      cases dropping with
      | count rest =>
        exact ⟨_, _, .undropped hlook hcorrupt (delete_trace rest) (.inl ⟨rfl, rfl⟩)⟩
    | @ends dropped _ _ _ dropping after =>
      cases dropping with
      | count rest =>
        have hdrop := delete_trace rest
        cases dropped with
        | error e =>
          cases after
          rw [List.append_nil]
          exact ⟨_, _, .undropped hlook hcorrupt hdrop (.inr ⟨e, rfl, rfl⟩)⟩
        | ok _ =>
          rcases seek_trace true after (fun v => rfl) (fun g hg => by simp [hg])
            (fun g hg _ => by simp [hg, pure]) with
            ⟨looks, made, hseek⟩ | ⟨g, first, second, -, hno, -⟩
          · exact ⟨_, _, .twice hlook hcorrupt hdrop hseek⟩
          · cases hno

/-! ## What the look-ups call for -/

/-- What the caller's destination holds after a call. -/
def destAfter (dest : Value) : Progress Reading → Value
  | .finished (.ok (some v)) => v
  | _ => dest

/-- The contacts by which a key is deleted from exactly the tiers that are there and not skipped,
once from each. -/
structure Sweeps (s : Setup) (key : String) (skip : Skip) (log : List Contact) : Prop where
  near : log.countP (fun | .drop _ => true | _ => false) =
    if s.near = true ∧ skip.near = false then 1 else 0
  far : log.countP (fun | .ask (.delete _) _ => true | _ => false) =
    if s.far = true ∧ skip.far = false then 1 else 0
  only : ∀ x ∈ log, x = .drop key ∨ ∃ answer, x = .ask (.delete [key]) answer

/-- The tiers that are there and not skipped were asked to hold a value, each in its way. -/
def Stores (s : Setup) (ty : Ty) (item : Item ρ) (v : Value) (log : List Contact) : Prop :=
  ∃ data, s.envelope.encode ty v = .ok data ∧
    (s.usesNear item.options = true →
      .put item.key (contentOf ty v data item.options) item.options.lifetime true ∈ log) ∧
    (s.usesFar item.options = true → ∃ answer, .ask
      (.write item.options.condition item.key data item.options.lifetime) answer ∈ log)

/-- What a call does is what its look-ups call for: `looks` are their answers, `made` is what was
computed, `log` are the contacts of the call, and `r` is what it has come to. -/
structure CalledFor (s : Setup) (ty : Ty) (item : Item ρ) (looks : List Reading)
    (made : Option (Except Failure Value)) (log : List Contact) (r : Progress Reading)
    (dest : Value) : Prop where
  /-- A key is looked up a second time only if its entry could not be read. -/
  looked : looks.length ≤ 2 ∧
    (looks.length = 2 → ∃ f, looks.head? = some (.error f) ∧ f.isCorruption = true)
  /-- A value is computed only if the last look-up has found nothing. -/
  used : made.isSome = true ∨ .startLoad ∈ log →
    ∃ f, looks.getLast? = some (.error f) ∧ f.isMissing = true
  /-- What is computed is what the loader gives, or else the value of the item. -/
  source : ∀ m, made = some m → (item.loader = none ∧ m = plainOf item) ∨
    (item.loader.isSome = true ∧ ∃ answer, .given answer ∈ log ∧ m = loadedOf answer)
  /-- A value that is found goes to the destination, and nothing is written but a copy of it. -/
  found : ∀ v, looks.getLast? = some (.ok v) →
    r = .finished (.ok v) ∧ destAfter dest r = v.getD dest ∧ OnlyCopies item.key log
  /-- Another failure is given back at once. -/
  failed : ∀ f, looks.getLast? = some (.error f) → f.isMissing = false → f.isCorruption = false →
    r = .finished (.error f) ∧ .startLoad ∉ log ∧ OnlyCopies item.key log ∧
      (looks.length = 1 → ∀ x ∈ log, x.deletes = false)
  /-- An entry that cannot be read is dropped once, from the tiers that are not skipped. -/
  dropped : ∀ f, looks.head? = some (.error f) → f.isCorruption = true →
    ∃ first swept rest, log = first ++ .count .heal :: (swept ++ rest) ∧
      Sweeps s item.key item.options.skip swept ∧ OnlyForgets first ∧ OnlyForgets rest
  /-- No other entry is dropped. -/
  undropped : (∀ f, looks.head? = some (.error f) → f.isCorruption = false) → OnlyForgets log
  /-- When the entry still cannot be read this is given back. -/
  recurs : ∀ f, looks.length = 2 → looks.getLast? = some (.error f) → f.isCorruption = true →
    r = .finished (.error f)
  /-- When no value can be computed nothing is written. -/
  unmade : ∀ f, made = some (.error f) → r = .finished (.error f) ∧ OnlyCopies item.key log
  /-- When a value was computed and the call succeeds, it goes to the destination, and was
  written. -/
  stored : ∀ v x, made = some (.ok v) → r = .finished (.ok x) →
    x = some v ∧ destAfter dest r = v ∧ Stores s ty item v log
  /-- A failure leaves the destination alone. -/
  unchanged : ∀ f, r = .finished (.error f) → destAfter dest r = dest

/-! ## The parts -/

/-- What contacts of a look-up leave alone. -/
structure Harmless (key : String) (log : List Contact) : Prop where
  copies : OnlyCopies key log
  keeps : ∀ x ∈ log, x.deletes = false
  idle : .startLoad ∉ log
  whole : .count .heal ∉ log

lemma Harmless.append (h : Harmless key log) (h' : Harmless key log') :
    Harmless key (log ++ log') where
  copies := h.copies.append h'.copies
  keeps x hx := (List.mem_append.mp hx).elim (h.keeps x) (h'.keeps x)
  idle hmem := (List.mem_append.mp hmem).elim h.idle h'.idle
  whole hmem := (List.mem_append.mp hmem).elim h.whole h'.whole

/-- A look-up in the near tier leaves all alone. -/
lemma harmless_seeking : Harmless key (s.seeking key o) := by
  unfold seeking
  split <;> exact ⟨.of_none (by simp [Contact.stores]), by simp [Contact.deletes], by simp, by simp⟩

/-- A look-up in the far tier leaves all alone, and copies what it finds. -/
lemma FetchTrace.harmless {r : Progress Outcome} (h : s.FetchTrace key o log r) :
    Harmless key log := by
  cases h with
  | unused => exact ⟨.of_none (by simp), by simp, by simp, by simp⟩
  | failed =>
    exact ⟨.of_none (by simp [missing, Contact.stores]), by simp [missing, Contact.deletes],
      by simp [missing], by simp [missing]⟩
  | crashed =>
    exact ⟨.of_none (by simp [Contact.stores]), by simp [Contact.deletes], by simp, by simp⟩
  | copied _ data =>
    unfold laying fetching
    split
    · refine ⟨fun x hx hstores => ⟨data, o.lifetime, true, ?_, by simp⟩, by simp [Contact.deletes],
        by simp, by simp⟩
      simp only [List.mem_append, List.mem_cons, List.not_mem_nil, or_false] at hx
      rcases hx with (rfl | rfl | rfl) | rfl <;> first | rfl | cases hstores
    · exact ⟨.of_none (by simp [Contact.stores]), by simp [Contact.deletes], by simp, by simp⟩
  | copyCrashed _ _ data =>
    unfold fetching
    refine ⟨fun x hx hstores => ⟨data, o.lifetime, false, ?_, by simp⟩, by simp [Contact.deletes],
      by simp, by simp⟩
    simp only [List.mem_append, List.mem_cons, List.not_mem_nil, or_false] at hx
    rcases hx with (rfl | rfl | rfl) | rfl <;> first | rfl | cases hstores

/-- **A look-up** leaves all alone, and copies what it finds in the far tier into the near tier. -/
lemma LookupTrace.harmless {r : Progress Reading} (h : s.LookupTrace ty key o log r) :
    Harmless key log := by
  cases h with
  | skipped => exact ⟨.of_none (by simp), by simp, by simp, by simp⟩
  | noTiers => exact ⟨.of_none (by simp), by simp, by simp, by simp⟩
  | near => exact ⟨.of_none (by simp [Contact.stores]), by simp [Contact.deletes], by simp, by simp⟩
  | unfound fetch => exact harmless_seeking.append fetch.harmless
  | far fetch => exact harmless_seeking.append fetch.harmless
  | crashed fetch => exact harmless_seeking.append fetch.harmless

/-- **A deletion** goes to exactly the tiers that are there and not skipped. -/
lemma DeleteTrace.sweeps {skip : Skip} {r : Progress (Except Failure Unit)}
    (h : s.DeleteTrace key skip log r) : Sweeps s key skip log := by
  cases h with
  | near unused =>
    unfold sweeping
    refine ⟨?_, ?_, ?_⟩ <;> cases s.near <;> cases skip.near <;> simp_all
  | far uses answer =>
    unfold sweeping
    refine ⟨?_, ?_, ?_⟩ <;> cases s.near <;> cases skip.near <;> simp_all

/-- What computing and writing a value does. -/
structure Makes (s : Setup) (ty : Ty) (item : Item ρ) (made : Option (Except Failure Value))
    (log : List Contact) (r : Progress Reading) : Prop where
  source : ∀ m, made = some m → (item.loader = none ∧ m = plainOf item) ∨
    (item.loader.isSome = true ∧ ∃ answer, .given answer ∈ log ∧ m = loadedOf answer)
  unmade : ∀ f, made = some (.error f) → r = .finished (.error f) ∧ OnlyCopies item.key log
  stored : ∀ v x, made = some (.ok v) → r = .finished (.ok x) → x = some v ∧ Stores s ty item v log
  forgets : OnlyForgets log

/-- Where a computed value comes from. -/
lemma ProduceTrace.source {mode : String} {m : Except Failure Value}
    (h : ProduceTrace item mode log (.finished m)) : (item.loader = none ∧ m = plainOf item) ∨
      (item.loader.isSome = true ∧ ∃ answer, .given answer ∈ log ∧ m = loadedOf answer) := by
  cases h with
  | plain none => exact .inl ⟨none, rfl⟩
  | given loader answer => exact .inr ⟨loader, answer, by simp, rfl⟩

/-- Computing a value writes and deletes nothing. -/
lemma ProduceTrace.harmless {mode : String} {r : Progress (Except Failure Value)}
    (h : ProduceTrace item mode log r) (key : String) : OnlyCopies key log ∧ OnlyForgets log := by
  cases h <;>
    exact ⟨.of_none (by simp [Contact.stores]), .of_none (by simp) (by simp [Contact.deletes])⟩

/-- A write deletes nothing, but the near tier forgets a key when the far tier has refused it. -/
lemma StoreTrace.forgets {v : Value} {data : Bytes} {r : Progress (Except Failure Unit)}
    (h : s.StoreTrace ty key v data o log r) : OnlyForgets log := by
  have hlaid : OnlyForgets (s.laying key (contentOf ty v data o) o) := by
    unfold laying
    split <;> exact .of_none (by simp) (by simp [Contact.deletes])
  cases h with
  | skipped => exact .of_none (by simp) (by simp)
  | noTiers => exact .of_none (by simp) (by simp)
  | putCrashed => exact .of_none (by simp) (by simp [Contact.deletes])
  | near => exact hlaid
  | applied _ applied =>
    refine hlaid.append ?_
    cases applied with
    | true => exact .of_none (by simp [settling]) (by simp [settling, Contact.deletes])
    | false =>
      unfold settling dropping
      refine ⟨by split <;> simp, fun x hx hdeletes => ?_⟩
      rcases List.mem_cons.mp hx with rfl | hx
      · cases hdeletes
      · refine ⟨⟨key, ?_⟩, o.condition, key, data, o.lifetime, List.mem_cons_self⟩
        split at hx
        · cases hx
        · split at hx
          · exact List.mem_singleton.mp hx
          · cases hx
  | failed => exact hlaid.append (.of_none (by simp) (by simp [Contact.deletes]))
  | crashed => exact hlaid.append (.of_none (by simp) (by simp [Contact.deletes]))

/-- **A write that succeeds** has asked the tiers that are there and not skipped. -/
lemma StoreTrace.stores {v : Value} {data : Bytes} {x : Unit}
    (h : s.StoreTrace ty item.key v data item.options log (.finished (.ok x)))
    (hencode : s.envelope.encode ty v = .ok data) : Stores s ty item v log := by
  have hlaid : s.usesNear item.options = true →
      .put item.key (contentOf ty v data item.options) item.options.lifetime true ∈
        s.laying item.key (contentOf ty v data item.options) item.options := by
    intro huses
    rw [laying, if_pos huses]
    exact List.mem_singleton_self _
  cases h with
  | skipped skips =>
    have hno : ¬ (s.usesNear item.options = true ∨ s.usesFar item.options = true) := by
      intro huses
      rw [(hasTier_of_uses huses).2] at skips
      cases skips
    exact ⟨data, hencode, fun h => absurd (.inl h) hno, fun h => absurd (.inr h) hno⟩
  | near unused =>
    refine ⟨data, hencode, hlaid, fun huses => ?_⟩
    rw [unused] at huses
    cases huses
  | applied uses applied =>
    exact ⟨data, hencode, fun huses => List.mem_append_left _ (hlaid huses),
      fun _ => ⟨_, List.mem_append_right _ List.mem_cons_self⟩⟩

/-- More contacts. -/
lemma Stores.append {v : Value} (h : Stores s ty item v log') :
    Stores s ty item v (log ++ log') := by
  obtain ⟨data, hencode, hnear, hfar⟩ := h
  exact ⟨data, hencode, fun huses => List.mem_append_right _ (hnear huses),
    fun huses => (hfar huses).imp fun _ => List.mem_append_right _⟩

/-- **Computing and writing a value** does that. -/
lemma MakeTrace.makes {made : Option (Except Failure Value)} {r : Progress Reading}
    (h : s.MakeTrace ty item made log r) : Makes s ty item made log r := by
  have hsource : ∀ {log log' : List Contact} {m : Except Failure Value},
      ProduceTrace item "take" log (.finished m) → ∀ m', some m = some m' →
        (item.loader = none ∧ m' = plainOf item) ∨ (item.loader.isSome = true ∧
          ∃ answer, .given answer ∈ log ++ log' ∧ m' = loadedOf answer) := by
    intro log log' m hproduce m' hm
    obtain rfl := Option.some.inj hm
    exact hproduce.source.imp id fun ⟨hloader, answer, hmem, heq⟩ =>
      ⟨hloader, answer, List.mem_append_left _ hmem, heq⟩
  cases h with
  | awaits produce =>
    exact ⟨by simp, by simp, by simp, (produce.harmless item.key).2⟩
  | unmade produce =>
    obtain ⟨hcopies, hforgets⟩ := produce.harmless item.key
    refine ⟨List.append_nil log ▸ hsource produce, fun f hf => ?_, by simp, hforgets⟩
    cases hf
    exact ⟨rfl, hcopies⟩
  | unencoded produce encode =>
    obtain ⟨-, hforgets⟩ := produce.harmless item.key
    exact ⟨List.append_nil log ▸ hsource produce, by simp, by simp, hforgets⟩
  | unstored produce encode store =>
    obtain ⟨-, hforgets⟩ := produce.harmless item.key
    exact ⟨hsource produce, by simp, by simp, hforgets.append store.forgets⟩
  | stored produce encode store =>
    obtain ⟨-, hforgets⟩ := produce.harmless item.key
    refine ⟨hsource produce, by simp, fun v x hv hx => ?_, hforgets.append store.forgets⟩
    cases hv
    cases hx
    exact ⟨rfl, (store.stores encode).append⟩
  | crashed produce encode store =>
    obtain ⟨-, hforgets⟩ := produce.harmless item.key
    exact ⟨hsource produce, by simp, by simp, hforgets.append store.forgets⟩

/-! ## Assembly -/

/-- What a look-up and what it calls for do, unless an entry is dropped. -/
structure Seeks (s : Setup) (ty : Ty) (item : Item ρ) (again : Bool) (looks : List Reading)
    (made : Option (Except Failure Value)) (log : List Contact) (r : Progress Reading) : Prop where
  short : looks = [] ∨ ∃ x, looks = [x]
  used : made.isSome = true ∨ .startLoad ∈ log →
    ∃ f, looks = [.error f] ∧ f.isMissing = true
  found : ∀ v, looks = [.ok v] → r = .finished (.ok v) ∧ OnlyCopies item.key log
  failed : ∀ f, looks = [.error f] → f.isMissing = false →
    r = .finished (.error f) ∧ Harmless item.key log ∧ (again = true ∨ f.isCorruption = false)
  makes : Makes s ty item made log r

/-- **A look-up and what it calls for** do that. -/
lemma SeekTrace.seeks {again : Bool} {looks : List Reading} {made : Option (Except Failure Value)}
    {r : Progress Reading} (h : s.SeekTrace ty item again looks made log r) :
    Seeks s ty item again looks made log r := by
  have hnone : ∀ {log : List Contact} {r : Progress Reading}, Harmless item.key log →
      Makes s ty item none log r :=
    fun h => ⟨by simp, by simp, by simp, .of_none h.whole h.keeps⟩
  cases h with
  | crashed look =>
    have hlook := look.harmless
    exact ⟨.inl rfl, by simp [hlook.idle], by simp, by simp, hnone hlook⟩
  | found look =>
    have hlook := look.harmless
    refine ⟨.inr ⟨_, rfl⟩, by simp [hlook.idle], fun v hv => ?_, by simp, hnone hlook⟩
    cases hv
    exact ⟨rfl, hlook.copies⟩
  | failed look there kept =>
    have hlook := look.harmless
    refine ⟨.inr ⟨_, rfl⟩, by simp [hlook.idle], by simp, fun f hf hthere => ?_, hnone hlook⟩
    cases hf
    exact ⟨rfl, hlook, kept⟩
  | missing look missing make =>
    have hlook := look.harmless
    obtain ⟨hsource, hunmade, hstored, hforgets⟩ := make.makes
    refine ⟨.inr ⟨_, rfl⟩, fun _ => ⟨_, rfl, missing⟩, by simp, fun f hf hthere => ?_, ?_⟩
    · cases hf
      rw [missing] at hthere
      cases hthere
    · refine ⟨fun m hm => ?_, fun f hf => ?_, fun v x hv hx => ?_, ?_⟩
      · exact (hsource m hm).imp id fun ⟨hloader, answer, hmem, heq⟩ =>
          ⟨hloader, answer, List.mem_append_right _ hmem, heq⟩
      · obtain ⟨hr, hcopies⟩ := hunmade f hf
        exact ⟨hr, hlook.copies.append hcopies⟩
      · obtain ⟨hx, hstores⟩ := hstored v x hv hx
        exact ⟨hx, hstores.append⟩
      · exact (OnlyForgets.of_none hlook.whole hlook.keeps).append hforgets

/-- A deletion writes nothing and starts no loader. -/
lemma Sweeps.calm {skip : Skip} (h : Sweeps s key skip log) :
    OnlyCopies key (.count .heal :: log) ∧ .startLoad ∉ .count .heal :: log := by
  refine ⟨.of_none fun x hx => ?_, fun hmem => ?_⟩
  · rcases List.mem_cons.mp hx with rfl | hx
    · rfl
    · rcases h.only x hx with rfl | ⟨answer, rfl⟩ <;> rfl
  · rcases List.mem_cons.mp hmem with hx | hx
    · cases hx
    · rcases h.only _ hx with hx | ⟨answer, hx⟩ <;> cases hx

/-- What a caller's destination holds when a value was found. -/
lemma destAfter_found {r : Progress Reading} {v : Option Value} (h : r = .finished (.ok v))
    (dest : Value) : destAfter dest r = v.getD dest := by
  subst h
  cases v <;> rfl

/-- A failure leaves the destination alone. -/
lemma destAfter_failed {r : Progress Reading} {f : Failure} (h : r = .finished (.error f))
    (dest : Value) : destAfter dest r = dest := by
  subst h
  rfl

/-- A call that drops no entry. -/
lemma Seeks.calledFor {looks : List Reading} {made : Option (Except Failure Value)}
    {r : Progress Reading} (h : Seeks s ty item false looks made log r) (dest : Value) :
    CalledFor s ty item looks made log r dest := by
  have hlast : ∀ x, looks.getLast? = some x → looks = [x] := by
    intro x hx
    rcases h.short with rfl | ⟨y, rfl⟩
    · cases hx
    · exact congrArg (fun z => [z]) (Option.some.inj hx)
  have hhead : ∀ x, looks.head? = some x → looks = [x] := by
    intro x hx
    rcases h.short with rfl | ⟨y, rfl⟩
    · cases hx
    · exact congrArg (fun z => [z]) (Option.some.inj hx)
  have hlength : looks.length ≤ 1 := by
    rcases h.short with rfl | ⟨y, rfl⟩ <;> simp
  refine {
    looked := ⟨Nat.le_succ_of_le hlength, fun htwo => by omega⟩
    used := fun hused => ?_
    source := h.makes.source
    found := fun v hv => ?_
    failed := fun f hf hthere _ => ?_
    dropped := fun f hf hcorrupt => ?_
    undropped := fun _ => h.makes.forgets
    recurs := fun f htwo => by omega
    unmade := h.makes.unmade
    stored := fun v x hv hx => ?_
    unchanged := fun f hf => destAfter_failed hf dest }
  · obtain ⟨f, hlooks, hmissing⟩ := h.used hused
    exact ⟨f, by rw [hlooks]; rfl, hmissing⟩
  · obtain ⟨hr, hcopies⟩ := h.found v (hlast _ hv)
    exact ⟨hr, destAfter_found hr dest, hcopies⟩
  · obtain ⟨hr, hharmless, -⟩ := h.failed f (hlast _ hf) hthere
    exact ⟨hr, hharmless.idle, hharmless.copies, fun _ => hharmless.keeps⟩
  · -- an entry that cannot be read would have been dropped
    have hthere := Failure.not_missing_of_corruption hcorrupt
    obtain ⟨-, -, hkept⟩ := h.failed f (hhead _ hf) hthere
    rw [hcorrupt, Bool.true_eq_false, Bool.false_eq_true, or_false] at hkept
    exact hkept.elim
  · obtain ⟨rfl, hstores⟩ := h.makes.stored v x hv hx
    exact ⟨rfl, destAfter_found hx dest, hstores⟩

/-- A call whose deletion fails or crashes. -/
lemma calledFor_undropped {f : Failure} {r : Progress Reading} (hlook : Harmless item.key log)
    (hcorrupt : f.isCorruption = true) (hswept : Sweeps s item.key item.options.skip log')
    (dest : Value) :
    CalledFor s ty item [.error f] none (log ++ .count .heal :: log') r dest := by
  refine {
    looked := ⟨by simp, by simp⟩
    used := fun hused => ?_
    source := by simp
    found := by simp
    failed := fun g hg _ hkept => ?_
    dropped := fun _ _ _ => ⟨log, log', [], by rw [List.append_nil], hswept,
      .of_none hlook.whole hlook.keeps, .of_none (by simp) (by simp)⟩
    undropped := fun hno => ?_
    recurs := by simp
    unmade := by simp
    stored := by simp
    unchanged := fun f hf => destAfter_failed hf dest }
  · rcases hused with hmade | hmem
    · cases hmade
    · rcases List.mem_append.mp hmem with hmem | hmem
      · exact absurd hmem hlook.idle
      · exact absurd hmem hswept.calm.2
  · cases hg
    rw [hcorrupt] at hkept
    cases hkept
  · have hkept := hno f rfl
    rw [hcorrupt] at hkept
    cases hkept

/-- A call that drops an entry and looks its key up again. -/
lemma Seeks.calledFor_again {f : Failure} {looks : List Reading}
    {made : Option (Except Failure Value)} {log'' : List Contact} {r : Progress Reading}
    (h : Seeks s ty item true looks made log'' r) (hlook : Harmless item.key log)
    (hcorrupt : f.isCorruption = true) (hswept : Sweeps s item.key item.options.skip log')
    (dest : Value) :
    CalledFor s ty item (.error f :: looks) made (log ++ .count .heal :: (log' ++ log'')) r
      dest := by
  obtain ⟨hcopies, hidle⟩ := hswept.calm
  -- what comes before the second look-up
  have hbefore : OnlyCopies item.key (log ++ .count .heal :: log') := hlook.copies.append hcopies
  have hassoc : log ++ .count .heal :: (log' ++ log'') =
      (log ++ .count .heal :: log') ++ log'' := by
    simp
  have hlast : ∀ x, (.error f :: looks).getLast? = some x → looks = [x] ∨ x = .error f := by
    intro x hx
    rcases h.short with rfl | ⟨y, rfl⟩
    · exact .inr (Option.some.inj hx).symm
    · exact .inl (congrArg (fun z => [z]) (Option.some.inj hx))
  have hlength : looks.length ≤ 1 := by
    rcases h.short with rfl | ⟨y, rfl⟩ <;> simp
  rw [hassoc]
  refine {
    looked := ⟨Nat.succ_le_succ hlength, fun _ => ⟨f, rfl, hcorrupt⟩⟩
    used := fun hused => ?_
    source := fun m hm => (h.makes.source m hm).imp id fun ⟨hloader, answer, hmem, heq⟩ =>
      ⟨hloader, answer, List.mem_append_right _ hmem, heq⟩
    found := fun v hv => ?_
    failed := fun g hg hthere hkept => ?_
    dropped := fun _ _ _ => ⟨log, log', log'', hassoc.symm, hswept,
      .of_none hlook.whole hlook.keeps, h.makes.forgets⟩
    undropped := fun hno => ?_
    recurs := fun g htwo hg hspoilt => ?_
    unmade := fun g hg => ?_
    stored := fun v x hv hx => ?_
    unchanged := fun f hf => destAfter_failed hf dest }
  · have hused' : made.isSome = true ∨ .startLoad ∈ log'' := by
      refine hused.imp id fun hmem => (List.mem_append.mp hmem).resolve_left fun hmem => ?_
      exact (List.mem_append.mp hmem).elim hlook.idle hidle
    obtain ⟨g, rfl, hmissing⟩ := h.used hused'
    exact ⟨g, rfl, hmissing⟩
  · rcases hlast _ hv with hlooks | hno
    · obtain ⟨hr, hcopies⟩ := h.found v hlooks
      exact ⟨hr, destAfter_found hr dest, hbefore.append hcopies⟩
    · cases hno
  · rcases hlast _ hg with hlooks | hsame
    · obtain ⟨hr, hharmless, -⟩ := h.failed g hlooks hthere
      refine ⟨hr, fun hmem => ?_, hbefore.append hharmless.copies, fun hone => ?_⟩
      · rcases List.mem_append.mp hmem with hmem | hmem
        · exact (List.mem_append.mp hmem).elim hlook.idle hidle
        · exact hharmless.idle hmem
      · rw [hlooks] at hone
        cases hone
    · cases hsame
      rw [hcorrupt] at hkept
      cases hkept
  · have hkept := hno f rfl
    rw [hcorrupt] at hkept
    cases hkept
  · rcases hlast _ hg with hlooks | hsame
    · exact (h.failed g hlooks (Failure.not_missing_of_corruption hspoilt)).1
    · -- there was a second look-up
      rcases h.short with rfl | ⟨y, rfl⟩
      · cases htwo
      · cases hsame
        cases hg
        exact (h.failed f rfl (Failure.not_missing_of_corruption hspoilt)).1
  · obtain ⟨hr, hcopies⟩ := h.makes.unmade g hg
    exact ⟨hr, hbefore.append hcopies⟩
  · obtain ⟨rfl, hstores⟩ := h.makes.stored v x hv hx
    exact ⟨rfl, destAfter_found hx dest, hstores.append⟩

/-- **Reading or computing does what its look-ups call for**, whatever the tiers answer and whatever
other callers do in between.

**Proof sketch.** The table of what reading or computing can go through has one row for each course
of its look-ups, and each row is read off. -/
theorem take_called_for [FarStore σ] (s : Setup) (ty : Ty) (item : Item ρ) (dest : Value)
    (log : List Contact) (r : Progress Reading) (h : Proceeds σ s (s.take ty item) log r) :
    ∃ looks made, s.TakeTrace ty item looks made log r ∧
      CalledFor s ty item looks made log r dest := by
  obtain ⟨looks, made, htrace⟩ := take_trace h.trace
  refine ⟨looks, made, htrace, ?_⟩
  cases htrace with
  | once seek => exact seek.seeks.calledFor dest
  | undropped look corrupt drop ends =>
    exact calledFor_undropped look.harmless corrupt drop.sweeps dest
  | twice look corrupt drop seek =>
    exact seek.seeks.calledFor_again look.harmless corrupt drop.sweeps dest

/-! ## A far tier that refuses a write -/

section Refusing

open Far

/-- A cache whose far tier knows no key and refuses conditional writes. -/
def refusing : Cache (Drill MemoryStore) :=
  { far := some {
      store := {}
      mishaps := [(.get, .fail .missing), (.write .ifAbsent, .lost)] } }

/-- An item whose value is written only where there is none. -/
def refusedItem : Item Unit :=
  { key := "k", loader := some (), options := { condition := .ifAbsent, ttl := 5 } }

/-- A caller whose loader gives a number. -/
def refusedVisit : Visit := ⟨0, 0, some (.ok (.int 7))⟩

/-- Reading or computing does what its look-ups call for there. The value that was loaded goes to
the destination, although the far tier has refused it. -/
theorem take_called_for_refused :
    Proceeds (Drill MemoryStore) refusing.setup
        (refusing.setup.take (.scalar (.int .int64)) refusedItem)
        ((refusing.setup.take (.scalar (.int .int64)) refusedItem).contacts refusedVisit refusing)
        (.finished (.ok (some (.int 7)))) ∧
      ∃ looks made,
        refusing.setup.TakeTrace (.scalar (.int .int64)) refusedItem looks made
          ((refusing.setup.take (.scalar (.int .int64)) refusedItem).contacts refusedVisit refusing)
          (.finished (.ok (some (.int 7)))) ∧
        CalledFor refusing.setup (.scalar (.int .int64)) refusedItem looks made
          ((refusing.setup.take (.scalar (.int .int64)) refusedItem).contacts refusedVisit refusing)
          (.finished (.ok (some (.int 7)))) (.int 0) := by
  have hruns : ((refusing.setup.take (.scalar (.int .int64)) refusedItem).run
      refusedVisit refusing).1 = .finished (.ok (some (.int 7))) := rfl
  have hproceeds := proceeds_run refusedVisit
    (refusing.setup.take (.scalar (.int .int64)) refusedItem) refusing
  rw [hruns] at hproceeds
  exact ⟨hproceeds, take_called_for _ _ _ _ _ _ hproceeds⟩

end Refusing

end Setup

end LayeredCache
