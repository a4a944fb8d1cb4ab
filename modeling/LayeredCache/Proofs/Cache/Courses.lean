import LayeredCache.Proofs.Cache.Traces

/-!
# What each part of an operation can go through

Every operation of the cache is put together from five parts: it looks a key up in the far tier or
in both tiers, it computes a value, it writes one into the tiers and it deletes one from them. Each
part can go through few lists of contacts. They are said here once, with what the part comes to.

## Main definitions

* `Setup.FetchTrace`, `Setup.LookupTrace` — look-ups.
* `Setup.DeleteTrace`, `Setup.StoreTrace` — deletions and writes.
* `Setup.ProduceTrace` — how a value is computed.

## Main results

* `Setup.fetch_trace`, `Setup.lookup_trace`, `Setup.delete_trace`, `Setup.store_trace`,
  `Setup.produce_trace` — there are no others.
-/

set_option autoImplicit false

namespace LayeredCache

namespace Setup

open Prog

variable {ρ : Type} {s : Setup} {ty : Ty} {key mode : String} {o : CallOptions} {skip : Skip}
  {content : Content} {v : Value} {data : Bytes} {item : Item ρ} {log : List Contact}

/-- A call that uses the near tier has one. -/
lemma near_of_usesNear (h : s.usesNear o = true) : s.near = true := by
  rw [usesNear, Bool.and_eq_true] at h
  exact h.1

/-- A call that uses the far tier has one. -/
lemma far_of_usesFar (h : s.usesFar o = true) : s.far = true := by
  rw [usesFar, Bool.and_eq_true] at h
  exact h.1

/-! ## The near tier -/

/-- The contacts of a write into the near tier, if the call uses it. -/
def laying (s : Setup) (key : String) (content : Content) (o : CallOptions) : List Contact :=
  if s.usesNear o then [.put key content o.lifetime true] else []

/-- The contacts of removing a key from the near tier, if there is one. -/
def dropping (s : Setup) (key : String) : List Contact := if s.near then [.drop key] else []

/-- What a write into the near tier can go through. -/
inductive LayTrace (s : Setup) (key : String) (content : Content) (o : CallOptions) :
    List Contact → Progress Unit → Prop where
  | laid : LayTrace s key content o (s.laying key content o) (.finished ())
  | crashed (uses : s.usesNear o = true) :
      LayTrace s key content o [.put key content o.lifetime false] .crashed

/-- A write into the near tier. -/
lemma lay_trace {r : Progress Unit} (h : Trace s (s.putNear key content o) log r) :
    s.LayTrace key content o log r := by
  unfold putNear at h
  cases huses : s.usesNear o with
  | false =>
    rw [huses] at h
    cases h
    have hlog : s.laying key content o = [] := by rw [laying, huses]; rfl
    exact hlog ▸ .laid
  | true =>
    rw [huses] at h
    cases h with
    | put there rest =>
      cases rest
      have hlog : s.laying key content o = [.put key content o.lifetime true] := by
        rw [laying, huses]
        rfl
      exact hlog ▸ .laid
    | putCrashed there => exact .crashed huses
    | putNone gone rest => cases gone.symm.trans (near_of_usesNear huses)

/-- Removing a key from the near tier. -/
lemma drop_trace {r : Progress Unit} (h : Trace s (s.dropNear key) log r) :
    log = s.dropping key ∧ r = .finished () := by
  unfold dropNear at h
  unfold dropping
  cases hnear : s.near with
  | false =>
    rw [hnear] at h
    cases h
    exact ⟨rfl, rfl⟩
  | true =>
    rw [hnear] at h
    cases h with
    | drop rest =>
      cases rest
      exact ⟨rfl, rfl⟩

/-! ## Look-ups -/

/-- The contacts of a look-up in the near tier that finds nothing, if the call uses this tier. -/
def seeking (s : Setup) (key : String) (o : CallOptions) : List Contact :=
  if s.usesNear o then [.find key none, .count (.miss nearLabel)] else []

/-- What a look-up in the near tier can go through. -/
inductive FindTrace (s : Setup) (key : String) (o : CallOptions) :
    List Contact → Progress (Option Content) → Prop where
  | found (uses : s.usesNear o = true) (content : Content) :
      FindTrace s key o [.find key (some content), .count (.hit nearLabel)]
        (.finished (some content))
  | missed : FindTrace s key o (s.seeking key o) (.finished none)

/-- A look-up in the near tier. -/
lemma find_trace {r : Progress (Option Content)} (h : Trace s (s.findNear key o) log r) :
    s.FindTrace key o log r := by
  unfold findNear at h
  cases huses : s.usesNear o with
  | false =>
    rw [huses] at h
    cases h
    have hlog : s.seeking key o = [] := by rw [seeking, huses]; rfl
    exact hlog ▸ .missed
  | true =>
    rw [huses] at h
    cases h with
    | find there found rest =>
      cases rest with
      | count rest =>
        cases rest
        cases found with
        | some content => exact .found huses content
        | none =>
          have hlog : s.seeking key o = [.find key none, .count (.miss nearLabel)] := by
            rw [seeking, huses]
            rfl
          exact hlog ▸ .missed
    | findNone gone rest => cases gone.symm.trans (near_of_usesNear huses)

/-- The contacts of a look-up in the far tier that finds bytes. -/
def fetching (key : String) (data : Bytes) : List Contact :=
  [.ask (.get key) (.reply data), .tally true, .count (.hit farLabel)]

/-- The contacts of a look-up in the far tier that fails. -/
def missing (key : String) (f : Failure) : List Contact :=
  [.ask (.get key) (.failure f), .tally false, .count (.miss farLabel)]

/-- What a look-up in the far tier can go through. -/
inductive FetchTrace (s : Setup) (key : String) (o : CallOptions) :
    List Contact → Progress Outcome → Prop where
  | unused (unused : s.usesFar o = false) : FetchTrace s key o [] (.finished (.error .missing))
  | failed (uses : s.usesFar o = true) (f : Failure) :
      FetchTrace s key o (missing key f) (.finished (.error f))
  | crashed (uses : s.usesFar o = true) : FetchTrace s key o [.ask (.get key) .crash] .crashed
  | copied (uses : s.usesFar o = true) (data : Bytes) :
      FetchTrace s key o (fetching key data ++ s.laying key (.stored data) o)
        (.finished (.ok data))
  | copyCrashed (uses : s.usesFar o = true) (usesNear : s.usesNear o = true) (data : Bytes) :
      FetchTrace s key o (fetching key data ++ [.put key (.stored data) o.lifetime false]) .crashed

/-- **A look-up in the far tier** copies what it finds into the near tier. -/
theorem fetch_trace {r : Progress Outcome} (h : Trace s (s.fetch key o) log r) :
    s.FetchTrace key o log r := by
  unfold fetch at h
  cases huses : s.usesFar o with
  | false =>
    rw [huses] at h
    cases h
    exact .unused huses
  | true =>
    rw [huses] at h
    cases h with
    | reply there data rest =>
      cases rest with
      | tally rest =>
        cases rest with
        | count rest =>
          cases Trace.of_bind rest with
          | ends first second =>
            cases second
            cases lay_trace first
            rw [List.append_nil]
            exact .copied huses data
          | waits first => cases lay_trace first
          | crashes first =>
            cases lay_trace first with
            | crashed usesNear => exact .copyCrashed huses usesNear data
    | failure there cause rest =>
      cases rest with
      | tally rest =>
        cases rest with
        | count rest =>
          cases rest
          exact .failed huses cause
    | callCrashed there => exact .crashed huses
    | callNone gone rest => cases gone.symm.trans (far_of_usesFar huses)

/-- What a look-up can go through. -/
inductive LookupTrace (s : Setup) (ty : Ty) (key : String) (o : CallOptions) :
    List Contact → Progress (Except Failure (Option Value)) → Prop where
  | skipped (skips : o.skip.covers .all = true) :
      LookupTrace s ty key o [] (.finished (.error .missing))
  | noTiers (skips : o.skip.covers .all = false) (none : s.hasTier = false) :
      LookupTrace s ty key o [] (.finished (.error .noTiers))
  | near (uses : s.usesNear o = true) (content : Content) :
      LookupTrace s ty key o [.find key (some content), .count (.hit nearLabel)]
        (.finished (content.read ty))
  | unfound {log : List Contact} {f : Failure}
      (fetch : s.FetchTrace key o log (.finished (.error f))) :
      LookupTrace s ty key o (s.seeking key o ++ log) (.finished (.error f))
  | far {log : List Contact} {data : Bytes}
      (fetch : s.FetchTrace key o log (.finished (.ok data))) :
      LookupTrace s ty key o (s.seeking key o ++ log) (.finished ((Content.stored data).read ty))
  | crashed {log : List Contact} (fetch : s.FetchTrace key o log .crashed) :
      LookupTrace s ty key o (s.seeking key o ++ log) .crashed

/-- **A look-up** asks the near tier and, if that finds nothing, the far tier. -/
theorem lookup_trace {r : Progress (Except Failure (Option Value))}
    (h : Trace s (s.lookup ty key o) log r) : s.LookupTrace ty key o log r := by
  unfold lookup at h
  split at h
  · rename_i hskip
    cases h
    exact .skipped hskip
  · rename_i hskip
    rw [Bool.not_eq_true] at hskip
    split at h
    · rename_i htier
      cases h
      exact .noTiers hskip (by simpa using htier)
    · cases Trace.of_bind h with
      | ends first second =>
        cases find_trace first with
        | found uses content =>
          cases second
          exact .near uses content
        | missed =>
          cases Trace.of_bind second with
          | @ends outcome _ _ _ first second =>
            cases outcome with
            | error f =>
              cases second
              rw [List.append_nil]
              exact .unfound (fetch_trace first)
            | ok data =>
              cases second
              rw [List.append_nil]
              exact .far (fetch_trace first)
          | waits first => cases fetch_trace first
          | crashes first => exact .crashed (fetch_trace first)
      | waits first => cases find_trace first
      | crashes first => cases find_trace first

/-! ## Deletions and writes -/

/-- What a request without a reply of interest comes to. -/
def endOf {request : Far.Request} : Far.Answer request → Progress (Except Failure Unit)
  | .reply _ => .finished (.ok ())
  | .failure f => .finished (.error f)
  | .crash => .crashed

/-- The contacts of removing a key from the near tier unless it is skipped. -/
def sweeping (s : Setup) (key : String) (skip : Skip) : List Contact :=
  if s.near && !skip.near then [.drop key] else []

/-- What a deletion can go through. -/
inductive DeleteTrace (s : Setup) (key : String) (skip : Skip) :
    List Contact → Progress (Except Failure Unit) → Prop where
  | near (unused : (s.far && !skip.far) = false) :
      DeleteTrace s key skip (s.sweeping key skip) (.finished (.ok ()))
  | far (uses : (s.far && !skip.far) = true) (answer : Far.Answer (.delete [key])) :
      DeleteTrace s key skip (s.sweeping key skip ++ [.ask (.delete [key]) answer]) (endOf answer)

/-- **A deletion** removes a key from the tiers that are there and not skipped. -/
theorem delete_trace {r : Progress (Except Failure Unit)}
    (h : Trace s (s.deleteFrom key skip) log r) : s.DeleteTrace key skip log r := by
  obtain ⟨hnear, hfar, -⟩ := covers_eq skip
  have hasks : ∀ {log : List Contact} {r : Progress (Except Failure Unit)}
      (next : Except Failure (Far.Request.delete [key]).Reply → Prog (Except Failure Unit)),
      Trace s (if s.far && !skip.far then .call (.delete [key]) next else .done (.ok ())) log r →
      (∀ f, next (.error f) = .done (.error f)) → (∀ reply, next (.ok reply) = .done (.ok ())) →
        s.DeleteTrace key skip (s.sweeping key skip ++ log) r := by
    intro log r next h herror hok
    cases huses : s.far && !skip.far with
    | false =>
      rw [huses] at h
      cases h
      rw [List.append_nil]
      exact .near huses
    | true =>
      rw [huses] at h
      cases h with
      | reply there value rest =>
        rw [hok] at rest
        cases rest
        exact .far huses (.reply value)
      | failure there cause rest =>
        rw [herror] at rest
        cases rest
        exact .far huses (.failure cause)
      | callCrashed there => exact .far huses .crash
      | callNone gone rest => rw [gone] at huses; cases huses
  unfold deleteFrom at h
  rw [hnear, hfar] at h
  cases hskip : skip.near with
  | true =>
    rw [hskip] at h
    have hclear : s.sweeping key skip = [] := by simp [sweeping, hskip]
    have hrest := hasks _ h (fun _ => rfl) fun _ => rfl
    rwa [hclear, List.nil_append] at hrest
  | false =>
    rw [hskip] at h
    have hclear : s.sweeping key skip = s.dropping key := by simp [sweeping, dropping, hskip]
    cases Trace.of_bind h with
    | ends first second =>
      obtain ⟨rfl, -⟩ := drop_trace first
      rw [← hclear]
      exact hasks _ second (fun _ => rfl) fun _ => rfl
    | waits first => cases (drop_trace first).2
    | crashes first => cases (drop_trace first).2

/-- The contacts of what follows the answer to a write: when a conditional write was refused, the
near tier forgets the key. -/
def settling (s : Setup) (key : String) (o : CallOptions) (applied : Bool) : List Contact :=
  if applied || o.condition == .always then [] else s.dropping key

/-- What a write can go through. -/
inductive StoreTrace (s : Setup) (ty : Ty) (key : String) (v : Value) (data : Bytes)
    (o : CallOptions) : List Contact → Progress (Except Failure Unit) → Prop where
  | skipped (skips : o.skip.covers .all = true) :
      StoreTrace s ty key v data o [] (.finished (.ok ()))
  | noTiers (skips : o.skip.covers .all = false) (none : s.hasTier = false) :
      StoreTrace s ty key v data o [] (.finished (.error .noTiers))
  | putCrashed (uses : s.usesNear o = true) :
      StoreTrace s ty key v data o [.put key (contentOf ty v data o) o.lifetime false] .crashed
  | near (unused : s.usesFar o = false) :
      StoreTrace s ty key v data o (s.laying key (contentOf ty v data o) o) (.finished (.ok ()))
  | applied (uses : s.usesFar o = true) (applied : Bool) :
      StoreTrace s ty key v data o
        (s.laying key (contentOf ty v data o) o ++
          .ask (.write o.condition key data o.lifetime) (.reply applied) ::
            s.settling key o applied) (.finished (.ok ()))
  | failed (uses : s.usesFar o = true) (f : Failure) :
      StoreTrace s ty key v data o
        (s.laying key (contentOf ty v data o) o ++
          [.ask (.write o.condition key data o.lifetime) (.failure f)]) (.finished (.error f))
  | crashed (uses : s.usesFar o = true) :
      StoreTrace s ty key v data o
        (s.laying key (contentOf ty v data o) o ++
          [.ask (.write o.condition key data o.lifetime) .crash]) .crashed

/-- **A write** goes to the near tier and then to the far tier, if the call uses them. -/
theorem store_trace {r : Progress (Except Failure Unit)}
    (h : Trace s (s.store ty key v data o) log r) : s.StoreTrace ty key v data o log r := by
  unfold store at h
  split at h
  · rename_i hskip
    cases h
    exact .skipped hskip
  · rename_i hskip
    rw [Bool.not_eq_true] at hskip
    split at h
    · rename_i htier
      cases h
      exact .noTiers hskip (by simpa using htier)
    · cases Trace.of_bind h with
      | waits first => cases lay_trace first
      | crashes first =>
        cases lay_trace first with
        | crashed uses => exact .putCrashed uses
      | ends first second =>
        cases lay_trace first
        cases huses : s.usesFar o with
        | false =>
          rw [huses] at second
          cases second
          rw [List.append_nil]
          exact .near huses
        | true =>
          rw [huses] at second
          cases second with
          | failure there cause rest => cases rest; exact .failed huses cause
          | callCrashed there => exact .crashed huses
          | callNone gone rest => cases gone.symm.trans (far_of_usesFar huses)
          | reply there applied rest =>
            have hsettled : Trace s (if applied || o.condition == .always then .done (.ok ())
                else (s.dropNear key).bind fun _ => .done (.ok ())) _ r := rest
            cases hkeeps : applied || o.condition == .always with
            | true =>
              rw [hkeeps] at hsettled
              cases hsettled
              have hlog : s.settling key o applied = [] := by rw [settling, hkeeps]; rfl
              exact hlog ▸ .applied huses applied
            | false =>
              rw [hkeeps] at hsettled
              cases Trace.of_bind hsettled with
              | ends first second =>
                cases second
                obtain ⟨rfl, -⟩ := drop_trace first
                have hlog : s.settling key o applied = s.dropping key := by
                  rw [settling, hkeeps]
                  rfl
                rw [List.append_nil, ← hlog]
                exact .applied huses applied
              | waits first => cases (drop_trace first).2
              | crashes first => cases (drop_trace first).2

/-! ## Computing a value -/

/-- What a caller makes of what its loader gave. -/
def loadedOf : Except LoadFailure Value → Except Failure Value
  | .ok v => .ok v
  | .error reason => .error (.loader reason)

/-- The value of an item without a loader. -/
def plainOf (item : Item ρ) : Except Failure Value :=
  match item.value with
  | some v => .ok v
  | none => .error .missing

/-- Computing a value with a loader is waiting for what it gives. -/
lemma produce_of_loader {loader : ρ} (h : item.loader = some loader) (mode : String) :
    produce item mode =
      .count (.load mode) (.startLoad (.awaitLoad fun answer => .done (loadedOf answer))) := by
  rw [produce, h]
  refine congrArg (fun next => Prog.count (.load mode) (.startLoad (.awaitLoad next))) ?_
  funext answer
  cases answer <;> rfl

/-- Computing a value without a loader is taking the one of the item. -/
lemma produce_of_plain (h : item.loader = none) (mode : String) :
    produce item mode = .count (.load mode) (.done (plainOf item)) := by
  rw [produce, h, plainOf]
  cases item.value <;> rfl

/-- What computing a value can go through. -/
inductive ProduceTrace (item : Item ρ) (mode : String) :
    List Contact → Progress (Except Failure Value) → Prop where
  | plain (none : item.loader = none) :
      ProduceTrace item mode [.count (.load mode)] (.finished (plainOf item))
  | given (loader : item.loader.isSome = true) (answer : Except LoadFailure Value) :
      ProduceTrace item mode [.count (.load mode), .startLoad, .given answer]
        (.finished (loadedOf answer))
  | awaits (loader : item.loader.isSome = true)
      (next : Except LoadFailure Value → Prog (Except Failure Value)) :
      ProduceTrace item mode [.count (.load mode), .startLoad] (.blocked (.awaitLoad next))

/-- **A value** is computed by the loader, or else taken from the item. -/
theorem produce_trace {r : Progress (Except Failure Value)}
    (h : Trace s (produce item mode) log r) : ProduceTrace item mode log r := by
  cases hloader : item.loader with
  | none =>
    rw [produce_of_plain hloader] at h
    cases h with
    | count rest =>
      cases rest
      exact .plain hloader
  | some loader =>
    have hsome : item.loader.isSome = true := by rw [hloader]; rfl
    rw [produce_of_loader hloader] at h
    cases h with
    | count rest =>
      cases rest with
      | startLoad rest =>
        cases rest with
        | awaits next => exact .awaits hsome _
        | given answer rest =>
          cases rest
          exact .given hsome answer

end Setup

end LayeredCache
