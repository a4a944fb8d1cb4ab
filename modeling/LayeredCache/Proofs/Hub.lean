import LayeredCache.Hub
import LayeredCache.Proofs.Directory

/-!
# First registrations

Caches come to a hub, made by hand or from settings, and names are asked for them. The first
registration of a name is kept for ever: the name leads to its cache from then on, and every later
request for the name is refused. The very first registration of all makes the default. A call that
fails, for whatever cause, changes none of this.

## Main definitions

* `Hub.Call`, `Hub.call` — the calls that bring caches and names, and what comes of them.
* `Hub.after`, `Hub.roll` — the hub after some calls, and the registrations that they made.
* `Hub.Keeps` — what a hub answers that keeps some registrations.
* `Hub.Persists` — what a hub answers stays so in another.

## Main results

* `Hub.call_cases` — what a call does that succeeds.
* `Hub.lists_after` — after any calls the directory lists the registrations that they made.
* `Hub.first_registrations_kept` — so the first registrations are kept for ever.
-/

set_option autoImplicit false

namespace LayeredCache.Hub

open KeyValue (Client)

variable {τ : Type}

/-! ## Calls -/

/-- A call that brings a cache to a hub or asks for a name. -/
inductive Call (τ : Type) where
  /-- A cache comes without a name. -/
  | add (c : Cache (Client τ))
  /-- A name is asked for the cache at a place. -/
  | register (name : String) (place : Nat)
  /-- A cache is built from settings, which may give it a name. -/
  | build (around : Surroundings τ) (s : Settings)

/-- The name that a call asks for. -/
def Call.name? : Call τ → Option String
  | .add _ => none
  | .register name _ => some name
  | .build _ s => if s.name.isEmpty then none else some s.name

/-- What comes of a call: the place of its cache, and the hub after it. -/
def call (h : Hub (Client τ)) : Call τ → Built (Nat × Hub (Client τ))
  | .add c => .ready (h.add c)
  | .register name place =>
    match h.register name place with
    | .ok h => .ready (place, h)
    | .error cause => .refused cause
  | .build around s => h.build around s

/-- The hub after a call. -/
def next (h : Hub (Client τ)) (c : Call τ) : Hub (Client τ) :=
  match h.call c with
  | .ready (_, h) => h
  | .refused _ => h
  | .crashed => h

/-- The registration that a call makes, if it asks for a name and succeeds. -/
def enrolled (h : Hub (Client τ)) (c : Call τ) : List (String × Nat) :=
  match h.call c, c.name? with
  | .ready (place, _), some name => [(name, place)]
  | _, _ => []

/-- The hub after some calls, the earliest first. -/
def after (h : Hub (Client τ)) (calls : List (Call τ)) : Hub (Client τ) := calls.foldl next h

/-- The registrations that some calls make, the earliest first. -/
def roll (h : Hub (Client τ)) : List (Call τ) → List (String × Nat)
  | [] => []
  | c :: calls => h.enrolled c ++ (h.next c).roll calls

lemma after_append (h : Hub (Client τ)) (calls more : List (Call τ)) :
    h.after (calls ++ more) = (h.after calls).after more := List.foldl_append

lemma roll_append (h : Hub (Client τ)) (calls more : List (Call τ)) :
    h.roll (calls ++ more) = h.roll calls ++ (h.after calls).roll more := by
  induction calls generalizing h with
  | nil => rfl
  | cons c calls ih =>
    rw [List.cons_append, roll, roll, ih, List.append_assoc]
    rfl

/-! ## What a hub keeps -/

/-- What a hub answers that keeps some registrations, the earliest first. -/
structure Keeps (h : Hub (Client τ)) (roll : List (String × Nat)) : Prop where
  /-- A registration succeeds exactly if its name is not empty and was not registered before. -/
  accepts : ∀ name place, (∃ h', h.register name place = .ok h') ↔
    name ≠ "" ∧ name ∉ roll.map Prod.fst
  emptyName : ∀ place, h.register "" place = .error (.directory .emptyName)
  taken : ∀ name place, name ∈ roll.map Prod.fst →
    h.register name place = .error (.directory (.taken name))
  /-- A cache is built exactly if what its settings ask for can be had, and their name was not
  registered before. -/
  builds : ∀ around s, (∃ built, h.build around s = .ready built) ↔
    (∃ c, Cache.ofSettings around s = .ready c) ∧ s.name ∉ roll.map Prod.fst
  /-- It gets a place of its own. -/
  built : ∀ around s place h', h.build around s = .ready (place, h') →
    ∃ c, Cache.ofSettings around s = .ready c ∧ h.caches[place]? = none ∧
      h'.caches[place]? = some c
  /-- No name was registered twice. -/
  once : (roll.map Prod.fst).Nodup
  /-- A name leads to the cache of its one registration. -/
  find : ∀ name place, h.find name = .ok place ↔ (name, place) ∈ roll
  unknown : ∀ name, name ∉ roll.map Prod.fst → h.find name = .error (.directory (.unknown name))
  /-- The first registration makes the default. -/
  default : h.directory.default = roll.head?.map Prod.fst
  defaultPlace : ∀ place, h.defaultPlace = .ok place ↔ roll.head?.map Prod.snd = some place
  noDefault : h.defaultPlace = .error (.directory .noDefault) ↔ roll = []
  /-- The names are those of the registrations, in ascending order. -/
  names : ∀ name, name ∈ h.directory.names ↔ name ∈ roll.map Prod.fst
  ascending : h.directory.names.Pairwise (· < ·)

/-- What a hub answers stays so in another, to which more calls lead. -/
structure Persists (h h' : Hub (Client τ)) : Prop where
  caches : ∀ (place : Nat) (c : Cache (Client τ)), h.caches[place]? = some c →
    h'.caches[place]? = some c
  find : ∀ name place, h.find name = .ok place → h'.find name = .ok place
  default : ∀ name, h.directory.default = some name → h'.directory.default = some name
  defaultPlace : ∀ place, h.defaultPlace = .ok place → h'.defaultPlace = .ok place
  names : h.directory.names ⊆ h'.directory.names

section Lists

variable {h h' : Hub (Client τ)} {roll : List (String × Nat)} {name : String} {place : Nat}

lemma register_of_ok {d : Directory Nat} (hd : h.directory.register name place = .ok d) :
    h.register name place = .ok { h with directory := d } := by
  rw [register, hd]

lemma register_of_error {f : Directory.Fault}
    (hf : h.directory.register name place = .error f) :
    h.register name place = .error (.directory f) := by
  rw [register, hf]

/-- A registration that succeeds is one of the directory and touches no cache. -/
lemma of_register (hh : h.register name place = .ok h') :
    h'.caches = h.caches ∧ h.directory.register name place = .ok h'.directory := by
  cases hd : h.directory.register name place with
  | error f =>
    rw [register_of_error hd] at hh
    cases hh
  | ok d =>
    rw [register_of_ok hd] at hh
    cases hh
    exact ⟨rfl, rfl⟩

/-- A hub accepts what its directory accepts. -/
lemma register_iff : (∃ h', h.register name place = .ok h') ↔
    ∃ d, h.directory.register name place = .ok d :=
  ⟨fun ⟨h', hh⟩ => ⟨h'.directory, (of_register hh).2⟩, fun ⟨_, hd⟩ => ⟨_, register_of_ok hd⟩⟩

/-! ## Building -/

variable {around : Surroundings τ} {s : Settings}

/-- Building a cache is adding it and asking for the name that the settings give. -/
lemma build_eq (h : Hub (Client τ)) (around : Surroundings τ) (s : Settings) :
    h.build around s =
      match Cache.ofSettings around s with
      | .ready c =>
        if s.name.isEmpty then .ready (h.add c)
        else
          match (h.add c).2.register s.name (h.add c).1 with
          | .ok h' => .ready ((h.add c).1, h')
          | .error cause => .refused cause
      | .refused cause => .refused cause
      | .crashed => .crashed := by
  change (Cache.ofSettings around s).bind _ = _
  cases Cache.ofSettings around s with
  | ready c => rfl
  | refused cause => rfl
  | crashed => rfl

/-- **What is built**: the cache that settings ask for gets a place behind all others, and the name
that they give, if they give one. -/
lemma of_build (hh : h.build around s = .ready (place, h')) :
    ∃ c, Cache.ofSettings around s = .ready c ∧ place = h.caches.size ∧
      h'.caches = h.caches.push c ∧
      (s.name = "" ∧ h'.directory = h.directory ∨
        s.name ≠ "" ∧ h.directory.register s.name place = .ok h'.directory) := by
  rw [build_eq] at hh
  cases hc : Cache.ofSettings around s with
  | refused cause =>
    rw [hc] at hh
    cases hh
  | crashed =>
    rw [hc] at hh
    cases hh
  | ready c =>
    rw [hc] at hh
    dsimp only at hh
    refine ⟨c, rfl, ?_⟩
    by_cases hname : s.name.isEmpty = true
    · rw [if_pos hname] at hh
      cases hh
      exact ⟨rfl, rfl, .inl ⟨String.isEmpty_iff.mp hname, rfl⟩⟩
    · rw [if_neg hname] at hh
      cases hregister : (h.add c).2.register s.name (h.add c).1 with
      | error cause =>
        rw [hregister] at hh
        cases hh
      | ok h₁ =>
        rw [hregister] at hh
        cases hh
        obtain ⟨hcaches, hd⟩ := of_register hregister
        exact ⟨rfl, hcaches, .inr ⟨String.isEmpty_iff.not.mp hname, hd⟩⟩

/-- What settings ask for is built if their name is accepted, or they give none. -/
lemma exists_build {c : Cache (Client τ)} (hc : Cache.ofSettings around s = .ready c)
    (hname : s.name ≠ "" → ∃ d, h.directory.register s.name h.caches.size = .ok d) :
    ∃ built, h.build around s = .ready built := by
  rw [build_eq, hc]
  dsimp only
  by_cases hempty : s.name.isEmpty = true
  · rw [if_pos hempty]
    exact ⟨_, rfl⟩
  · rw [if_neg hempty]
    obtain ⟨d, hd⟩ := hname (String.isEmpty_iff.not.mp hempty)
    have hregister : (h.add c).2.register s.name (h.add c).1 =
        .ok { (h.add c).2 with directory := d } := register_of_ok hd
    rw [hregister]
    exact ⟨_, rfl⟩

/-! ## What one call does -/

/-- **What a call does** that succeeds: the caches stay at their places, and it registers its cache
under the name that it asks for, or asks for none and leaves the directory alone. -/
lemma call_cases {c : Call τ} (hh : h.call c = .ready (place, h')) :
    (h'.caches = h.caches ∨ ∃ new, h'.caches = h.caches.push new) ∧
      (c.name? = none ∧ h'.directory = h.directory ∨
        ∃ name, c.name? = some name ∧ h.directory.register name place = .ok h'.directory) := by
  cases c with
  | add new =>
    cases hh
    exact ⟨.inr ⟨new, rfl⟩, .inl ⟨rfl, rfl⟩⟩
  | register name p =>
    cases hregister : h.register name p with
    | error cause =>
      rw [call, hregister] at hh
      cases hh
    | ok h₁ =>
      rw [call, hregister] at hh
      cases hh
      obtain ⟨hcaches, hd⟩ := of_register hregister
      exact ⟨.inl hcaches, .inr ⟨name, rfl, hd⟩⟩
  | build around s =>
    obtain ⟨new, -, -, hcaches, hnamed⟩ := of_build hh
    refine ⟨.inr ⟨new, hcaches⟩, ?_⟩
    obtain ⟨hname, hd⟩ | ⟨hname, hd⟩ := hnamed
    · exact .inl ⟨if_pos (String.isEmpty_iff.mpr hname), hd⟩
    · exact .inr ⟨s.name, if_neg (String.isEmpty_iff.not.mpr hname), hd⟩

/-- A call that fails makes no registration and leaves the hub as it was. -/
lemma next_of_failed {c : Call τ} (hfailed : ∀ r, h.call c ≠ .ready r) :
    h.next c = h ∧ h.enrolled c = [] := by
  unfold next enrolled
  cases hcall : h.call c with
  | ready r => exact absurd hcall (hfailed r)
  | refused cause => exact ⟨rfl, rfl⟩
  | crashed => exact ⟨rfl, rfl⟩

/-- A call that succeeds leaves a hub, and may have made a registration. -/
lemma next_of_ready {c : Call τ} (hcall : h.call c = .ready (place, h')) :
    h.next c = h' ∧ h.enrolled c = (c.name?.map fun name => (name, place)).toList := by
  unfold next enrolled
  rw [hcall]
  cases c.name? with
  | none => exact ⟨rfl, rfl⟩
  | some name => exact ⟨rfl, rfl⟩

/-- The caches stay at their places in a call. -/
lemma caches_next {cache : Cache (Client τ)} (hcache : h.caches[place]? = some cache)
    (c : Call τ) : (h.next c).caches[place]? = some cache := by
  by_cases hfailed : ∀ r, h.call c ≠ .ready r
  · rw [(next_of_failed hfailed).1]
    exact hcache
  · obtain ⟨⟨_, h'⟩, hcall⟩ := not_forall_not.mp hfailed
    rw [(next_of_ready hcall).1]
    obtain hcaches | ⟨new, hcaches⟩ := (call_cases hcall).1
    · rw [hcaches]
      exact hcache
    · have hlt : place < h.caches.size := (Array.getElem?_eq_some_iff.mp hcache).1
      rw [hcaches, Array.getElem?_push, if_neg (Nat.ne_of_lt hlt)]
      exact hcache

/-- **One call**: the directory lists the registration that it makes as well. -/
lemma lists_next (hlists : h.directory.Lists roll) (c : Call τ) :
    (h.next c).directory.Lists (roll ++ h.enrolled c) := by
  by_cases hfailed : ∀ r, h.call c ≠ .ready r
  · obtain ⟨hnext, henrolled⟩ := next_of_failed hfailed
    rw [hnext, henrolled, List.append_nil]
    exact hlists
  · obtain ⟨⟨place, h'⟩, hcall⟩ := not_forall_not.mp hfailed
    obtain ⟨hnext, henrolled⟩ := next_of_ready hcall
    rw [hnext, henrolled]
    obtain ⟨hname, hd⟩ | ⟨name, hname, hd⟩ := (call_cases hcall).2
    · rw [hname, hd, Option.map_none, Option.toList_none, List.append_nil]
      exact hlists
    · rw [hname]
      exact hlists.registered hd

/-- The caches stay at their places in any calls. -/
lemma caches_after {cache : Cache (Client τ)} (hcache : h.caches[place]? = some cache)
    (calls : List (Call τ)) : (h.after calls).caches[place]? = some cache := by
  induction calls generalizing h with
  | nil => exact hcache
  | cons c calls ih => exact ih (caches_next hcache c)

/-- **Any calls**: the directory lists the registrations that they make.

**Proof sketch.** Induction on the calls, for all hubs; `lists_next` is the step. -/
lemma lists_after (hlists : h.directory.Lists roll) (calls : List (Call τ)) :
    (h.after calls).directory.Lists (roll ++ h.roll calls) := by
  induction calls generalizing h roll with
  | nil =>
    rw [Hub.roll, List.append_nil]
    exact hlists
  | cons c calls ih =>
    rw [Hub.roll, ← List.append_assoc]
    exact ih (lists_next hlists c)

/-! ## What is kept -/

/-- A refusal of the directory stays one. -/
lemma mapError_eq_ok_iff {r : Except Directory.Fault Nat} :
    r.mapError Failure.directory = .ok place ↔ r = .ok place := by
  cases r with
  | ok p => simp [Except.mapError]
  | error f => simp [Except.mapError]

/-- **A hub keeps** the registrations that its directory lists. -/
lemma keeps_of_lists (hlists : h.directory.Lists roll) : h.Keeps roll where
  accepts name place := register_iff.trans (hlists.register_iff name place)
  emptyName place := register_of_error (Directory.register_empty h.directory place)
  taken name place htaken := register_of_error (hlists.register_taken htaken place)
  builds around s := by
    constructor
    · rintro ⟨⟨place, h'⟩, hh⟩
      obtain ⟨c, hc, -, -, hnamed⟩ := of_build hh
      refine ⟨⟨c, hc⟩, ?_⟩
      obtain ⟨hname, -⟩ | ⟨-, hd⟩ := hnamed
      · rw [hname]
        exact hlists.named
      · exact ((hlists.register_iff s.name place).mp ⟨_, hd⟩).2
    · rintro ⟨⟨c, hc⟩, hnew⟩
      exact exists_build hc fun hname => (hlists.register_iff s.name _).mpr ⟨hname, hnew⟩
  built around s place h' hh := by
    obtain ⟨c, hc, rfl, hcaches, -⟩ := of_build hh
    refine ⟨c, hc, Array.getElem?_eq_none_iff.mpr (Nat.le_refl _), ?_⟩
    rw [hcaches, Array.getElem?_push_size]
  once := hlists.nodup
  find name place := mapError_eq_ok_iff.trans hlists.find_iff
  unknown name hnew := by
    rw [find, hlists.find_unknown hnew]
    rfl
  default := hlists.default
  defaultPlace place := by
    rw [defaultPlace, mapError_eq_ok_iff]
    cases roll with
    | nil => simp [hlists.defaultHandle_nil]
    | cons first rest => simp [hlists.defaultHandle_cons]
  noDefault := by
    rw [defaultPlace]
    cases roll with
    | nil => simp [hlists.defaultHandle_nil, Except.mapError]
    | cons first rest => simp [hlists.defaultHandle_cons, Except.mapError]
  names _ := hlists.mem_names
  ascending := hlists.ascending

/-- What a hub keeps persists while more registrations come. -/
lemma Keeps.persists {more : List (String × Nat)} (hkeeps : h.Keeps roll)
    (hkeeps' : h'.Keeps (roll ++ more))
    (hcaches : ∀ (place : Nat) (c : Cache (Client τ)), h.caches[place]? = some c →
      h'.caches[place]? = some c) : h.Persists h' where
  caches := hcaches
  find name place hfind :=
    (hkeeps'.find name place).mpr (List.mem_append_left more ((hkeeps.find name place).mp hfind))
  default name hdefault := by
    rw [hkeeps.default] at hdefault
    rw [hkeeps'.default, List.head?_append]
    cases roll with
    | nil => cases hdefault
    | cons first rest => exact hdefault
  defaultPlace place hplace := by
    rw [hkeeps.defaultPlace] at hplace
    rw [hkeeps'.defaultPlace, List.head?_append]
    cases roll with
    | nil => cases hplace
    | cons first rest => exact hplace
  names name hname := by
    rw [hkeeps.names] at hname
    rw [hkeeps'.names, List.map_append]
    exact List.mem_append_left _ hname

end Lists

/-- **First registrations are kept for ever.** After any calls to a new hub, a registration succeeds
exactly if its name is not empty and was not registered before. Every name leads to the cache of its
one registration, the first registration of all makes the default, and the names are those of the
registrations, in ascending order. A call that fails leaves the hub as it was, whatever it failed
for. What a name leads to, and the default, no later call changes.

**Proof sketch.** The directory lists the registrations that the calls made (`lists_after`), so the
hub keeps them (`keeps_of_lists`); later calls make more of them, behind those. -/
theorem first_registrations_kept (calls : List (Call τ)) :
    let h : Hub (Client τ) := after {} calls
    h.Keeps (roll {} calls) ∧
      (∀ c, (∀ r, h.call c ≠ .ready r) →
        after {} (calls ++ [c]) = h ∧ roll {} (calls ++ [c]) = roll {} calls) ∧
      ∀ more, h.Persists (after {} (calls ++ more)) := by
  have hkeeps (calls : List (Call τ)) : (after {} calls).Keeps (roll {} calls) := by
    have hlists := lists_after (h := {}) Directory.lists_empty calls
    rw [List.nil_append] at hlists
    exact keeps_of_lists hlists
  refine ⟨hkeeps calls, fun c hfailed => ?_, fun more => ?_⟩
  · obtain ⟨hnext, henrolled⟩ := next_of_failed hfailed
    refine ⟨(after_append _ _ _).trans hnext, ?_⟩
    rw [roll_append, roll, roll, henrolled, List.append_nil, List.append_nil]
  · have hmore := hkeeps (calls ++ more)
    rw [roll_append] at hmore
    refine (hkeeps calls).persists hmore fun place cache hcache => ?_
    rw [after_append]
    exact caches_after hcache more

/-- A cache without tiers is built under the name "b" and gets the name "a" as well. Building one
more under the name "b" fails and changes nothing. -/
theorem first_registrations_kept_twice :
    let around : Surroundings KeyValue.Unreachable := ⟨fun _ => 0, fun _ => 0, {}⟩
    let build : Call KeyValue.Unreachable :=
      .build around { name := "b", near := { enabled := false } }
    let calls := [build, .register "a" 0]
    let h := after {} calls
    roll {} calls = [("b", 0), ("a", 0)] ∧ (∀ r, h.call build ≠ .ready r) ∧
      after {} (calls ++ [build]) = h ∧ h.find "b" = .ok 0 ∧ h.directory.default = some "b" := by
  intro around build calls h
  have hroll : roll {} calls = [("b", 0), ("a", 0)] := by decide +kernel
  obtain ⟨hkeeps, hfailed, -⟩ := first_registrations_kept calls
  have hrefused : ∀ r, h.call build ≠ .ready r := by
    intro r hr
    have hnew := ((hkeeps.builds _ _).mp ⟨r, hr⟩).2
    rw [hroll] at hnew
    exact hnew (by decide)
  refine ⟨hroll, hrefused, (hfailed build hrefused).1, ?_, ?_⟩
  · exact (hkeeps.find "b" 0).mpr (hroll ▸ List.mem_cons_self)
  · rw [hkeeps.default, hroll]
    rfl

end LayeredCache.Hub
