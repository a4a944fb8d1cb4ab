import LayeredCache.KeyValue.Client
import LayeredCache.Proofs.Bytes
import LayeredCache.Proofs.Far.History
import Std.Data.String.ToNat

/-!
# A key-value server answers as a store in memory does

A far tier may be a server behind a client or a store in memory, and a cache cannot tell which. The
client spells every request as the words of a command and reads the reply; the store decides the
same request by itself, and drops expired entries when it meets them. As long as the server does
what is documented of the commands it is sent, both answer every sequence of requests alike.

The server is any that keeps the documentation. What is assumed of it is said about the words it is
sent, not about the command they were made from: the order and the spelling of the options are the
client's part.

## Main definitions

* `KeyValue.SetOptions` — what the options of a `SET` ask for.
* `KeyValue.Documented` — a server that executes `SET`, `GET`, `DEL` and `PING` as documented.
* `KeyValue.Shows` — a server shows what a store in memory holds.
* `Far.answers` — the answers of a far tier to requests in turn.

## Main results

* `KeyValue.Shows.step` — one request is answered alike, and the server still shows what the store
  holds.
* `KeyValue.same_answers` — so are all the requests of a sequence.
* `KeyValue.Table.documented` — the server in memory keeps the documentation.

## Implementation notes

Expired entries never show in an answer, so a server and a store are compared by what they would
read at each later instant and not by their entries.
-/

set_option autoImplicit false

namespace LayeredCache

/-- The answers of a far tier to requests that are made one after another. -/
def Far.answers {σ : Type} [FarStore σ] :
    σ → List (Instant × Far.Request) → List (Sigma Far.Answer)
  | _, [] => []
  | s, (now, request) :: calls =>
    ⟨request, (FarStore.answer s now request).1⟩ ::
      answers (FarStore.answer s now request).2 calls

namespace KeyValue

open Far (Held MemoryStore)

/-! ## What is documented of a server -/

/-- The options of a `SET`, which may come in any order: the lifetime and the condition that they
ask for. -/
inductive SetOptions : List String → Option Nat → Condition → Prop
  | nothing : SetOptions [] none .always
  /-- Write only where something is there. -/
  | present {options : List String} {lifetime : Option Nat} :
      SetOptions options lifetime .always → SetOptions ("XX" :: options) lifetime .ifPresent
  /-- Write only where nothing is there. -/
  | absent {options : List String} {lifetime : Option Nat} :
      SetOptions options lifetime .always → SetOptions ("NX" :: options) lifetime .ifAbsent
  /-- Expire after a number of milliseconds. -/
  | expiry {options : List String} {condition : Condition} (n : Nat) :
      SetOptions options none condition →
      SetOptions ("PX" :: toString n :: options) (some n) condition

/-- Whether an entry with a lifetime in milliseconds is still there; it is not at its very
deadline. -/
def lasts (since : Instant) (lifetime : Option Nat) (t : Instant) : Bool :=
  lifetime.all fun n => t < since + Span.milliseconds n

/-- An entry without a lifetime is always there. -/
lemma lasts_none (since t : Instant) : lasts since none t = true := rfl

/-- An entry with a lifetime is there before its deadline. -/
lemma lasts_some (since t : Instant) (n : Nat) :
    lasts since (some n) t = decide (t < since + Span.milliseconds n) := by
  unfold lasts
  rw [Option.all_some]

/-- A number of milliseconds that every server takes as a lifetime; it may take greater ones. -/
def Takeable (n : Nat) : Prop := 0 < n ∧ n < 0x4000000000000000

/-- **A server that does what is documented.** At any instant each key reads as some data or as
nothing, and changes what it reads as when its entry expires or a command is executed; `reads s t`
is what the keys of the server in the state `s` read as at `t` if no command comes before. -/
structure Documented {σ : Type} [Server σ] (reads : σ → Instant → Bytes → Option Bytes) : Prop where
  /-- `GET key` replies with what the key reads as, by nil when that is nothing. -/
  get : ∀ s now command key, command.words = [Utf8.encode "GET", key] →
    (Server.exchange s now command).1 = .replied ((reads s now key).elim .nil .bulk) ∧
      ∀ t, now ≤ t → ∀ k, reads (Server.exchange s now command).2 t k = reads s t k
  /-- `SET key data`, when its condition is met: the key reads as the data while the lifetime
  lasts. -/
  applied : ∀ s now command key data options lifetime condition,
    command.words = Utf8.encode "SET" :: key :: data :: options.map Utf8.encode →
    SetOptions options lifetime condition → (∀ n ∈ lifetime, Takeable n) →
    MemoryStore.allows condition (reads s now key).isSome = true →
    (Server.exchange s now command).1 = .replied (.status "OK") ∧
      ∀ t, now ≤ t → ∀ k, reads (Server.exchange s now command).2 t k =
        if k = key then (if lasts now lifetime t then some data else none) else reads s t k
  /-- `SET key data`, when its condition is not met: nothing changes, and the reply is nil. -/
  refused : ∀ s now command key data options lifetime condition,
    command.words = Utf8.encode "SET" :: key :: data :: options.map Utf8.encode →
    SetOptions options lifetime condition → (∀ n ∈ lifetime, Takeable n) →
    MemoryStore.allows condition (reads s now key).isSome = false →
    (Server.exchange s now command).1 = .replied .nil ∧
      ∀ t, now ≤ t → ∀ k, reads (Server.exchange s now command).2 t k = reads s t k
  /-- `DEL key ...` replies with a count, and the keys named read as nothing. -/
  delete : ∀ s now command keys, keys ≠ [] → command.words = Utf8.encode "DEL" :: keys →
    (∃ n : Nat, (Server.exchange s now command).1 = .replied (.integer n)) ∧
      ∀ t, now ≤ t → ∀ k, reads (Server.exchange s now command).2 t k =
        if k ∈ keys then none else reads s t k
  /-- `PING` is answered. -/
  ping : ∀ s now command, command.words = [Utf8.encode "PING"] →
    (Server.exchange s now command).1 = .replied (.status "PONG") ∧
      ∀ t, now ≤ t → ∀ k, reads (Server.exchange s now command).2 t k = reads s t k

/-! ## What a client sends -/

/-- The options that a client sends ask for the lifetime and the condition. -/
lemma setOptions_sent (lifetime : Option Nat) (condition : Condition) :
    SetOptions (Command.lifetimeWords lifetime ++ Command.conditionWords condition) lifetime
      condition := by
  have hcondition : SetOptions (Command.conditionWords condition) none condition := by
    cases condition with
    | always => exact .nothing
    | ifPresent => exact .present .nothing
    | ifAbsent => exact .absent .nothing
  cases lifetime with
  | none => exact hcondition
  | some n => exact .expiry n hcondition

/-- A whole number of milliseconds is sent as it is, and none is not sent. -/
lemma lifetime_milliseconds {n : Nat} (hn : n < 0x4000000000000000) :
    Command.lifetime (Span.milliseconds n) = if n = 0 then none else some n := by
  unfold Command.lifetime Span.milliseconds
  by_cases hzero : n = 0
  · simp [hzero]
  · have hdiv : n * 1000000 / (1 * 1000000) = n := by omega
    have hspan : n * 1000000 ≠ 0 := by omega
    have hsent : max 1 n % 0x10000000000000000 = n := by
      rw [Nat.max_eq_right (Nat.pos_of_ne_zero hzero), Nat.mod_eq_of_lt (by omega)]
    rw [if_neg hspan, if_neg hzero, hdiv, hsent]

/-- A lifetime that is sent is one that the server takes. -/
lemma takeable_of_sent {n m : Nat} (hn : n < 0x4000000000000000)
    (hm : m ∈ Command.lifetime (Span.milliseconds n)) : Takeable m := by
  rw [lifetime_milliseconds hn] at hm
  split at hm
  · cases hm
  · obtain rfl := Option.some.inj hm
    exact ⟨Nat.pos_of_ne_zero ‹_›, hn⟩

/-- What is sent for a lifetime lasts as long as the lifetime. -/
lemma lasts_sent {n : Nat} (hn : n < 0x4000000000000000) (since t : Instant) :
    lasts since (Command.lifetime (Span.milliseconds n)) t = true ↔
      Span.milliseconds n = 0 ∨ t < since + Span.milliseconds n := by
  have hspan : Span.milliseconds n = 0 ↔ n = 0 :=
    Nat.mul_eq_zero.trans (or_iff_left (by decide))
  rw [lifetime_milliseconds hn, hspan]
  by_cases hzero : n = 0
  · rw [if_pos hzero]
    exact iff_of_true (lasts_none since t) (.inl hzero)
  · rw [if_neg hzero, or_iff_right hzero, lasts_some, decide_eq_true_iff]

/-! ## A server that shows what a store holds -/

section Shows

variable {σ : Type} [Server σ] {reads : σ → Instant → Bytes → Option Bytes} {s : σ}
  {store : MemoryStore} {now : Instant}

/-- From the instant `now` on, the keys of a server read as the entries of a store. -/
def Shows (reads : σ → Instant → Bytes → Option Bytes) (s : σ) (store : MemoryStore)
    (now : Instant) : Prop :=
  ∀ t, now ≤ t → ∀ key, reads s t (Utf8.encode key) = (store.liveAt t key).map Held.data

/-- A request whose lifetime, if it has one, is zero or a whole number of milliseconds below
`2 ^ 62` that ends when the clock can still tell. -/
def Whole (now : Instant) : Far.Request → Prop
  | .write _ _ _ ttl => (∃ n < 0x4000000000000000, ttl = Span.milliseconds n) ∧
      MemoryStore.Representable now ttl
  | _ => True

/-- A client whose server answers as a store does, and still shows what the store holds. -/
structure Alike (reads : σ → Instant → Bytes → Option Bytes) (c : Client σ) (store : MemoryStore)
    (now : Instant) (request : Far.Request) : Prop where
  answer : (FarStore.answer c now request).1 = (FarStore.answer store now request).1
  shows : Shows reads (FarStore.answer c now request).2.server
    (FarStore.answer store now request).2 now
  connections : (FarStore.answer c now request).2.connections = c.connections

variable {c : Client σ}

/-- A client sends the command of a request, unless no keys are to be deleted, and reads the
reply. -/
lemma Alike.of_replied {request : Far.Request} (hsent : request ≠ .delete [])
    (hconnections : 0 < c.connections) {reply : Reply}
    (hreply : (Server.exchange c.server now (.ofRequest request)).1 = .replied reply)
    (hread : reply.read request = (FarStore.answer store now request).1)
    (hshows : Shows reads (Server.exchange c.server now (.ofRequest request)).2
      (FarStore.answer store now request).2 now) : Alike reads c store now request := by
  have hsends : FarStore.answer c now request = c.send now request := by
    cases request with
    | delete keys =>
      cases keys with
      | nil => exact absurd rfl hsent
      | cons key keys => rfl
    | _ => rfl
  have hreads : Client.read c.limit request
      (Server.exchange c.server now (.ofRequest request)).1 = reply.read request := by
    rw [hreply]
    rfl
  have hsend : FarStore.answer c now request = (reply.read request,
      { c with server := (Server.exchange c.server now (.ofRequest request)).2 }) := by
    rw [hsends, Client.send, if_neg (Nat.ne_of_gt hconnections), ← hreads]
  refine ⟨?_, ?_, ?_⟩
  · rw [hsend, hread]
  · rw [hsend]
    exact hshows
  · rw [hsend]

/-- **A look-up** is answered alike. -/
lemma Shows.get (hdoc : Documented reads) (hshows : Shows reads c.server store now)
    (hconnections : 0 < c.connections) (key : String) :
    Alike reads c store now (.get key) := by
  obtain ⟨hreply, hsame⟩ := hdoc.get c.server now (.get key) (Utf8.encode key) rfl
  refine .of_replied nofun hconnections hreply ?_ fun t ht k => ?_
  · rw [hshows now (Nat.le_refl now), MemoryStore.answer_get]
    cases store.liveAt now key <;> rfl
  · rw [MemoryStore.liveAt_answer ht (by rintro ⟨⟩)]
    exact (hsame t ht _).trans (hshows t ht k)

/-- **A deletion** is answered alike. -/
lemma Shows.delete (hdoc : Documented reads) (hshows : Shows reads c.server store now)
    (hconnections : 0 < c.connections) (keys : List String) :
    Alike reads c store now (.delete keys) := by
  have hstore : ∀ t k, (store.delete keys).liveAt t k =
      if k ∈ keys then none else store.liveAt t k := by
    intro t k
    rw [MemoryStore.liveAt, MemoryStore.entries_delete]
    split <;> rfl
  by_cases hkeys : keys = []
  · -- nothing is sent, and nothing is there to be deleted
    subst hkeys
    refine ⟨rfl, fun t ht k => ?_, rfl⟩
    exact (hshows t ht k).trans (congrArg (Option.map Held.data) (hstore t k).symm)
  · obtain ⟨⟨n, hreply⟩, hgone⟩ := hdoc.delete c.server now (.delete keys)
      (keys.map Utf8.encode) (by simpa using hkeys) rfl
    refine .of_replied (by simpa using hkeys) hconnections hreply rfl fun t ht k => ?_
    have hmem : Utf8.encode k ∈ keys.map Utf8.encode ↔ k ∈ keys := by
      simp [Utf8.encode_inj]
    refine (hgone t ht _).trans ?_
    rw [hshows t ht k]
    simp only [FarStore.answer, hstore, hmem]
    split <;> rfl

/-- **A write** is answered alike. -/
lemma Shows.write (hdoc : Documented reads) (hshows : Shows reads c.server store now)
    (hconnections : 0 < c.connections) (condition : Condition) (key : String) (data : Bytes)
    {ttl : Span} (hwhole : Whole now (.write condition key data ttl)) :
    Alike reads c store now (.write condition key data ttl) := by
  obtain ⟨⟨n, hn, rfl⟩, hrep⟩ := hwhole
  have hthere : (reads c.server now (Utf8.encode key)).isSome = (store.liveAt now key).isSome := by
    rw [hshows now (Nat.le_refl now), Option.isSome_map]
  have hanswer : (FarStore.answer store now (.write condition key data (Span.milliseconds n))).1 =
      .reply (MemoryStore.allows condition (store.liveAt now key).isSome) :=
    MemoryStore.answer_write_of_representable hrep
  have hlive := fun t (ht : now ≤ t) => store.liveAt_answer_write key condition data hrep ht
  cases hallows : MemoryStore.allows condition (store.liveAt now key).isSome with
  | true =>
    obtain ⟨hreply, hreads⟩ := hdoc.applied c.server now
      (.set key data (Command.lifetime (Span.milliseconds n)) condition) (Utf8.encode key) data _ _
      condition rfl (setOptions_sent _ condition) (fun m => takeable_of_sent hn)
      (hthere ▸ hallows)
    refine .of_replied nofun hconnections hreply ?_ fun t ht k => ?_
    · rw [hanswer, hallows]
      rfl
    · rw [hlive t ht k]
      refine (hreads t ht _).trans ?_
      simp only [hallows, true_and, Utf8.encode_inj, lasts_sent hn, hshows t ht k]
      split
      · split <;> rfl
      · rfl
  | false =>
    obtain ⟨hreply, hreads⟩ := hdoc.refused c.server now
      (.set key data (Command.lifetime (Span.milliseconds n)) condition) (Utf8.encode key) data _ _
      condition rfl (setOptions_sent _ condition) (fun m => takeable_of_sent hn)
      (hthere ▸ hallows)
    refine .of_replied nofun hconnections hreply ?_ fun t ht k => ?_
    · rw [hanswer, hallows]
      rfl
    · rw [hlive t ht k]
      refine (hreads t ht _).trans ?_
      simp only [hallows, Bool.false_eq_true, false_and, if_false, hshows t ht k]

/-- **One request** is answered alike, and the server still shows what the store holds. -/
lemma Shows.step (hdoc : Documented reads) (hshows : Shows reads c.server store now)
    (hconnections : 0 < c.connections) {request : Far.Request} (hwhole : Whole now request) :
    Alike reads c store now request := by
  cases request with
  | get key => exact hshows.get hdoc hconnections key
  | delete keys => exact hshows.delete hdoc hconnections keys
  | write condition key data ttl =>
    exact hshows.write hdoc hconnections condition key data hwhole
  | ping =>
    obtain ⟨hreply, hsame⟩ := hdoc.ping c.server now .ping rfl
    exact .of_replied nofun hconnections hreply rfl fun t ht k =>
      (hsame t ht _).trans (hshows t ht k)

omit [Server σ] in
/-- What is shown from now on is shown from later on. -/
lemma Shows.later {t : Instant} (hshows : Shows reads s store now) (hle : now ≤ t) :
    Shows reads s store t :=
  fun t' ht' => hshows t' (Nat.le_trans hle ht')

/-- **A sequence of requests** is answered alike by a server that shows what a store holds. -/
lemma Shows.answers_eq (hdoc : Documented reads) {calls : List (Instant × Far.Request)}
    (hordered : calls.Pairwise (·.1 ≤ ·.1)) (hwhole : ∀ call ∈ calls, Whole call.1 call.2)
    (hconnections : 0 < c.connections)
    (hshows : ∀ call ∈ calls, Shows reads c.server store call.1) :
    Far.answers c calls = Far.answers store calls := by
  induction calls generalizing c store with
  | nil => rfl
  | cons call calls ih =>
    obtain ⟨now, request⟩ := call
    rw [List.pairwise_cons] at hordered
    rw [List.forall_mem_cons] at hwhole hshows
    have hstep := hshows.1.step hdoc hconnections hwhole.1
    rw [Far.answers, Far.answers, hstep.answer]
    congr 1
    exact ih hordered.2 hwhole.2 (by rw [hstep.connections]; exact hconnections)
      fun call' hcall' => hstep.shows.later (hordered.1 call' hcall')

/-- **A server answers as a store in memory.** Requests at instants that do not decrease, with
lifetimes of whole milliseconds, are answered through a client exactly as by a store in memory, when
both start empty.

**Proof sketch.** The server shows what the store holds in the beginning, and each request keeps
this and is answered alike (`Shows.step`). -/
theorem same_answers (hdoc : Documented reads) (server : σ) (limit : Span) (connections : Nat)
    (hconnections : 0 < connections) (hempty : ∀ t key, reads server t key = none)
    (calls : List (Instant × Far.Request)) (hordered : calls.Pairwise (·.1 ≤ ·.1))
    (hwhole : ∀ call ∈ calls, Whole call.1 call.2) :
    Far.answers (⟨server, limit, connections⟩ : Client σ) calls =
      Far.answers ({} : MemoryStore) calls := by
  refine Shows.answers_eq hdoc hordered hwhole hconnections fun call _ t _ key => ?_
  rw [hempty]
  simp [MemoryStore.liveAt]

end Shows

/-! ## The server in memory -/

/-- The options of a `SET` ask for one thing only. -/
lemma SetOptions.unique {options : List String} {lifetime lifetime' : Option Nat}
    {condition condition' : Condition} (h : SetOptions options lifetime condition)
    (h' : SetOptions options lifetime' condition') :
    lifetime' = lifetime ∧ condition' = condition := by
  induction h generalizing lifetime' condition' with
  | nothing =>
    cases h'
    exact ⟨rfl, rfl⟩
  | @present options lifetime _ ih =>
    generalize hwords : "XX" :: options = words at h'
    cases h' with
    | present h' =>
      obtain rfl := (List.cons.inj hwords).2
      exact ⟨(ih h').1, rfl⟩
    | _ => simp at hwords
  | @absent options lifetime _ ih =>
    generalize hwords : "NX" :: options = words at h'
    cases h' with
    | absent h' =>
      obtain rfl := (List.cons.inj hwords).2
      exact ⟨(ih h').1, rfl⟩
    | _ => simp at hwords
  | @expiry options condition n _ ih =>
    generalize hwords : "PX" :: toString n :: options = words at h'
    cases h' with
    | expiry m h' =>
      obtain ⟨hnumber, rfl⟩ := List.cons.inj (List.cons.inj hwords).2
      exact ⟨congrArg some (Nat.repr_inj.mp hnumber).symm, (ih h').2⟩
    | _ => simp at hwords

/-- The command behind the words of a `SET`. -/
lemma command_of_set {command : Command} {key data : Bytes} {options : List String}
    {lifetime : Option Nat} {condition : Condition}
    (hwords : command.words = Utf8.encode "SET" :: key :: data :: options.map Utf8.encode)
    (hoptions : SetOptions options lifetime condition) :
    ∃ name, command = .set name data lifetime condition ∧ key = Utf8.encode name := by
  cases command with
  | set name data' lifetime' condition' =>
    obtain ⟨rfl, rfl, hsent⟩ : Utf8.encode name = key ∧ data' = data ∧
        (Command.lifetimeWords lifetime' ++ Command.conditionWords condition').map Utf8.encode =
          options.map Utf8.encode := by
      simpa only [Command.words, List.cons_append, List.nil_append, List.cons.injEq, true_and]
        using hwords
    obtain rfl := (List.map_inj_right fun _ _ => Utf8.encode_inj.mp).mp hsent
    obtain ⟨rfl, rfl⟩ := hoptions.unique (setOptions_sent lifetime' condition')
    exact ⟨name, rfl, rfl⟩
  | _ => simp [Command.words, Utf8.encode_inj] at hwords

namespace Table

variable {t : Table} {now instant : Instant}

/-- What the keys of the server in memory read as. -/
def reads (t : Table) (now : Instant) (key : Bytes) : Option Bytes :=
  (Utf8.text? key).bind fun k => (t.find? now k).map Held.data

lemma reads_encode (t : Table) (now : Instant) (key : String) :
    t.reads now (Utf8.encode key) = (t.find? now key).map Held.data := by
  rw [reads, Utf8.text?_encode, Option.bind_some]

/-- Bytes that are no key read as nothing. -/
lemma reads_of_no_text (t : Table) (now : Instant) {key : Bytes} (h : Utf8.text? key = none) :
    t.reads now key = none := by
  rw [reads, h, Option.bind_none]

/-- An entry with a deadline reads as its data before that. -/
lemma read_held (data : Bytes) (expiry : Instant) :
    ((some ⟨data, some expiry⟩ : Option Held).filter fun h => !h.isExpired instant).map Held.data =
      if decide (instant < expiry) = true then some data else none := by
  simp [Held.isExpired, Option.filter, apply_ite]

/-- A key that was written reads as the data while the lifetime lasts. -/
lemma reads_insert (key : String) (data : Bytes) (lifetime : Option Nat) (k : Bytes) :
    (⟨t.entries.insert key ⟨data, deadline now lifetime⟩⟩ : Table).reads instant k =
      if k = Utf8.encode key then (if lasts now lifetime instant then some data else none)
      else t.reads instant k := by
  cases hk : Utf8.text? k with
  | none =>
    have hne : k ≠ Utf8.encode key := by
      rintro rfl
      simp at hk
    rw [if_neg hne, reads_of_no_text _ _ hk, reads_of_no_text _ _ hk]
  | some name =>
    obtain rfl := Utf8.encode_of_text? hk
    simp only [reads_encode, Utf8.encode_inj, find?, Std.HashMap.getElem?_insert]
    by_cases hname : name = key
    · subst hname
      cases lifetime with
      | none => simp [deadline, lasts_none, Held.isExpired]
      | some n =>
        rw [lasts_some, deadline, Option.map_some, if_pos BEq.rfl, if_pos rfl]
        exact read_held data (now + Span.milliseconds n)
    · simp [hname, Ne.symm hname]

/-- A key that was dropped reads as nothing. -/
lemma reads_drop (keys : List String) (n : Nat) (k : Bytes) :
    (keys.foldl (drop now) (n, t)).2.reads instant k =
      if k ∈ keys.map Utf8.encode then none else t.reads instant k := by
  induction keys generalizing n t with
  | nil => simp
  | cons key keys ih =>
    rw [List.foldl_cons, drop, ih]
    cases hk : Utf8.text? k with
    | none => simp [reads_of_no_text _ _ hk]
    | some name =>
      obtain rfl := Utf8.encode_of_text? hk
      simp only [reads_encode, find?, Std.HashMap.getElem?_erase]
      by_cases hname : name = key
      · simp [hname]
      · simp [Utf8.encode_inj, hname, Ne.symm hname]

/-- The server in memory takes the lifetimes that servers take. -/
lemma takes_of_takeable {lifetime : Option Nat} (h : ∀ n ∈ lifetime, Takeable n) :
    takes lifetime = true := by
  cases lifetime with
  | none => rfl
  | some n =>
    obtain ⟨hpos, hlt⟩ := h n rfl
    simp only [takes, Option.all_some, Bool.and_eq_true, decide_eq_true_eq]
    exact ⟨hpos, Nat.lt_trans hlt (by decide)⟩

/-- **The server in memory** does what is documented. -/
lemma documented : Documented Table.reads where
  get t now command key hwords := by
    cases command with
    | get name =>
      obtain rfl : Utf8.encode name = key := by simpa [Command.words] using hwords
      rw [reads_encode]
      simp only [Server.exchange, reply]
      cases t.find? now name <;> exact ⟨rfl, fun _ _ _ => rfl⟩
    | _ => simp [Command.words, Utf8.encode_inj] at hwords
  applied t now command key data options lifetime condition hwords hoptions hlifetime hallows := by
    obtain ⟨name, rfl, rfl⟩ := command_of_set hwords hoptions
    rw [reads_encode, Option.isSome_map] at hallows
    simp only [Server.exchange, reply, takes_of_takeable hlifetime, hallows, Bool.not_true,
      Bool.false_eq_true, if_false, if_true]
    exact ⟨trivial, fun instant _ k => reads_insert name data lifetime k⟩
  refused t now command key data options lifetime condition hwords hoptions hlifetime hallows := by
    obtain ⟨name, rfl, rfl⟩ := command_of_set hwords hoptions
    rw [reads_encode, Option.isSome_map] at hallows
    simp only [Server.exchange, reply, takes_of_takeable hlifetime, hallows, Bool.not_true,
      Bool.false_eq_true, if_false]
    exact ⟨trivial, fun _ _ _ => trivial⟩
  delete t now command keys _ hwords := by
    cases command with
    | delete names =>
      obtain rfl : names.map Utf8.encode = keys := by simpa [Command.words] using hwords
      exact ⟨⟨_, rfl⟩, fun instant _ k => reads_drop names 0 k⟩
    | _ => simp [Command.words, Utf8.encode_inj] at hwords
  ping t now command hwords := by
    cases command with
    | ping => exact ⟨rfl, fun _ _ _ => rfl⟩
    | _ => simp [Command.words, Utf8.encode_inj] at hwords

end Table

/-- A refused and an applied conditional write, look-ups before and at the very deadline, a deletion
of no keys and one of two. -/
def conditionalWrites : List (Instant × Far.Request) :=
  [(0, .write .ifPresent "k" [1] 0), (0, .write .ifAbsent "k" [2] (Span.milliseconds 5)),
    (4999999, .get "k"), (4999999, .write .ifAbsent "k" [3] 0), (5000000, .get "k"),
    (5000000, .delete []), (6000000, .write .always "j" [4] 0), (7000000, .delete ["j", "k"]),
    (7000000, .get "j")]

/-- The server in memory answers these requests as a store in memory does. -/
theorem same_answers_conditionalWrites :
    0 < 1 ∧ conditionalWrites.Pairwise (·.1 ≤ ·.1) ∧
      (∀ call ∈ conditionalWrites, Whole call.1 call.2) ∧
      Far.answers (⟨{}, 0, 1⟩ : Client Table) conditionalWrites =
        Far.answers ({} : MemoryStore) conditionalWrites := by
  have hordered : conditionalWrites.Pairwise (·.1 ≤ ·.1) := by decide
  have hwhole : ∀ call ∈ conditionalWrites, Whole call.1 call.2 := by
    have hzero : ∀ now condition key data, Whole now (.write condition key data 0) :=
      fun _ _ _ _ => ⟨⟨0, by decide, rfl⟩, fun h => absurd rfl h⟩
    simp only [conditionalWrites, List.forall_mem_cons]
    exact ⟨hzero .., ⟨⟨5, by decide, rfl⟩, fun _ => by decide⟩, trivial, hzero .., trivial, trivial,
      hzero .., trivial, trivial, nofun⟩
  have hempty : ∀ t key, Table.reads {} t key = none := by
    intro t key
    simp [Table.reads, Table.find?]
  refine ⟨Nat.one_pos, hordered, hwhole, ?_⟩
  exact same_answers Table.documented {} 0 1 Nat.one_pos hempty conditionalWrites hordered hwhole

end KeyValue

end LayeredCache
