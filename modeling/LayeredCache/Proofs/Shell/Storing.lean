import LayeredCache.Proofs.Bytes
import LayeredCache.Proofs.Cache.Writing
import LayeredCache.Proofs.Named
import LayeredCache.Shell.Session

/-!
# What a line stores

Whether a line of the shell stores a value, and which, is decided by its words. The command to store
takes a key and a value, and one word after them is a lifetime in seconds. If there are more words
than that, none of them is read: the value is stored all the same and never expires. No other line
writes anything into a tier but copies of what the far tier has.

## Main definitions

* `Shell.Asks` — the words of a line that asks to store a value.
* `Shell.Stores` — the words of a line that stores one: it asks to, or it has words too many.
* `Shell.told`, `Shell.Command.leads` — what a reply and what a command leads to.
* `Shell.Idle` — what a line leads to when it writes nothing.

## Main results

* `Shell.Command.ofWords_eq_set_iff` — which words stand for the command to store.
* `Shell.idle_of_ne_set` — the other commands write nothing.
* `Shell.stores_what_is_named` — what every line stores.
* `Shell.surplus_words_passed_over` — a line that stores a value and does not ask to.
-/

set_option autoImplicit false

namespace LayeredCache.Shell

/-! ## The words of a line -/

/-- The words of a line that asks to store a value: a command to store, a key, a value, and a
lifetime in seconds if there is to be one. -/
inductive Asks : List String → Condition → String → String → Span → Prop where
  | lasting {name : String} {condition : Condition} (setter : (name, condition) ∈ Command.setters)
      (key value : String) : Asks [name, key, value] condition key value 0
  | timed {name : String} {condition : Condition} (setter : (name, condition) ∈ Command.setters)
      (key value : String) {ttl : String} {n : Nat} (seconds : Text.natural? 64 ttl = some n) :
      Asks [name, key, value, ttl] condition key value (Span.seconds n)

/-- The words of a line that stores a value: it asks to, or it has two words or more after the
value, which are all passed over. -/
inductive Stores : List String → Condition → String → String → Span → Prop where
  | asked {words : List String} {condition : Condition} {key value : String} {ttl : Span}
      (asks : Asks words condition key value ttl) : Stores words condition key value ttl
  | surplus {name : String} {condition : Condition} (setter : (name, condition) ∈ Command.setters)
      (key value first second : String) (more : List String) :
      Stores (name :: key :: value :: first :: second :: more) condition key value 0

namespace Command

variable {name key value : String} {condition : Condition} {arguments : List String} {ttl : Span}

/-- The commands to store. -/
lemma setter_cases (h : (name, condition) ∈ setters) :
    name = "set" ∧ condition = .always ∨ name = "setnx" ∧ condition = .ifAbsent ∨
      name = "setxx" ∧ condition = .ifPresent := by
  simpa [setters] using h

/-- The commands to store are told apart by their names. -/
lemma lookup_setters (h : (name, condition) ∈ setters) : setters.lookup name = some condition := by
  obtain ⟨rfl, rfl⟩ | ⟨rfl, rfl⟩ | ⟨rfl, rfl⟩ := setter_cases h <;> rfl

/-- A command to store does not end the session. -/
lemma ofWords_setter (h : (name, condition) ∈ setters) (arguments : List String) :
    ofWords (name :: arguments) = named name arguments := by
  obtain ⟨rfl, -⟩ | ⟨rfl, -⟩ | ⟨rfl, -⟩ := setter_cases h <;> rfl

/-- A command to store with a key and a value. -/
lemma named_setter (h : (name, condition) ∈ setters) (key value : String) (rest : List String) :
    named name (key :: value :: rest) = setting condition key value rest := by
  unfold named
  rw [lookup_setters h]

/-- A command to store with less than that is unknown. -/
lemma named_short (h : (name, condition) ∈ setters) (hshort : arguments.length < 2) :
    named name arguments = .unknown (name :: arguments) := by
  match arguments with
  | [] | [_] => obtain ⟨rfl, -⟩ | ⟨rfl, -⟩ | ⟨rfl, -⟩ := setter_cases h <;> rfl

/-- **Words that store a value** stand for the command to store it. -/
lemma ofWords_stores {words : List String} (h : Stores words condition key value ttl) :
    ofWords words = .set condition key value ttl := by
  cases h with
  | asked asks =>
    cases asks with
    | lasting setter =>
      rw [ofWords_setter setter, named_setter setter]
      rfl
    | timed setter _ _ seconds =>
      rw [ofWords_setter setter, named_setter setter, setting, seconds]
  | surplus setter _ _ first second more =>
    rw [ofWords_setter setter, named_setter setter]
    rfl

/-- **A command to store that stores nothing**: it lacks a key or a value and is unknown, or it has
one word after them, which is no number of seconds. -/
lemma ofWords_idle (h : (name, condition) ∈ setters)
    (hidle : ∀ key value ttl, ¬ Stores (name :: arguments) condition key value ttl) :
    ofWords (name :: arguments) = .unknown (name :: arguments) ∨
      ofWords (name :: arguments) = .badLifetime := by
  rw [ofWords_setter h]
  match arguments with
  | [] => exact .inl (named_short h (by decide))
  | [_] => exact .inl (named_short h (by simp))
  | [key, value] => exact absurd (.asked (.lasting h key value)) (hidle key value 0)
  | [key, value, ttl] =>
    right
    rw [named_setter h, setting]
    cases hseconds : Text.natural? 64 ttl with
    | none => rfl
    | some n => exact absurd (.asked (.timed h key value hseconds)) (hidle key value _)
  | key :: value :: first :: second :: more =>
    exact absurd (.surplus h key value first second more) (hidle key value 0)

/-- Words that do not begin with a command to store stand for another command. -/
lemma ofWords_ne_set {words : List String}
    (h : ∀ name ∈ words.head?, ∀ condition, (name, condition) ∉ setters) :
    ofWords words ≠ .set condition key value ttl := by
  cases words with
  | nil => exact Command.noConfusion
  | cons name arguments =>
    have hlookup : setters.lookup name = none := by
      cases hlookup : setters.lookup name with
      | none => rfl
      | some condition => exact absurd (Named.mem_of_lookup hlookup) (h name rfl condition)
    show (if farewells.contains name then quit else named name arguments) ≠ _
    by_cases hquit : farewells.contains name = true
    · rw [if_pos hquit]
      exact Command.noConfusion
    · rw [if_neg hquit]
      unfold named
      rw [hlookup]
      split
      · rename_i hfound
        cases hfound
      all_goals exact Command.noConfusion

/-- **The command to store** is what words stand for exactly if they store a value.

**Proof sketch.** Words that store nothing stand for another command, whether they begin like this
one or not; and words that store a value stand for the command to store this one. -/
lemma ofWords_eq_set_iff {words : List String} :
    ofWords words = .set condition key value ttl ↔ Stores words condition key value ttl := by
  refine ⟨fun hset => ?_, ofWords_stores⟩
  by_cases hstores : ∃ condition key value ttl, Stores words condition key value ttl
  · obtain ⟨condition', key', value', ttl', h⟩ := hstores
    have hsame := (ofWords_stores h).symm.trans hset
    cases hsame
    exact h
  · exfalso
    by_cases hsetter : ∃ name ∈ words.head?, ∃ condition, (name, condition) ∈ setters
    · obtain ⟨name, hhead, condition', hname⟩ := hsetter
      obtain ⟨arguments, rfl⟩ := List.head?_eq_some_iff.mp hhead
      rcases ofWords_idle hname fun key value ttl h => hstores ⟨_, key, value, ttl, h⟩ with
        hidle | hidle
      · cases hidle.symm.trans hset
      · cases hidle.symm.trans hset
    · exact ofWords_ne_set (fun name hhead condition hname =>
        hsetter ⟨name, hhead, condition, hname⟩) hset

end Command

/-! ## Turns -/

section Turns

variable {σ : Type} [FarStore σ] {now : Instant} {c : Cache σ} {line : Bytes} {t : String}
  {condition : Condition} {key value : String} {ttl : Span}

/-- What a reply leads to: the next line, or the end of the session when there is none. -/
def told {σ : Type} : Option String × Cache σ → Turn σ
  | (some reply, c) => .next (reply ++ "\n") c
  | (none, _) => .stop .crashed

/-- What a command leads to: to what its reply does, unless there is nothing to reply to. -/
def Command.leads (now : Instant) (c : Cache σ) : Command → Turn σ
  | .nothing => .next "" c
  | .quit => .stop .done
  | command => told (command.answer now c)

/-- **A line leads** to what the command does that its words stand for. -/
lemma turn_of_text (ht : Utf8.text? line = some t) :
    turn now c line = (Command.ofWords (Text.words t)).leads now c := by
  unfold turn
  rw [ht]
  dsimp only [Command.ofLine]
  cases Command.ofWords (Text.words t) with
  | nothing | quit => rfl
  | _ =>
    dsimp only [Command.leads]
    split <;> rename_i hanswer <;> rw [hanswer] <;> rfl

/-- The operation by which a line stores a value. -/
def storing (s : Setup) (condition : Condition) (key value : String) (ttl : Span) :
    Prog (Except Failure Unit) :=
  s.set .text key (.text value) { ttl := ttl, condition := condition }

/-- A line that stores a value is answered by what comes of this. -/
lemma turn_of_stores (ht : Utf8.text? line = some t)
    (h : Stores (Text.words t) condition key value ttl) :
    turn now c line =
      told (perform now c (storing c.setup condition key value ttl) doneText) := by
  rw [turn_of_text ht, Command.ofWords_stores h]
  rfl

/-- A lifetime in whole seconds is not replaced. -/
lemma lifetime_of_stores {words : List String} (h : Stores words condition key value ttl) :
    ({ ttl := ttl, condition := condition } : CallOptions).lifetime = ttl := by
  have hwhole : ∃ n, ttl = Span.seconds n := by
    cases h with
    | asked asks =>
      cases asks with
      | lasting => exact ⟨0, rfl⟩
      | timed => exact ⟨_, rfl⟩
    | surplus => exact ⟨0, rfl⟩
  obtain ⟨n, rfl⟩ := hwhole
  refine if_pos ?_
  rcases Nat.eq_zero_or_pos n with rfl | hpos
  · exact .inl rfl
  · exact .inr (Nat.mul_le_mul_right _ hpos)

/-- **A line that stores a value** writes the bytes of the value once. -/
lemma contacts_of_stores {words : List String} (h : Stores words condition key value ttl) :
    Contact.WritesOnce c.setup condition key (Utf8.encode value) ttl
      ((storing c.setup condition key value ttl).contacts ⟨now, 0, none⟩ c) := by
  have hwrites : Prog.Throughout c.setup
      (Contact.WritesOnce c.setup condition key (Utf8.encode value)
        ({ ttl := ttl, condition := condition } : CallOptions).lifetime)
      (storing c.setup condition key value ttl) := Setup.set_writesOnce rfl rfl rfl
  rw [lifetime_of_stores h] at hwrites
  exact hwrites _ _ (Prog.trace_contacts _ _ c)

/-- What a line leads to when it writes nothing: to the next line, to the end of the session, or to
what comes of an operation that writes nothing. -/
inductive Idle (now : Instant) (c : Cache σ) : Turn σ → Prop where
  | passed : Idle now c (.next "" c)
  | ended (exit : Exit) : Idle now c (.stop exit)
  | performed {α : Type} (p : Prog α) (tell : α → String)
      (free : Contact.WriteFree (p.contacts ⟨now, 0, none⟩ c)) :
      Idle now c (told (perform now c p tell))

/-- An answer that leaves the cache alone writes nothing. -/
lemma Idle.answered (reply : String) : Idle now c (told (some reply, c)) :=
  .performed (.done reply) id Contact.writeFree_additive.nil

/-- **A line that is no command to store** writes nothing.

**Proof sketch.** By the command that it is: each is answered from what is known, or by a look-up or
a deletion. -/
lemma idle_of_ne_set (ht : Utf8.text? line = some t)
    (h : ∀ condition key value ttl,
      Command.ofWords (Text.words t) ≠ .set condition key value ttl) :
    Idle now c (turn now c line) := by
  have hfree : ∀ {α : Type} {p : Prog α}, Prog.Throughout c.setup Contact.WriteFree p →
      Contact.WriteFree (p.contacts ⟨now, 0, none⟩ c) :=
    fun hp => hp _ _ (Prog.trace_contacts _ _ c)
  rw [turn_of_text ht]
  cases hcommand : Command.ofWords (Text.words t) with
  | nothing => exact .passed
  | quit => exact .ended .done
  | set condition key value ttl => exact absurd hcommand (h condition key value ttl)
  | get key => exact .performed _ _ (hfree (Setup.lookup_writeFree c.setup .text key {}))
  | delete key => exact .performed _ _ (hfree (Setup.delete_writeFree c.setup key))
  | has key => exact .performed _ _ (hfree (Setup.has_writeFree c.setup key {}))
  | badLifetime | stats | metrics | unknown words => exact .answered _

/-- A command to store that stores nothing is answered by an error, or as unknown, and leaves the
cache alone. -/
lemma turn_of_idle {name : String} {arguments : List String} (ht : Utf8.text? line = some t)
    (hwords : Text.words t = name :: arguments) (hname : (name, condition) ∈ Command.setters)
    (hidle : ∀ key value ttl, ¬ Stores (Text.words t) condition key value ttl) :
    turn now c line = .next (errorText "ttl must be whole seconds" ++ "\n") c ∨
      turn now c line =
        .next ("unknown command: " ++ String.intercalate " " (Text.words t) ++ "\n") c := by
  rw [turn_of_text ht]
  rw [hwords] at hidle ⊢
  rcases Command.ofWords_idle hname hidle with hcommand | hcommand
  · rw [hcommand]
    exact .inr rfl
  · rw [hcommand]
    exact .inl rfl

/-- **What a line stores.** A line that stores a value is answered by what comes of setting the
value under its key, and this writes the bytes of the value once, under the condition of the command
and with the lifetime that the line names: none if it names none, and none if two words or more
follow the value.

Any other line writes nothing. If it begins with a command to store it leaves the cache alone, and
is answered by an error or as unknown. Bytes that are no text end the session.

**Proof sketch.** By the command that the words stand for (`Command.ofWords_stores`,
`Command.ofWords_idle`, `Command.ofWords_ne_set`). -/
theorem stores_what_is_named (now : Instant) (c : Cache σ) (line : Bytes) :
    (Utf8.text? line = none → turn now c line = .stop .failed) ∧
    ∀ t, Utf8.text? line = some t →
      (∀ condition key value ttl, Stores (Text.words t) condition key value ttl →
        turn now c line =
            told (perform now c (storing c.setup condition key value ttl) doneText) ∧
          Contact.WritesOnce c.setup condition key (Utf8.encode value) ttl
            ((storing c.setup condition key value ttl).contacts ⟨now, 0, none⟩ c)) ∧
      ((∀ condition key value ttl, ¬ Stores (Text.words t) condition key value ttl) →
        Idle now c (turn now c line) ∧
          ∀ name condition arguments, (name, condition) ∈ Command.setters →
            Text.words t = name :: arguments →
              turn now c line = .next (errorText "ttl must be whole seconds" ++ "\n") c ∨
                turn now c line = .next
                  ("unknown command: " ++ String.intercalate " " (Text.words t) ++ "\n") c) := by
  refine ⟨fun ht => ?_, fun t ht => ⟨fun condition key value ttl h => ?_, fun hnone => ⟨?_, ?_⟩⟩⟩
  · unfold turn
    rw [ht]
  · exact ⟨turn_of_stores ht h, contacts_of_stores h⟩
  · exact idle_of_ne_set ht fun condition key value ttl hset =>
      hnone condition key value ttl (Command.ofWords_eq_set_iff.mp hset)
  · intro name condition arguments hname hwords
    exact turn_of_idle ht hwords hname (hnone condition)

end Turns

/-- A cache whose far tier is a client of the server in memory. -/
def served : Cache (KeyValue.Client KeyValue.Table) := { far := some ⟨{}, 0, 1⟩ }

/-- A line that names a minute for a key that must be new, and one that names no number. -/
theorem stores_what_is_named_minute :
    Utf8.text? (Utf8.encode "setnx k v 60") = some "setnx k v 60" ∧
    Stores (Text.words "setnx k v 60") .ifAbsent "k" "v" (Span.seconds 60) ∧
    turn 0 served (Utf8.encode "setnx k v 60") =
      told (perform 0 served (storing served.setup .ifAbsent "k" "v" (Span.seconds 60))
        doneText) ∧
    Utf8.text? (Utf8.encode "set k v 1m") = some "set k v 1m" ∧
    (∀ condition key value ttl, ¬ Stores (Text.words "set k v 1m") condition key value ttl) ∧
    Idle 0 served (turn 0 served (Utf8.encode "set k v 1m")) := by
  have hnew : Stores (Text.words "setnx k v 60") .ifAbsent "k" "v" (Span.seconds 60) :=
    Command.ofWords_eq_set_iff.mp (by decide +kernel)
  have hnone : ∀ condition key value ttl,
      ¬ Stores (Text.words "set k v 1m") condition key value ttl := by
    intro condition key value ttl h
    have hcommand : Command.ofWords (Text.words "set k v 1m") = .badLifetime := by decide +kernel
    cases hcommand.symm.trans (Command.ofWords_eq_set_iff.mpr h)
  exact ⟨Utf8.text?_encode _, hnew,
    (((stores_what_is_named 0 served _).2 _ (Utf8.text?_encode _)).1 _ _ _ _ hnew).1,
    Utf8.text?_encode _, hnone,
    (((stores_what_is_named 0 served _).2 _ (Utf8.text?_encode _)).2 hnone).1⟩

/-- A client of the server in memory when this holds a value that never expires. -/
def holding : KeyValue.Client KeyValue.Table :=
  ⟨⟨(∅ : Std.HashMap String Far.Held).insert "k" ⟨[0x76], none⟩⟩, 0, 1⟩

/-- The value is found at any time. -/
lemma answer_holding (now : Instant) :
    FarStore.answer holding now (.get "k") = (.reply [0x76], holding) := by
  have hfind : holding.server.find? now "k" = some ⟨[0x76], none⟩ := by
    simp [holding, KeyValue.Table.find?, Far.Held.isExpired]
  have hreply : holding.server.reply now (.get "k") = (.bulk [0x76], holding.server) := by
    rw [KeyValue.Table.reply, hfind]
  have hexchange : KeyValue.Server.exchange holding.server now (.get "k") =
      (.replied (.bulk [0x76]), holding.server) := by
    simp only [KeyValue.Server.exchange, hreply]
  show KeyValue.Client.send holding now (.get "k") = _
  unfold KeyValue.Client.send
  rw [if_neg (by decide)]
  simp only [KeyValue.Command.ofRequest, hexchange]
  rfl

/-- A look-up in a cache without a near tier reads what the far tier replies. -/
lemma perform_get {σ : Type} [FarStore σ] {far : σ} {now : Instant} {key : String} {data : Bytes}
    (h : FarStore.answer far now (.get key) = (.reply data, far)) :
    Command.answer now ({ far := some far } : Cache σ) (.get key) =
      (some (foundText ((Content.stored data).read .text)), { far := some far }) := by
  have hrun : (Setup.get ⟨false, true, {}⟩ .text key {}).run ⟨now, 0, none⟩
      ({ far := some far } : Cache σ) =
        (.finished ((Content.stored data).read .text), { far := some far }) := by
    show Prog.run _ (Prog.call (.get key) _) _ = _
    rw [Prog.run]
    simp only [h]
    rfl
  show perform now _ (Setup.get ⟨false, true, {}⟩ .text key {}) foundText = _
  rw [perform, Prog.visit, hrun]

/-- **A word too many** costs a value its lifetime: the line does not ask to store anything in the
way that is meant, and the value that it stores is still there when ten seconds are over. -/
theorem surplus_words_passed_over :
    (∀ condition key value ttl, ¬ Asks (Text.words "set k v 10 x") condition key value ttl) ∧
    session served [(0, Utf8.encode "set k v 10 x"), (Span.seconds 11, Utf8.encode "get k")] =
      ("OK\nv\n", .done) := by
  have hwords : Text.words "set k v 10 x" = ["set", "k", "v", "10", "x"] := by decide +kernel
  have hsurplus : Stores (Text.words "set k v 10 x") .always "k" "v" 0 :=
    Command.ofWords_eq_set_iff.mp (by decide +kernel)
  have hget : Command.ofWords (Text.words "get k") = .get "k" := by decide +kernel
  have hstored : turn 0 served (Utf8.encode "set k v 10 x") =
      .next "OK\n" { far := some holding } := by
    rw [turn_of_stores (Utf8.text?_encode _) hsurplus]
    rfl
  have hfound : turn (Span.seconds 11) { far := some holding } (Utf8.encode "get k") =
      .next "v\n" { far := some holding } := by
    have htext : foundText ((Content.stored [0x76]).read .text) = "v" := by decide +kernel
    rw [turn_of_text (Utf8.text?_encode _), hget]
    show told (Command.answer _ _ (.get "k")) = _
    rw [perform_get (answer_holding _), htext]
    rfl
  constructor
  · intro condition key value ttl h
    rw [hwords] at h
    cases h
  · rw [session, hstored]
    dsimp only
    rw [session, hfound]
    rfl

end LayeredCache.Shell
