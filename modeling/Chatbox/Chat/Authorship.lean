import Chatbox.Chat.Nicknames
import Chatbox.Chat.Posting

/-!
Who has said what is in a history. A line that reads as said under a nickname was put there
either by the host, word for word, or for a session that had been admitted under that very
nickname, had proved the key the nickname is bound to, and had sent that very text. No text that
a session sends reads as another's line, and none as the server's.
-/

namespace Chatbox.Chat

open Text Protocol Storage

/-- `hh:mm:ss`, or what looks like it. -/
structure TimeLike (time : Bytes) : Prop where
  length : time.length = 8
  digits : ∀ ch ∈ time, isDigit ch = true ∨ ch = 58

/-- The line reads as a chat line: a time, the nickname and the text. -/
def ReadsAs (nickname body line : Bytes) : Prop :=
  ∃ time, TimeLike time ∧
    line = ascii "[" ++ time ++ ascii "] " ++ nickname ++ ascii ": " ++ body

/-- A session has sent the text after it had proved the key of its nickname. -/
def Authored (env : Env) (before : Trace) (identities : Std.ExtTreeMap Bytes Bytes)
    (nickname body : Bytes) : Prop :=
  isValidNickname nickname = true ∧ nickname ≠ env.config.localNickname ∧
    ∃ s key, .received s (.chat body) ∈ before ∧ Presented env before s nickname key ∧
      identities[nickname]? = some key

section Lines

variable {env : Env} {nickname nickname' body body' line : Bytes}

theorem chatLine_readsAs (reading : Nat) :
    ReadsAs nickname body (ChatServer.chatLine env reading nickname body) := by
  have digit (d : Nat) (h : d < 10) : isDigit (UInt8.ofNat (48 + d)) = true := by
    have all : ∀ d < 10, isDigit (UInt8.ofNat (48 + d)) = true := by decide
    exact all d h
  have small (n : Nat) (h : n < 61) : ∀ ch ∈ twoDigits n, isDigit ch = true := by
    intro ch member
    simp only [twoDigits, List.mem_cons, List.not_mem_nil, or_false] at member
    rcases member with rfl | rfl
    · exact digit (n / 10) (by omega)
    · exact digit (n % 10) (by omega)
  have colon : ascii ":" = [58] := by decide
  refine ⟨env.timestamp reading, ⟨?_, ?_⟩, rfl⟩
  · simp [Env.timestamp, twoDigits, colon]
  · intro ch member
    cases time : env.localTime reading with
    | mk hour rest =>
        simp only [Env.timestamp, time, colon, List.mem_append, List.mem_singleton] at member
        rcases member with (((member | rfl) | member) | rfl) | member
        · exact .inl (small hour (by omega) ch member)
        · exact .inr rfl
        · exact .inl (small rest.1 (by omega) ch member)
        · exact .inr rfl
        · exact .inl (small rest.2 rest.2.isLt ch member)

/-- The first space behind the time ends the nickname. -/
theorem ReadsAs.unique (h : ReadsAs nickname body line) (h' : ReadsAs nickname' body' line)
    (valid : isValidNickname nickname = true) (valid' : isValidNickname nickname' = true) :
    nickname = nickname' ∧ body = body' := by
  obtain ⟨time, length, rfl⟩ := h
  obtain ⟨time', length', same⟩ := h'
  have spaceless {name : Bytes} (valid : isValidNickname name = true) :
      (32 : UInt8) ∉ name ++ [58] := by
    intro member
    rcases List.mem_append.mp member with inside | colon
    · exact absurd ((isValidNickname_iff.mp valid).2.2 32 inside).2.1 (by decide)
    · simp at colon
  have cut (time name body : Bytes) :
      ascii "[" ++ time ++ ascii "] " ++ name ++ ascii ": " ++ body =
        (ascii "[" ++ time ++ ascii "] ") ++ ((name ++ [58]) ++ 32 :: body) := by
    simp [ascii]
  rw [cut, cut] at same
  have lengths : (ascii "[" ++ time ++ ascii "] ").length =
      (ascii "[" ++ time' ++ ascii "] ").length := by
    simp [length.length, length'.length]
  have rest := (List.append_inj same lengths).2
  obtain ⟨names, bodies⟩ := first_delimiter_unique (spaceless valid) (spaceless valid') rest
  exact ⟨List.append_cancel_right names, bodies⟩

/-- What the server writes in its own name reads as nobody's line. -/
theorem Marked.not_readsAs (marked : Marked line) : ¬ ReadsAs nickname body line := by
  rintro ⟨time, ⟨length, digits⟩, rfl⟩
  obtain ⟨first, rest, rfl⟩ : ∃ first rest, time = first :: rest :=
    List.exists_cons_of_length_eq_add_one length
  have digit := digits first List.mem_cons_self
  rcases marked with system | server
  · simp [ascii] at system
    obtain ⟨rfl, -⟩ := system
    simp +decide at digit
  · simp [ascii] at server
    obtain ⟨rfl, -⟩ := server
    simp +decide at digit

end Lines

section Runs

variable {env : Env} {stored : StoredState} {server server' : ChatServer} {event : Event}

theorem Authored.mono {before before' : Trace} {a b : Std.ExtTreeMap Bytes Bytes}
    {nickname body : Bytes} (h : Authored env before a nickname body)
    (later : before <+: before')
    (bound : ∀ nick key : Bytes, a[nick]? = some key → b[nick]? = some key) :
    Authored env before' b nickname body := by
  obtain ⟨valid, guest, s, key, received, presented, holds⟩ := h
  obtain ⟨new, rfl⟩ := later
  exact ⟨valid, guest, s, key, List.mem_append_left new received, presented.append,
    bound _ _ holds⟩

/-- Where the line at a place of the trace comes from. -/
def Sourced (env : Env) (events : List Event) (identities : Std.ExtTreeMap Bytes Bytes)
    (before : Trace) (line : Bytes) : Prop :=
  Marked line ∨ .broadcast line ∈ events ∨ ∃ nickname body reading,
    Authored env before identities nickname body ∧
      line = ChatServer.chatLine env reading nickname body

/-- What a step records has a source in what came before. -/
theorem step_sourced (reachable : Reachable env stored server)
    (h : step env server event = some server') {new before after : Trace} {roomId : RoomId}
    {line : Bytes} (grown : server'.output.trace = server.output.trace ++ new)
    (place : new = before ++ .recorded roomId line :: after) :
    Sourced env [event] server'.tables.identities (server.output.trace ++ before) line := by
  obtain ⟨new', grown', caused⟩ := step_caused h
  obtain rfl : new' = new := List.append_cancel_left (grown'.symm.trans grown)
  have here : .recorded roomId line ∈ new' := by simp [place]
  obtain marked | said := caused _ here
  · exact .inl marked
  · cases said with
    | host => exact .inr (.inl (by simp))
    | chat s frame body line roomId decodes said =>
        obtain ⟨-, named, -, reading, rfl⟩ := said
        have first : ∃ rest, new' = .received s (.chat body) :: rest := by
          simp only [step, Option.ite_none_right_eq_some, Option.some.injEq] at h
          obtain ⟨-, rfl⟩ := h
          simp only [ChatServer.onLine, decodes] at grown
          have deeds : Deeds (fun _ => True) (fun _ => True) (server.note (.received s (.chat body)))
              (server.onMessage env s (.chat body)) :=
            ChatServer.onMessage_deeds trivial (fun _ _ => trivial) (fun _ => trivial)
              (fun _ => trivial) (fun _ _ => trivial) fun _ _ _ _ _ => trivial
          obtain ⟨rest, htrace, -⟩ := deeds.emits
          rw [grown, ChatServer.note_trace, List.append_assoc] at htrace
          exact ⟨rest, List.append_cancel_left htrace⟩
        obtain ⟨rest, rfl⟩ := first
        have received : .received s (.chat body) ∈ before := by
          cases before with
          | nil => cases (List.cons.inj place).1
          | cons e before => exact (List.cons.inj place).1 ▸ List.mem_cons_self
        obtain ⟨key, holds, presented⟩ := (reachable_credited reachable).presented s named
        have valid := ((reachable_consistent reachable).valid s).resolve_left named
        have guest := (reachable_unambiguous reachable).host s named
        exact .inr (.inr ⟨_, body, reading, ⟨valid, guest, s, key,
          List.mem_append_right _ received, presented.append, step_bound h _ _ holds⟩, rfl⟩)

theorem run_sourced {events : List Event}
    (h : Run.run (step env) (ChatServer.start env stored) events = some server)
    {before after : Trace} {roomId : RoomId} {line : Bytes}
    (place : server.output.trace = before ++ .recorded roomId line :: after) :
    Sourced env events server.tables.identities before line := by
  induction events using List.reverseRecOn generalizing server after with
  | nil =>
      obtain rfl := Option.some.inj h
      have recorded : .recorded roomId line ∈ (ChatServer.start env stored).output.trace := by
        simp [place]
      obtain ⟨write, same⟩ := ChatServer.start_stores env stored _ recorded
      cases same
  | append_singleton events event ih =>
      obtain ⟨middle, run, stepped⟩ := Run.run_snoc.mp h
      obtain ⟨new, grown, -⟩ := step_caused stepped
      have split := grown.symm.trans place
      obtain ⟨later, rfl, new⟩ | ⟨later, early, rest⟩ := List.append_eq_append_iff.mp split
      · obtain marked | said | authored :=
          step_sourced ⟨events, run⟩ stepped grown new
        · exact .inl marked
        · exact .inr (.inl (List.mem_append_right events said))
        · exact .inr (.inr authored)
      · cases later with
        | nil =>
            rw [List.append_nil] at early
            obtain marked | said | authored :=
              @step_sourced _ _ _ _ _ ⟨events, run⟩ stepped _ [] _ _ _ grown rest.symm
            · exact .inl marked
            · exact .inr (.inl (List.mem_append_right events said))
            · rw [List.append_nil, early] at authored
              exact .inr (.inr authored)
        | cons e later =>
            obtain ⟨rfl, -⟩ := List.cons.inj rest
            obtain marked | said | ⟨nickname, body, reading, authored, same⟩ := ih run early
            · exact .inl marked
            · exact .inr (.inl (List.mem_append_left [event] said))
            · exact .inr (.inr ⟨nickname, body, reading,
                authored.mono List.prefix_rfl (step_bound stepped), same⟩)

/-- A recorded line that reads as said under a nickname was given to the host to broadcast, word
for word, or a session had sent its text after proving the key that the nickname is bound to. -/
theorem run_authors {events : List Event}
    (h : Run.run (step env) (ChatServer.start env stored) events = some server)
    {before after : Trace} {roomId : RoomId} {nickname body line : Bytes}
    (place : server.output.trace = before ++ .recorded roomId line :: after)
    (valid : isValidNickname nickname = true) (reads : ReadsAs nickname body line) :
    .broadcast line ∈ events ∨ Authored env before server.tables.identities nickname body := by
  obtain marked | said | ⟨nickname', body', reading, authored, rfl⟩ := run_sourced h place
  · exact absurd reads marked.not_readsAs
  · exact .inl said
  · obtain ⟨rfl, rfl⟩ := reads.unique (chatLine_readsAs reading) valid authored.1
    exact .inr authored

end Runs

end Chatbox.Chat
