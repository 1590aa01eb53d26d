import Mathlib.Data.List.Infix

/-!
A stream of lines between a writer and a reader. What the writer puts in goes out in pieces of
any size and arrives in pieces of any size; the reader has a buffer with a limit, from whose
front it takes a line when there is a whole one. However the stream is cut, the reader takes the
lines that were written, one after the other, and as long as every line fits the buffer there
is room for the next piece.
-/

namespace Lines

variable {α : Type}

/-- The lines one after the other, each with its delimiter. -/
def joined (delimiter : α) (lines : List (List α)) : List α :=
  lines.flatMap fun line => line ++ [delimiter]

section Joined

variable {delimiter : α}

@[simp] theorem joined_nil : joined delimiter [] = [] := rfl

theorem joined_cons (line : List α) (lines : List (List α)) :
    joined delimiter (line :: lines) = line ++ delimiter :: joined delimiter lines := by
  simp [joined]

theorem joined_append (lines lines' : List (List α)) :
    joined delimiter (lines ++ lines') = joined delimiter lines ++ joined delimiter lines' :=
  List.flatMap_append

/-- What comes before the first delimiter is no longer than the line. -/
theorem length_le_line {buffer rest line rest' : List α} (whole : delimiter ∉ buffer)
    (h : buffer ++ rest = line ++ delimiter :: rest') : buffer.length ≤ line.length := by
  obtain ⟨more, rfl, same⟩ | ⟨more, rfl, -⟩ := List.append_eq_append_iff.mp h
  · rw [List.length_append]
    omega
  · cases more with
    | nil => simp
    | cons a more => simp_all

end Joined

variable [DecidableEq α]

/-- The first line of a text and what follows its delimiter, when the line has ended. -/
def takeLine (delimiter : α) : List α → Option (List α × List α)
  | [] => none
  | a :: text =>
      if a = delimiter then some ([], text)
      else (takeLine delimiter text).map fun (line, rest) => (a :: line, rest)

section Text

variable {delimiter : α}

theorem takeLine_append {line : List α} (h : delimiter ∉ line) (rest : List α) :
    takeLine delimiter (line ++ delimiter :: rest) = some (line, rest) := by
  induction line with
  | nil => simp [takeLine]
  | cons a line ih =>
      rw [List.mem_cons, not_or] at h
      rw [List.cons_append, takeLine, if_neg (Ne.symm h.1), ih h.2]
      rfl

theorem takeLine_eq_some {text line rest : List α} (h : takeLine delimiter text = some (line, rest)) :
    text = line ++ delimiter :: rest ∧ delimiter ∉ line := by
  induction text generalizing line with
  | nil => cases h
  | cons a text ih =>
      rw [takeLine] at h
      split at h
      · next same =>
          obtain ⟨rfl, rfl⟩ := Prod.mk.inj (Option.some.inj h)
          exact ⟨congrArg (· :: text) same, List.not_mem_nil⟩
      · next other =>
          obtain ⟨⟨line', rest'⟩, taken, same⟩ := Option.map_eq_some_iff.mp h
          obtain ⟨rfl, rfl⟩ := Prod.mk.inj same
          obtain ⟨rfl, whole⟩ := ih taken
          refine ⟨rfl, ?_⟩
          rw [List.mem_cons, not_or]
          exact ⟨Ne.symm other, whole⟩

theorem takeLine_eq_none {text : List α} (h : takeLine delimiter text = none) :
    delimiter ∉ text := by
  intro member
  obtain ⟨line, rest, rfl, whole⟩ := List.eq_append_cons_of_mem member
  rw [takeLine_append whole] at h
  cases h

/-- A delimiter ends a line: two texts that begin with a line have it in common. -/
theorem line_unique {line line' rest rest' : List α} (whole : delimiter ∉ line)
    (whole' : delimiter ∉ line') (h : line ++ delimiter :: rest = line' ++ delimiter :: rest') :
    line = line' ∧ rest = rest' := by
  have taken := takeLine_append whole rest
  rw [h, takeLine_append whole' rest'] at taken
  obtain ⟨rfl, rfl⟩ := Prod.mk.inj (Option.some.inj taken)
  exact ⟨rfl, rfl⟩

/-- Lines that a text of lines begins with are the first of its lines. -/
theorem joined_cancel {read written : List (List α)} {rest : List α}
    (taken : ∀ line ∈ read, delimiter ∉ line) (whole : ∀ line ∈ written, delimiter ∉ line)
    (h : joined delimiter read ++ rest = joined delimiter written) :
    ∃ later, written = read ++ later ∧ rest = joined delimiter later := by
  induction read generalizing written with
  | nil => exact ⟨written, rfl, h⟩
  | cons line read ih =>
      cases written with
      | nil => simp [joined_cons] at h
      | cons line' written =>
          rw [joined_cons, joined_cons, List.append_assoc, List.cons_append] at h
          obtain ⟨rfl, same⟩ := line_unique (taken line List.mem_cons_self)
            (whole line' List.mem_cons_self) h
          obtain ⟨later, rfl, rest⟩ := ih (fun a ha => taken a (List.mem_cons_of_mem line ha))
            (fun a ha => whole a (List.mem_cons_of_mem line ha)) same
          exact ⟨later, rfl, rest⟩

end Text

end Lines

/-- What is on the way: put in by the writer, sent, and arrived in the reader's buffer. -/
structure Lines.Stream (α : Type) where
  outgoing : List α := []
  inFlight : List α := []
  buffer : List α := []
deriving DecidableEq

namespace Lines.Stream

variable {α : Type}

section Writer

variable (stream : Stream α)

def write (text : List α) : Stream α := { stream with outgoing := stream.outgoing ++ text }

def send (n : Nat) : Option (Stream α) :=
  if 0 < n ∧ n ≤ stream.outgoing.length then
    some { stream with
      outgoing := stream.outgoing.drop n
      inFlight := stream.inFlight ++ stream.outgoing.take n }
  else none

def content : List α := stream.buffer ++ (stream.inFlight ++ stream.outgoing)

variable {stream} {stream' : Stream α}

@[simp] theorem write_content (text : List α) :
    (stream.write text).content = stream.content ++ text := by
  simp [write, content]

theorem send_content {n : Nat} (h : stream.send n = some stream') :
    stream'.content = stream.content := by
  simp only [send, Option.ite_none_right_eq_some, Option.some.injEq] at h
  obtain ⟨-, rfl⟩ := h
  simp [content]

end Writer

/-- The lines that were written are those that have been read and those on the way. -/
structure Carries (delimiter : α) (limit : Nat) (written taken : List (List α))
    (stream : Stream α) : Prop where
  content : joined delimiter taken ++ stream.content = joined delimiter written
  whole : ∀ line ∈ written, delimiter ∉ line ∧ line.length < limit
  taken : ∀ line ∈ taken, delimiter ∉ line

namespace Carries

variable {delimiter : α} {limit : Nat} {stream stream' : Stream α}
  {written later taken : List (List α)}

theorem start : Carries delimiter limit [] [] {} := ⟨rfl, nofun, nofun⟩

theorem write (h : Carries delimiter limit written taken stream)
    (whole : ∀ line ∈ later, delimiter ∉ line ∧ line.length < limit) :
    Carries delimiter limit (written ++ later) taken (stream.write (joined delimiter later)) := by
  refine ⟨?_, fun line hline => ?_, h.taken⟩
  · rw [write_content, ← List.append_assoc, h.content, joined_append]
  · exact (List.mem_append.mp hline).elim (h.whole line) (whole line)

theorem send {n : Nat} (h : Carries delimiter limit written taken stream)
    (moved : stream.send n = some stream') : Carries delimiter limit written taken stream' :=
  ⟨send_content moved ▸ h.content, h.whole, h.taken⟩

end Carries

variable [DecidableEq α]

section Reader

variable (delimiter : α) (limit : Nat) (stream : Stream α)

/-- The reader asks for more only while there is no line in its buffer. -/
def receive (n : Nat) : Option (Stream α) :=
  if 0 < n ∧ n ≤ stream.inFlight.length ∧ delimiter ∉ stream.buffer ∧
      stream.buffer.length + n ≤ limit then
    some { stream with
      inFlight := stream.inFlight.drop n
      buffer := stream.buffer ++ stream.inFlight.take n }
  else none

def read : Option (List α × Stream α) :=
  (takeLine delimiter stream.buffer).map fun (line, rest) => (line, { stream with buffer := rest })

/-- The buffer is full and there is no line in it. -/
def Overflows : Prop := delimiter ∉ stream.buffer ∧ limit ≤ stream.buffer.length

/-- Nothing can be sent, received or read. -/
structure Still : Prop where
  send : stream.send 1 = none
  receive : stream.receive delimiter limit 1 = none
  read : stream.read delimiter = none

variable {delimiter limit stream} {stream' : Stream α}

theorem receive_content {n : Nat} (h : stream.receive delimiter limit n = some stream') :
    stream'.content = stream.content := by
  simp only [receive, Option.ite_none_right_eq_some, Option.some.injEq] at h
  obtain ⟨-, rfl⟩ := h
  rw [content, content, List.append_assoc, ← List.append_assoc (stream.inFlight.take n),
    List.take_append_drop]

theorem read_content {line : List α} (h : stream.read delimiter = some (line, stream')) :
    stream.content = line ++ delimiter :: stream'.content ∧ delimiter ∉ line := by
  obtain ⟨⟨line', rest⟩, taken, same⟩ := Option.map_eq_some_iff.mp h
  obtain ⟨rfl, rfl⟩ := Prod.mk.inj same
  obtain ⟨buffer, whole⟩ := takeLine_eq_some taken
  refine ⟨?_, whole⟩
  rw [content, buffer, List.append_assoc, List.cons_append]
  rfl

end Reader

namespace Carries

variable {delimiter : α} {limit : Nat} {stream stream' : Stream α}
  {written taken : List (List α)} {line : List α}

theorem receive {n : Nat} (h : Carries delimiter limit written taken stream)
    (moved : stream.receive delimiter limit n = some stream') :
    Carries delimiter limit written taken stream' :=
  ⟨receive_content moved ▸ h.content, h.whole, h.taken⟩

theorem read (h : Carries delimiter limit written taken stream)
    (moved : stream.read delimiter = some (line, stream')) :
    Carries delimiter limit written (taken ++ [line]) stream' := by
  obtain ⟨content, whole⟩ := read_content moved
  refine ⟨?_, h.whole, fun other hother => ?_⟩
  · rw [← h.content, content, joined_append, List.append_assoc, joined_cons]
    simp
  · obtain before | now := List.mem_append.mp hother
    · exact h.taken other before
    · exact List.mem_singleton.mp now ▸ whole

/-- What is on the way is the rest of the lines. -/
theorem rest (h : Carries delimiter limit written taken stream) :
    ∃ later, written = taken ++ later ∧ stream.content = joined delimiter later :=
  joined_cancel h.taken (fun line hline => (h.whole line hline).1) h.content

theorem taken_prefix (h : Carries delimiter limit written taken stream) : taken <+: written := by
  obtain ⟨later, same, -⟩ := h.rest
  exact ⟨later, same.symm⟩

/-- Every line fits the buffer, so there is room as long as no line is whole. -/
theorem not_overflows (h : Carries delimiter limit written taken stream) (positive : 0 < limit) :
    ¬ stream.Overflows delimiter limit := by
  rintro ⟨unended, full⟩
  obtain ⟨later, rfl, rest⟩ := h.rest
  cases later with
  | nil =>
      have empty : stream.buffer = [] := (List.append_eq_nil_iff.mp rest).1
      rw [empty] at full
      exact absurd full (Nat.not_le.mpr positive)
  | cons line later =>
      have short := (h.whole line (by simp)).2
      rw [joined_cons, Stream.content] at rest
      have length := length_le_line unended rest
      omega

/-- The stream comes to rest only when everything has been read. -/
theorem taken_all (h : Carries delimiter limit written taken stream) (positive : 0 < limit)
    (still : stream.Still delimiter limit) : taken = written := by
  have unended : delimiter ∉ stream.buffer :=
    takeLine_eq_none (Option.map_eq_none_iff.mp still.read)
  have room : stream.buffer.length + 1 ≤ limit := by
    by_contra full
    exact h.not_overflows positive ⟨unended, by omega⟩
  have sent : stream.outgoing = [] := by
    by_contra more
    have possible : 0 < 1 ∧ 1 ≤ stream.outgoing.length :=
      ⟨Nat.one_pos, List.length_pos_iff.mpr more⟩
    have none := still.send
    rw [Stream.send, if_pos possible] at none
    cases none
  have arrived : stream.inFlight = [] := by
    by_contra more
    have possible : 0 < 1 ∧ 1 ≤ stream.inFlight.length ∧ delimiter ∉ stream.buffer ∧
        stream.buffer.length + 1 ≤ limit :=
      ⟨Nat.one_pos, List.length_pos_iff.mpr more, unended, room⟩
    have none := still.receive
    rw [Stream.receive, if_pos possible] at none
    cases none
  obtain ⟨later, rfl, rest⟩ := h.rest
  rw [Stream.content, sent, arrived, List.append_nil, List.append_nil] at rest
  cases later with
  | nil => rw [List.append_nil]
  | cons line later =>
      rw [rest, joined_cons] at unended
      simp at unended

end Carries

end Lines.Stream
