import Chatbox.Lib.BinarySearch
import Chatbox.Lib.Text

/-!
The part of the transcript that is on the screen. A reader who has gone back holds on to a line
by the number of its message; it is found again after the transcript has lost lines at its
front and gained some at its end.
-/

namespace Chatbox.Ui

open Text BinarySearch

structure TranscriptLine where
  message : Nat := 0
  part : Nat := 0
  text : Bytes := []
  continuation : Bool := false
deriving DecidableEq, Repr

/-- `std::pair{ line.message, line.part } < std::pair{ message, part }` -/
def TranscriptLine.before (message part : Nat) (line : TranscriptLine) : Bool :=
  line.message < message || (line.message == message && line.part < part)

def Increasing (lines : List TranscriptLine) : Prop :=
  lines.Pairwise fun a b => a.before b.message b.part

structure Scrollback where
  follow : Bool := true
  message : Nat := 0
  part : Nat := 0
deriving DecidableEq, Repr

/-- `static_cast<std::size_t>(std::max(1, height))` -/
def page (height : Int32) : Nat := (max 1 height).toNatClampNeg

/-- `std::clamp` -/
def clamp (value low high : Int32) : Int32 :=
  if value < low then low else if high < value then high else value

namespace Scrollback

variable (scroll : Scrollback) (lines : List TranscriptLine) (height : Int32)

def start : Nat :=
  let last := if lines.length > page height then lines.length - page height else 0
  if scroll.follow then last
  else min last (lowerBound (TranscriptLine.before scroll.message scroll.part) lines)

/-- The arithmetic is that of `int`. Nothing is returned where `lines[target]` would be outside
of the transcript. -/
def moveBy (delta : Int32) : Option Scrollback :=
  if lines.isEmpty then some scroll
  else
    let last := max 0 (Int32.ofNat lines.length - max 1 height)
    let target := clamp (Int32.ofNat (scroll.start lines height) + delta) 0 last
    lines[target.toNatClampNeg]?.map fun line =>
      { follow := target == last, message := line.message, part := line.part }

def latest : Scrollback := { scroll with follow := true }

end Scrollback

section Numbers

variable {a b low high value : Int32}

theorem toInt_max (a b : Int32) : (max a b).toInt = max a.toInt b.toInt := by
  rw [show max a b = if a ≤ b then b else a from rfl, max_def]
  simp only [Int32.le_iff_toInt_le, apply_ite Int32.toInt]

theorem page_eq (height : Int32) : (page height : Int) = max 1 height.toInt := by
  rw [page, Int32.toNatClampNeg, toInt_max, Int.toNat_of_nonneg]
  · rfl
  · exact le_max_of_le_left (by decide)

/-- The index of the last page, as an `int`, is never beyond the one that it means. -/
theorem last_le (size : Nat) (height : Int32) :
    (max 0 (Int32.ofNat size - max 1 height)).toInt ≤ (size - page height : Nat) := by
  have pages := page_eq height
  have bound := height.toInt_lt
  rw [toInt_max, Int32.toInt_sub, toInt_max, Int32.toInt_ofNat', Int.bmod_def, Int.bmod_def]
  change max 0 _ ≤ _
  have one : (1 : Int32).toInt = 1 := rfl
  simp only [one, Int32.size] at *
  omega

theorem page_pos (height : Int32) : 0 < page height := by
  have := page_eq height
  omega

theorem toInt_clamp (range : low.toInt ≤ high.toInt) :
    low.toInt ≤ (clamp value low high).toInt ∧ (clamp value low high).toInt ≤ high.toInt := by
  unfold clamp
  split
  · exact ⟨Int.le_refl _, range⟩
  · next above =>
      split
      · exact ⟨range, Int.le_refl _⟩
      · next below =>
          rw [Int32.lt_iff_toInt_lt, Int.not_lt] at above below
          exact ⟨above, below⟩

end Numbers

section Scroll

variable {scroll scroll' : Scrollback} {lines now : List TranscriptLine} {height delta : Int32}

theorem start_le (scroll : Scrollback) (lines : List TranscriptLine) (height : Int32) :
    scroll.start lines height ≤ lines.length - page height := by
  have last : (if lines.length > page height then lines.length - page height else 0) =
      lines.length - page height := by
    split <;> omega
  rw [Scrollback.start, last]
  split
  · exact Nat.le_refl _
  · exact Nat.min_le_left _ _

/-- The line that `move_by` goes to is in the transcript. It is on the last page only where the
view follows. -/
theorem moveBy_target (some_ : lines ≠ []) : ∃ target line, lines[target]? = some line ∧
    ∃ follow, scroll.moveBy lines height delta =
      some { follow, message := line.message, part := line.part } ∧
        (follow = false → target < lines.length - page height) := by
  have size : 0 < lines.length := List.length_pos_iff.mpr some_
  have pages := page_pos height
  rw [Scrollback.moveBy, if_neg (by simpa using some_)]
  dsimp only
  generalize lastDef : max 0 (Int32.ofNat lines.length - max 1 height) = last
  generalize Int32.ofNat (scroll.start lines height) + delta = value
  have bound : last.toInt ≤ (lines.length - page height : Nat) := lastDef ▸ last_le lines.length height
  have nonneg : 0 ≤ last.toInt := by
    rw [← lastDef, toInt_max]
    exact le_max_left _ _
  obtain ⟨low, high⟩ := @toInt_clamp 0 last value nonneg
  change 0 ≤ _ at low
  generalize clamp value 0 last = target at low high
  have index : (target.toNatClampNeg : Int) = target.toInt := Int.toNat_of_nonneg low
  have inside : target.toNatClampNeg < lines.length := by omega
  refine ⟨target.toNatClampNeg, _, List.getElem?_eq_getElem inside, target == last, ?_, ?_⟩
  · rw [List.getElem?_eq_getElem inside]
    rfl
  · intro reading
    have other : target.toInt ≠ last.toInt := by
      rw [Ne, Int32.toInt_inj]
      simpa using reading
    omega

theorem before_self (line : TranscriptLine) : line.before line.message line.part = false := by
  simp [TranscriptLine.before]

theorem before_asymm {a b : TranscriptLine} (h : a.before b.message b.part) :
    b.before a.message a.part = false := by
  simp only [TranscriptLine.before, Bool.or_eq_true, Bool.and_eq_true, decide_eq_true_eq,
    beq_iff_eq, Bool.or_eq_false_iff, Bool.and_eq_false_iff, decide_eq_false_iff_not,
    beq_eq_false_iff_ne] at h ⊢
  omega

/-- A search for the place of a line ends at the line. -/
theorem lowerBound_line {front back : List TranscriptLine} {line : TranscriptLine}
    (increasing : Increasing (front ++ line :: back)) :
    lowerBound (TranscriptLine.before line.message line.part) (front ++ line :: back) =
      front.length := by
  unfold Increasing at increasing
  rw [List.pairwise_append, List.pairwise_cons] at increasing
  obtain ⟨-, ⟨later, -⟩, earlier⟩ := increasing
  refine lowerBound_append (fun other mem => earlier other mem line List.mem_cons_self) ?_
  rw [List.forall_mem_cons]
  exact ⟨before_self line, fun other mem => before_asymm (later other mem)⟩

/-- While the line is there and a page follows, the view starts at it. -/
theorem start_line {front back : List TranscriptLine} {line : TranscriptLine}
    (reading : scroll.follow = false) (message : scroll.message = line.message)
    (part : scroll.part = line.part) (increasing : Increasing (front ++ line :: back))
    (room : front.length + page height ≤ (front ++ line :: back).length) :
    scroll.start (front ++ line :: back) height = front.length := by
  rw [Scrollback.start, reading, message, part, lowerBound_line increasing]
  rw [if_neg Bool.false_ne_true]
  split <;> omega

/-- Once the line is gone the view starts at the front. -/
theorem start_gone {line : TranscriptLine} (reading : scroll.follow = false)
    (message : scroll.message = line.message) (part : scroll.part = line.part)
    (later : ∀ other ∈ now, line.before other.message other.part) :
    scroll.start now height = 0 := by
  have first : lowerBound (TranscriptLine.before scroll.message scroll.part) now = 0 := by
    refine @lowerBound_append _ _ [] now nofun fun other mem => ?_
    rw [message, part]
    exact before_asymm (later other mem)
  rw [Scrollback.start, reading, first]
  exact Nat.min_zero _

end Scroll

/-- What happens to a transcript: its oldest lines go, or new ones come. -/
inductive TranscriptChange where
  | evict (count : Nat)
  | grow (lines : List TranscriptLine)
deriving DecidableEq, Repr

namespace TranscriptChange

def apply (lines : List TranscriptLine) : TranscriptChange → List TranscriptLine
  | evict count => lines.drop count
  | grow more => lines ++ more

def gained : TranscriptChange → List TranscriptLine
  | evict _ => []
  | grow more => more

end TranscriptChange

section Changes

variable {scroll scroll' : Scrollback} {lines now : List TranscriptLine} {height delta : Int32}

/-- In the end the transcript is all there has ever been, without some of the oldest. -/
theorem foldl_apply (changes : List TranscriptChange) (lines : List TranscriptLine) :
    ∃ lost, changes.foldl TranscriptChange.apply lines =
      (lines ++ changes.flatMap TranscriptChange.gained).drop lost := by
  induction changes generalizing lines with
  | nil => exact ⟨0, (List.append_nil lines).symm⟩
  | cons change changes ih =>
      obtain ⟨lost, same⟩ := ih (change.apply lines)
      rw [List.foldl_cons, List.flatMap_cons, same]
      cases change with
      | evict count =>
          refine ⟨min count lines.length + lost, ?_⟩
          have front : lines.drop count = lines.drop (min count lines.length) := by
            rw [List.drop_eq_drop_iff]
            omega
          rw [TranscriptChange.apply, TranscriptChange.gained, List.nil_append, front,
            ← List.drop_append_of_le_length (Nat.min_le_right _ _), List.drop_drop]
      | grow more => exact ⟨lost, by rw [TranscriptChange.apply, List.append_assoc]; rfl⟩

/-- What is left of a transcript after a loss of lines: with the line also all after it, or else
only later ones. -/
theorem drop_line {front back : List TranscriptLine} {line : TranscriptLine} (lost : Nat)
    (increasing : Increasing (front ++ line :: back)) :
    (line ∈ (front ++ line :: back).drop lost ∧
      (front ++ line :: back).drop lost = front.drop lost ++ line :: back) ∨
    (line ∉ (front ++ line :: back).drop lost ∧
      ∀ other ∈ (front ++ line :: back).drop lost, line.before other.message other.part) := by
  obtain gone | kept := Nat.lt_or_ge front.length lost
  · refine .inr ?_
    have later : ∀ other ∈ (front ++ line :: back).drop lost,
        line.before other.message other.part := by
      intro other mem
      rw [List.drop_append, List.drop_eq_nil_of_le gone.le, List.nil_append] at mem
      obtain ⟨more, surplus⟩ := Nat.exists_eq_succ_of_ne_zero (Nat.sub_ne_zero_of_lt gone)
      rw [surplus, Nat.succ_eq_add_one, List.drop_succ_cons] at mem
      unfold Increasing at increasing
      rw [List.pairwise_append, List.pairwise_cons] at increasing
      exact increasing.2.1.1 other (List.mem_of_mem_drop mem)
    refine ⟨fun mem => ?_, later⟩
    exact Bool.false_ne_true ((before_self line).symm.trans (later line mem))
  · refine .inl ?_
    rw [List.drop_append_of_le_length kept]
    exact ⟨List.mem_append_right _ List.mem_cons_self, rfl⟩

/-- A view that has moved to a line stays at it as long as the line is there, and is then at the
oldest one. -/
theorem scroll_keeps {front back : List TranscriptLine} {line : TranscriptLine}
    (reading : scroll.follow = false) (message : scroll.message = line.message)
    (part : scroll.part = line.part)
    (room : front.length + page height ≤ (front ++ line :: back).length)
    (changes : List TranscriptChange)
    (grown : Increasing ((front ++ line :: back) ++ changes.flatMap TranscriptChange.gained)) :
    let now := changes.foldl TranscriptChange.apply (front ++ line :: back)
    (line ∈ now → now[scroll.start now height]? = some line) ∧
      (line ∉ now → scroll.start now height = 0) := by
  obtain ⟨lost, same⟩ := foldl_apply changes (front ++ line :: back)
  generalize changes.flatMap TranscriptChange.gained = gained at grown same
  rw [List.append_assoc, List.cons_append] at grown same
  dsimp only
  rw [same]
  obtain ⟨mem, kept⟩ | ⟨gone, later⟩ := drop_line lost grown
  · refine ⟨fun _ => ?_, fun absent => absurd mem absent⟩
    have rest := grown.sublist (List.drop_sublist lost _)
    rw [kept] at rest ⊢
    rw [start_line reading message part rest ?_]
    · rw [List.getElem?_append_right (Nat.le_refl _), Nat.sub_self, List.getElem?_cons_zero]
    · simp only [List.length_append, List.length_cons, List.length_drop] at room ⊢
      omega
  · exact ⟨fun mem => absurd mem gone, fun _ => start_gone reading message part later⟩

/-- The view never starts beyond the last page and a move reads no line outside of the transcript.
After a move to an earlier page the line at the start of the view stays there, whatever lines come
and go, until it goes itself. -/
theorem moveBy_keeps (scroll : Scrollback) (lines : List TranscriptLine) (height delta : Int32) :
    scroll.start lines height ≤ lines.length - page height ∧
      ∃ scroll', scroll.moveBy lines height delta = some scroll' ∧
        (Increasing lines → lines ≠ [] → scroll'.follow = false →
          ∃ line, lines[scroll'.start lines height]? = some line ∧
            ∀ changes : List TranscriptChange,
              Increasing (lines ++ changes.flatMap TranscriptChange.gained) →
              let now := changes.foldl TranscriptChange.apply lines
              (line ∈ now → now[scroll'.start now height]? = some line) ∧
                (line ∉ now → scroll'.start now height = 0)) := by
  refine ⟨start_le scroll lines height, ?_⟩
  by_cases some_ : lines = []
  · exact ⟨scroll, by rw [some_]; rfl, fun _ other => absurd some_ other⟩
  · obtain ⟨target, line, there, follow, result, low⟩ := moveBy_target some_
    refine ⟨_, result, fun increasing _ reading => ?_⟩
    have room := low reading
    obtain ⟨front, back, rfl, rfl⟩ : ∃ front back, lines = front ++ line :: back ∧
        front.length = target := by
      obtain ⟨inside, rfl⟩ := List.getElem?_eq_some_iff.mp there
      refine ⟨lines.take target, lines.drop (target + 1), ?_, List.length_take_of_le inside.le⟩
      rw [← List.drop_eq_getElem_cons, List.take_append_drop]
    refine ⟨line, ?_, scroll_keeps reading rfl rfl (by omega)⟩
    rw [start_line reading rfl rfl increasing (by omega)]
    exact there

/-- Three messages of one line each. -/
def threeLines : List TranscriptLine := [{ message := 0 }, { message := 1 }, { message := 2 }]

theorem moveBy_keeps_three : ∃ scroll : Scrollback,
    ({} : Scrollback).moveBy threeLines 1 (-1) = some scroll ∧ scroll.follow = false ∧
      ∃ line : TranscriptLine, line.message = 1 ∧
        ([{ message := 1 }, { message := 2 }, { message := 3 }] : List TranscriptLine)[
          scroll.start [{ message := 1 }, { message := 2 }, { message := 3 }] 1]? = some line := by
  obtain ⟨-, scroll, moved, keeps⟩ := moveBy_keeps {} threeLines 1 (-1)
  obtain rfl : { follow := false, message := 1, part := 0 } = scroll :=
    Option.some.inj ((by decide +kernel : ({} : Scrollback).moveBy threeLines 1 (-1) =
      some { follow := false, message := 1, part := 0 }).symm.trans moved)
  refine ⟨_, moved, rfl, ?_⟩
  obtain ⟨line, there, keeps⟩ := keeps (by unfold Increasing; decide) (by decide) rfl
  have first : ({ message := 1 } : TranscriptLine) = line :=
    Option.some.inj ((by decide +kernel : threeLines[
      ({ follow := false, message := 1, part := 0 } : Scrollback).start threeLines 1]? =
        some { message := 1 }).symm.trans there)
  subst first
  exact ⟨_, rfl, (keeps [.grow [{ message := 3 }], .evict 1] (by unfold Increasing; decide)).1
    (by decide)⟩

end Changes

end Chatbox.Ui
