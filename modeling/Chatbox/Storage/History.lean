import Mathlib.Data.Prod.Lex
import Mathlib.Order.Lex
import Mathlib.Data.List.Lex
import Mathlib.Data.List.TakeWhile
import Chatbox.Lib.Paging
import Chatbox.Storage.Database

/-!
Reading the history of a room backwards. `load_history` is a page of the messages of
the room under the order of the query, so calling it again with the cursor it returned
reads all of them, however many messages arrive meanwhile.
-/

namespace Chatbox.Storage

open Text Protocol

/-- A table of messages: the ids are its key, and its texts are C strings, which is
what SQLite can give back. -/
structure MessageTable where
  rows : List StoredMessage
  ids : (rows.map fun message => message.id).Nodup
  texts : ∀ message ∈ rows, ∀ text ∈ message.id :: message.nickname :: message.body ::
    (message.signature.toList ++ message.publicKey.toList), (0 : UInt8) ∉ text

/-- `(sent_at, id)` of the first is below that of the second. -/
def StoredMessage.Older (a b : StoredMessage) : Prop :=
  a.sentAt < b.sentAt ∨ (a.sentAt = b.sentAt ∧ a.id < b.id)

/-- Calling `load_history` on the tables in turn, each time with the cursor of the page
before, until there is none. -/
def loadPages (tables : Nat → MessageTable) (roomId : RoomId) (limit : Nat) :
    Nat → Nat → Option HistoryCursor → Option (List HistoryPage)
  | 0, _, _ => none
  | fuel + 1, i, before =>
      let page := loadHistory (tables i).rows roomId limit before
      match page.next with
      | none => some [page]
      | some cursor => (loadPages tables roomId limit fuel (i + 1) (some cursor)).map (page :: ·)

namespace Bytewise

/-- Bytes are compared as `memcmp` does. -/
scoped instance byteOrder : LinearOrder UInt8 where
  le_refl := UInt8.le_refl
  le_trans _ _ _ := UInt8.le_trans
  le_antisymm _ _ := UInt8.le_antisymm
  le_total := UInt8.le_total
  lt_iff_le_not_ge a b := by
    rw [UInt8.not_le]
    exact ⟨fun h => ⟨UInt8.le_of_lt h, h⟩, fun h => h.2⟩
  toDecidableLE := inferInstance

end Bytewise

open scoped Bytewise

section Order

def StoredMessage.key (message : StoredMessage) : Int ×ₗ Bytes := toLex (message.sentAt, message.id)

def HistoryCursor.key (cursor : HistoryCursor) : Int ×ₗ Bytes := toLex (cursor.sentAt, cursor.id)

theorem StoredMessage.older_iff {a b : StoredMessage} : a.Older b ↔ a.key < b.key := by
  rw [StoredMessage.key, StoredMessage.key, Prod.Lex.toLex_lt_toLex]
  rfl

theorem StoredMessage.newest_iff {a b : StoredMessage} : a.Newest b ↔ b.key ≤ a.key := by
  have ids : b.id ≤ a.id ↔ ¬ a.id < b.id := not_lt.symm
  rw [StoredMessage.key, StoredMessage.key, Prod.Lex.toLex_le_toLex, ids]
  exact or_congr Iff.rfl (and_congr eq_comm Iff.rfl)

theorem HistoryCursor.covers_iff {cursor : HistoryCursor} {message : StoredMessage} :
    cursor.covers message = true ↔ message.key < cursor.key := by
  rw [StoredMessage.key, HistoryCursor.key, Prod.Lex.toLex_lt_toLex]
  simp [HistoryCursor.covers]

theorem key_nodup {rows : List StoredMessage} (h : (rows.map fun message => message.id).Nodup) :
    (rows.map StoredMessage.key).Nodup := by
  have distinct (a b : StoredMessage) (ha : a ∈ rows) (hb : b ∈ rows) (same : a.key = b.key) :
      a = b := List.inj_on_of_nodup_map h ha hb (Prod.mk.inj same).2
  exact List.Nodup.map_on (fun a ha b hb => distinct a b ha hb) h.of_map

end Order

section Pages

variable {table : MessageTable} {roomId : RoomId} {limit : Nat}

def MessageTable.ofRoom (table : MessageTable) (roomId : RoomId) : List StoredMessage :=
  table.rows.filter fun message => message.roomId == roomId

theorem map_columnText_eq {text : Option Bytes} (h : ∀ t ∈ text.toList, (0 : UInt8) ∉ t) :
    text.map columnText = text := by
  cases text with
  | none => rfl
  | some text => rw [Option.map_some, columnText_eq (h text (by simp))]

/-- A message comes back as it was stored. -/
theorem MessageTable.read_eq {message : StoredMessage} (h : message ∈ table.rows) :
    message.read = message := by
  have texts := table.texts message h
  simp only [List.mem_cons, List.mem_append, forall_eq_or_imp] at texts
  obtain ⟨id, nickname, body, rest⟩ := texts
  rw [StoredMessage.read, columnText_eq id, columnText_eq nickname, columnText_eq body,
    map_columnText_eq fun t ht => rest t (.inl ht), map_columnText_eq fun t ht => rest t (.inr ht)]

theorem insertionSort_newest (rows : List StoredMessage) :
    rows.insertionSort StoredMessage.Newest = Paging.descending StoredMessage.key rows := by
  have same : StoredMessage.Newest = fun a b => b.key ≤ a.key := by
    funext a b
    exact propext StoredMessage.newest_iff
  unfold Paging.descending
  congr 1

def cursorOf (key : Int ×ₗ Bytes) : HistoryCursor := ⟨(ofLex key).1, (ofLex key).2⟩

/-- `load_history` is a page of the messages of the room. -/
theorem loadHistory_eq_page (before : Option HistoryCursor) :
    loadHistory table.rows roomId limit before =
      let page := Paging.page StoredMessage.key (clampLimit limit)
        (before.map HistoryCursor.key) (table.ofRoom roomId)
      { messages := page.1, next := page.2.map cursorOf } := by
  have selected : table.rows.filter (HistoryCursor.selects roomId before) =
      Paging.below StoredMessage.key (before.map HistoryCursor.key) (table.ofRoom roomId) := by
    cases before with
    | none =>
        simp only [Option.map_none, Paging.below, MessageTable.ofRoom]
        exact List.filter_congr fun message _ => Bool.and_true _
    | some cursor =>
        rw [Option.map_some, Paging.below, MessageTable.ofRoom, List.filter_filter]
        apply List.filter_congr
        intro message _
        rw [HistoryCursor.selects, Option.all_some, Bool.and_comm]
        congr 1
        rw [Bool.eq_iff_iff, HistoryCursor.covers_iff, decide_eq_true_iff]
  have stored (rows : List StoredMessage) (h : ∀ message ∈ rows, message ∈ table.rows) :
      rows.map StoredMessage.read = rows := by
    rw [List.map_congr_left fun message hm => table.read_eq (h message hm), List.map_id']
  have fetched := stored ((Paging.descending StoredMessage.key (Paging.below StoredMessage.key
    (before.map HistoryCursor.key) (table.ofRoom roomId))).take (clampLimit limit + 1)) (by
      intro message hm
      have inside := Paging.descending_perm.mem_iff.mp (List.mem_of_mem_take hm)
      rw [← selected] at inside
      exact (List.mem_filter.mp inside).1)
  unfold loadHistory Paging.page
  simp only [selected, insertionSort_newest, fetched]
  split
  · simp only [Option.map_map]
    rfl
  · rfl

theorem key_cursorOf (key : Int ×ₗ Bytes) : (cursorOf key).key = key := rfl

theorem loadPages_eq {tables : Nat → MessageTable} (fuel i : Nat) (before : Option HistoryCursor) :
    (loadPages tables roomId limit fuel i before).map (List.map HistoryPage.messages) =
      Paging.pages StoredMessage.key (clampLimit limit) (fun i => (tables i).ofRoom roomId) fuel i
        (before.map HistoryCursor.key) := by
  induction fuel generalizing i before with
  | zero => rfl
  | succ fuel ih =>
      rw [loadPages, Paging.pages, loadHistory_eq_page]
      simp only
      cases Paging.page StoredMessage.key (clampLimit limit) (before.map HistoryCursor.key)
          ((tables i).ofRoom roomId) with
      | mk kept next =>
          cases next with
          | none => rfl
          | some key =>
              have next := ih (i + 1) (some (cursorOf key))
              rw [Option.map_some, key_cursorOf] at next
              simp only [Option.map_some, Option.map_map, ← next]
              rfl

/-- Reading page after page ends, the pages but the last are full, and together they
are the messages the room had at the first call, each once and the newest first,
whatever newer messages are added between the calls. -/
theorem loadPages_all (tables : Nat → MessageTable) (roomId : RoomId) (limit : Nat)
    (inserted : ∀ i, ∃ new, (tables (i + 1)).rows.Perm (new ++ (tables i).rows) ∧
      ∀ n ∈ new, n.roomId = roomId → ∀ o ∈ (tables i).rows, o.roomId = roomId → o.Older n) :
    ∃ pages, loadPages tables roomId limit ((tables 0).rows.length + 1) 0 none = some pages ∧
      (∀ page ∈ pages.dropLast, page.messages.length = clampLimit limit) ∧
      (pages.flatMap HistoryPage.messages).Perm ((tables 0).ofRoom roomId) ∧
      (pages.flatMap HistoryPage.messages).Pairwise fun a b => b.Older a := by
  have grows (i : Nat) : Paging.Grows StoredMessage.key ((tables i).ofRoom roomId)
      ((tables (i + 1)).ofRoom roomId) := by
    obtain ⟨new, perm, newer⟩ := inserted i
    refine ⟨new.filter fun message => message.roomId == roomId, ?_, ?_⟩
    · rw [MessageTable.ofRoom, MessageTable.ofRoom, ← List.filter_append]
      exact perm.filter _
    · intro n hn o ho
      obtain ⟨hn, hroom⟩ := List.mem_filter.mp hn
      obtain ⟨ho, hroom'⟩ := List.mem_filter.mp ho
      exact StoredMessage.older_iff.mp
        (newer n hn (by simpa using hroom) o ho (by simpa using hroom'))
  have unique : (((tables 0).ofRoom roomId).map StoredMessage.key).Nodup :=
    key_nodup ((tables 0).ids.sublist (List.filter_sublist.map _))
  have enough : ((tables 0).ofRoom roomId).length < (tables 0).rows.length + 1 :=
    Nat.lt_succ_of_le (List.length_filter_le _ _)
  have positive : 0 < clampLimit limit := Nat.le_max_left 1 _
  obtain ⟨read, hread, hflat, hfull⟩ := Paging.pages_all grows unique positive enough
  have loaded := @loadPages_eq roomId limit tables ((tables 0).rows.length + 1) 0 none
  rw [Option.map_none, hread] at loaded
  obtain ⟨pages, hpages, rfl⟩ := Option.map_eq_some_iff.mp loaded
  have flat : pages.flatMap HistoryPage.messages =
      Paging.descending StoredMessage.key ((tables 0).ofRoom roomId) := by
    rw [List.flatMap_def, hflat]
  refine ⟨pages, hpages, ?_, ?_, ?_⟩
  · intro page hpage
    apply hfull
    rw [← List.map_dropLast]
    exact List.mem_map_of_mem hpage
  · rw [flat]
    exact Paging.descending_perm
  · rw [flat]
    exact (Paging.descending_strict unique).imp fun h => StoredMessage.older_iff.mpr h

/-- Three messages of one moment. -/
def tiedTable : MessageTable where
  rows := [ascii "b", ascii "a", ascii "c"].map fun id =>
    { id, roomId := 2, nickname := ascii "ann", body := id ++ ascii "!", sentAt := 100 }
  ids := by decide
  texts := by decide

/-- The same with a message of a later moment. -/
def laterTable : MessageTable where
  rows := { id := ascii "0", roomId := 2, nickname := ascii "bob", body := [], sentAt := 101 } ::
    tiedTable.rows
  ids := by decide
  texts := by decide

def tiedTables : Nat → MessageTable
  | 0 => tiedTable
  | _ + 1 => laterTable

/-- A message arrives between the first page and the second. -/
theorem loadPages_all_tied : ∃ pages, loadPages tiedTables 2 2 4 0 none = some pages ∧
    (∀ page ∈ pages.dropLast, page.messages.length = clampLimit 2) ∧
    (pages.flatMap HistoryPage.messages).Perm (tiedTable.ofRoom 2) ∧
    (pages.flatMap HistoryPage.messages).Pairwise fun a b => b.Older a := by
  apply loadPages_all tiedTables 2 2
  intro i
  cases i with
  | zero =>
      refine ⟨[{ id := ascii "0", roomId := 2, nickname := ascii "bob", body := [], sentAt := 101 }],
        .refl _, ?_⟩
      intro n hn _ o ho _
      obtain rfl := List.mem_singleton.mp hn
      have moment : ∀ o ∈ tiedTable.rows, o.sentAt < 101 := by decide
      exact .inl (moment o ho)
  | succ i => exact ⟨[], .refl _, by simp⟩

end Pages

end Chatbox.Storage
