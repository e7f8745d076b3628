import SpeedySweeties.Library.JsText
import SpeedySweeties.Library.JsonText
import SpeedySweeties.Library.Optimistic

/-! The dispatcher standards: one board, kept as a JSON text in one row. A save reads the text, computes the next board and writes
it where the row still has that text, or as the first one. Texts are well formed, and versions count changes, as natural numbers:
no other number is read. The formats that the schema checks are parameters. -/
namespace SpeedySweeties

inductive StandardStatus where | draft | published | archived deriving DecidableEq, Repr

def StandardStatus.text : StandardStatus → String
  | .draft => "DRAFT"
  | .published => "PUBLISHED"
  | .archived => "ARCHIVED"

structure StandardFields where
  title : String
  expectation : String
  consequence : String
  status : StandardStatus
  deriving DecidableEq, Repr

structure StandardEntry extends StandardFields where
  id : String
  updatedAt : Option String
  updatedBy : Option String
  deriving DecidableEq, Repr

structure StandardsBoard where
  version : Nat
  entries : List StandardEntry
  deriving DecidableEq, Repr

/-- A reading of the clock, before the year 10000. -/
structure ClockReading where
  time : Nat
  fourDigits : time < 253402300800000

structure StandardsFormats where
  uuid : String → Bool
  datetime : String → Bool
  toISOString : ClockReading → String

structure SaveStandard where
  id : String
  version : Nat
  fields : StandardFields
  editorName : String
  create : Bool
  deriving DecidableEq, Repr

inductive StandardsRequest where
  | read
  | save (input : SaveStandard)
  deriving DecidableEq, Repr

inductive StandardsFailure where
  | api (status : Nat) (message : String)
  | database
  deriving DecidableEq, Repr

namespace DispatcherStandards
open JsText

def starterEntry (id title expectation consequence : String) : StandardEntry := ⟨⟨title,expectation,consequence,.draft⟩,id,none,none⟩

def initialBoard : StandardsBoard where
  version := 0
  entries := [
    starterEntry "1796c14a-16cc-4cb7-951a-44773ba66e10" "Dispatch calls within five minutes"
      "Dispatch each call within five minutes of receiving it."
      "Proposed: a $10 disciplinary fee if a call takes longer than five minutes to dispatch.",
    starterEntry "4f789b97-d4c0-4ddf-8967-eae073575413" "Avoid duplicate catalog entries"
      "Check the catalog for an existing item before creating a new entry. Do not create duplicate entries."
      "Proposed: a $10 removal fee for a duplicate catalog entry."]

/-! ### The text of a board -/

def nullable : Option String → Json Nat
  | none => .null
  | some text => .text text

/-- The keys in the order in which the object got them. -/
def entryJson (idFirst : Bool) (e : StandardEntry) : Json Nat :=
  let fields := [("title",Json.text e.title),("expectation",.text e.expectation),("consequence",.text e.consequence),
    ("status",.text e.status.text)]
  let edited := [("updatedAt",nullable e.updatedAt),("updatedBy",nullable e.updatedBy)]
  .object (if idFirst then ("id",.text e.id)::fields ++ edited else fields ++ ("id",.text e.id)::edited)

/-- The starter entries have their id first, until they are read back. -/
def boardJson (unsaved : Bool) (board : StandardsBoard) : Json Nat :=
  .object [("version",.number board.version),("entries",.array (board.entries.map fun e => entryJson (unsaved && e.updatedAt.isNone) e))]

def writer : Json.Writer Nat := ⟨fun n => some (toString n),fun _ => ""⟩

/-- A natural number, as it is written. -/
def readNumber (digits : List Char) : Option Nat :=
  let value := Nat.ofDigitChars 10 digits 0
  if (toString value).toList = digits then some value else none

def boardText (unsaved : Bool) (board : StandardsBoard) : String := Json.stringify writer (boardJson unsaved board)

/-! ### The schema -/

/-- `z.string().trim().min(1).max(max)` -/
def boundedText (max : Nat) : Json Nat → Option String
  | .text value => if 1 ≤ length (trim value) ∧ length (trim value) ≤ max then some (trim value) else none
  | _ => none

def statusOf : Json Nat → Option StandardStatus
  | .text value => [.draft,.published,.archived].find? fun status => status.text = value
  | _ => none

def textOf (accepts : String → Bool) : Json Nat → Option String
  | .text value => if accepts value then some value else none
  | _ => none

def nullableOf (accepts : String → Bool) : Json Nat → Option (Option String)
  | .null => some none
  | value => (textOf accepts value).map some

/-- `.strict()` -/
def onlyKeys (keys : List String) : Json Nat → Bool
  | .object fields => fields.all fun field => field.1 ∈ keys
  | _ => false

section Schema
variable (F : StandardsFormats)

def readEntry (value : Json Nat) : Option StandardEntry := do
  let title ← (value.member "title").bind (boundedText 140)
  let expectation ← (value.member "expectation").bind (boundedText 3000)
  let consequence ← (value.member "consequence").bind (boundedText 3000)
  let status ← (value.member "status").bind statusOf
  let id ← (value.member "id").bind (textOf F.uuid)
  let updatedAt ← (value.member "updatedAt").bind (nullableOf F.datetime)
  let updatedBy ← (value.member "updatedBy").bind (nullableOf fun name => length name ≤ 250)
  if onlyKeys ["title","expectation","consequence","status","id","updatedAt","updatedBy"] value then
    some ⟨⟨title,expectation,consequence,status⟩,id,updatedAt,updatedBy⟩
  else none

def numberOf : Json Nat → Option Nat
  | .number value => some value
  | _ => none

def entriesOf : Json Nat → Option (List StandardEntry)
  | .array items => if items.length ≤ 100 then items.mapM (readEntry F) else none
  | _ => none

def readBoard (value : Json Nat) : Option StandardsBoard := do
  let version ← (value.member "version").bind numberOf
  let entries ← (value.member "entries").bind (entriesOf F)
  if onlyKeys ["version","entries"] value then some ⟨version,entries⟩ else none

/-! ### Reading and saving -/

def unreadable : StandardsFailure := .api 503 "Dispatcher standards could not be loaded. Please contact the administrator."
def alreadyExists : StandardsFailure := .api 409 "This entry already exists. Refresh the standards before editing it."
def entryNotFound : StandardsFailure := .api 404 "Entry not found. Refresh the standards."
def conflict : StandardsFailure :=
  .api 409 "Another administrator changed the standards. Copy any unsaved text, cancel this edit, refresh, and reopen the entry."
def limitReached : StandardsFailure :=
  .api 400 "The standards list has reached its limit of 100 entries. Edit an existing entry."

/-- `row` is the text of the row, `none` where there is no row. -/
def readStandards (row : Option String) : Except StandardsFailure (Option String × StandardsBoard) :=
  match row with
  | none => .ok (none,initialBoard)
  | some raw =>
    match (Json.parse readNumber raw).bind (readBoard F) with
    | some board => if (board.entries.map (·.id)).Nodup then .ok (some raw,board) else .error unreadable
    | none => .error unreadable

/-- In code units; of a pair that is cut in two a replacement character stays. -/
def takeUnits : Nat → List Char → List Char
  | n + 1,c::rest =>
    if c.toNat < 0x10000 then c::takeUnits n rest
    else match n with
    | 0 => [Char.ofNat 0xfffd]
    | n + 1 => c::takeUnits n rest
  | _,_ => []

/-- `text.slice(0, n)` -/
def slice (text : String) (n : Nat) : String := String.ofList (takeUnits n text.toList)

def savedEntry (input : SaveStandard) (now : ClockReading) : StandardEntry :=
  ⟨input.fields,input.id,some (F.toISOString now),some (slice input.editorName 250)⟩

def nextBoard (input : SaveStandard) (now : ClockReading) (board : StandardsBoard) : StandardsBoard where
  version := board.version + 1
  entries :=
    if input.create then board.entries ++ [savedEntry F input now]
    else board.entries.map fun item => if item.id = input.id then savedEntry F input now else item

/-- The answer, or the text to write and the board to return after it. -/
def editBoard (input : SaveStandard) (now : ClockReading) (raw : Option String) (board : StandardsBoard) :
    Except StandardsFailure StandardsBoard ⊕ (String × Except StandardsFailure StandardsBoard) :=
  if board.version ≠ input.version then .inl (.error conflict)
  else if input.create ∧ 100 ≤ board.entries.length then .inl (.error limitReached)
  else .inr (boardText raw.isNone (nextBoard F input now board),.ok (nextBoard F input now board))

/-- Up to its write. -/
def saveStandard (input : SaveStandard) (now : ClockReading) (row : Option String) :
    Except StandardsFailure StandardsBoard ⊕ (String × Except StandardsFailure StandardsBoard) :=
  match readStandards F row with
  | .error failure => .inl (.error failure)
  | .ok (raw,board) =>
    match input.create,board.entries.find? (·.id = input.id) with
    | true,some existing => .inl (if existing.toStandardFields = input.fields then .ok board else .error alreadyExists)
    | false,none => .inl (.error entryNotFound)
    | _,_ => editBoard F input now raw board

def request (now : ClockReading) (row : Option String) :
    StandardsRequest → Except StandardsFailure StandardsBoard ⊕ (String × Except StandardsFailure StandardsBoard)
  | .read => .inl ((readStandards F row).map (·.2))
  | .save input => saveStandard F input now row

/-- The insert, or the update that matches the text that was read; `none` where the key is there or no row matches. -/
def writeRow (row raw : Option String) (value : String) : Option (Option String) :=
  match raw with
  | none => if row.isNone then some (some value) else none
  | some raw => if row = some raw then some (some value) else none

def program : Optimistic.Program (Option String) String StandardsRequest ClockReading (Except StandardsFailure StandardsBoard) where
  decide r now row := request F now row r
  put := some
  write := writeRow
  conflict := .error conflict
  failed := .error .database

end Schema

/-! ### What is written is read back -/

theorem readable : Json.Readable writer readNumber := Json.readableNaturals fun _ => rfl

def Bounded (max : Nat) (text : String) : Prop := trim text = text ∧ 1 ≤ length text ∧ length text ≤ max

instance Bounded.decidable (max : Nat) (text : String) : Decidable (Bounded max text) := inferInstanceAs (Decidable (_ ∧ _))

structure ValidFields (fields : StandardFields) : Prop where
  title : Bounded 140 fields.title
  expectation : Bounded 3000 fields.expectation
  consequence : Bounded 3000 fields.consequence

instance ValidFields.decidable (fields : StandardFields) : Decidable (ValidFields fields) :=
  decidable_of_iff (Bounded 140 fields.title ∧ Bounded 3000 fields.expectation ∧ Bounded 3000 fields.consequence)
    ⟨fun ⟨title,expectation,consequence⟩ => ⟨title,expectation,consequence⟩,fun valid => ⟨valid.title,valid.expectation,valid.consequence⟩⟩

structure ValidEntry (F : StandardsFormats) (e : StandardEntry) : Prop where
  fields : ValidFields e.toStandardFields
  id : F.uuid e.id = true
  updatedAt : ∀ at_ ∈ e.updatedAt, F.datetime at_ = true
  updatedBy : ∀ name ∈ e.updatedBy, length name ≤ 250

structure ValidBoard (F : StandardsFormats) (board : StandardsBoard) : Prop where
  entries : ∀ e ∈ board.entries, ValidEntry F e
  count : board.entries.length ≤ 100
  unique : (board.entries.map (·.id)).Nodup

section Back
variable {F : StandardsFormats}

theorem boundedBack {max : Nat} {text : String} (h : Bounded max text) : boundedText max (.text text) = some text := by
  obtain ⟨trimmed,low,high⟩ := h
  rw [boundedText,trimmed,if_pos ⟨low,high⟩]

theorem boundedChars {max : Nat} {chars : List Char} (front : chars.dropWhile isSpace = chars)
    (back : chars.reverse.dropWhile isSpace = chars.reverse)
    (fits : 1 ≤ (chars.map fun c => if c.toNat < 0x10000 then 1 else 2).sum ∧
      (chars.map fun c => if c.toNat < 0x10000 then 1 else 2).sum ≤ max) : Bounded max (String.ofList chars) := by
  refine ⟨?_,?_⟩
  · rw [trim,String.toList_ofList,front,back,List.reverse_reverse]
  · rw [length,String.toList_ofList]
    exact fits

theorem starterValid {id title expectation consequence : String} (titled : Bounded 140 title) (expected : Bounded 3000 expectation)
    (consequent : Bounded 3000 consequence) (uuid : F.uuid id = true) : ValidEntry F (starterEntry id title expectation consequence) where
  fields := ⟨titled,expected,consequent⟩
  id := uuid
  updatedAt _ is := by cases is
  updatedBy _ is := by cases is

theorem statusBack (status : StandardStatus) : statusOf (.text status.text) = some status := by
  cases status <;> rfl

theorem nullableBack {accepts : String → Bool} {value : Option String} (h : ∀ text ∈ value, accepts text = true) :
    nullableOf accepts (nullable value) = some value := by
  cases value with
  | none => rfl
  | some text => simp [nullable,nullableOf,textOf,h text rfl]

theorem entryBack {e : StandardEntry} (h : ValidEntry F e) (idFirst : Bool) : readEntry F (entryJson idFirst e) = some e := by
  have title := boundedBack h.fields.title
  have expectation := boundedBack h.fields.expectation
  have consequence := boundedBack h.fields.consequence
  have status := statusBack e.status
  have id : textOf F.uuid (.text e.id) = some e.id := by rw [textOf,if_pos h.id]
  have updatedAt := nullableBack h.updatedAt
  have updatedBy : nullableOf (fun name => decide (length name ≤ 250)) (nullable e.updatedBy) = some e.updatedBy :=
    nullableBack fun name mem => decide_eq_true (h.updatedBy name mem)
  cases idFirst <;>
    simp [readEntry,entryJson,Json.member,onlyKeys,title,expectation,consequence,status,id,updatedAt,updatedBy]

theorem boardBack {board : StandardsBoard} (h : ValidBoard F board) (unsaved : Bool) : readBoard F (boardJson unsaved board) = some board := by
  have entries : (board.entries.map fun e => entryJson (unsaved && e.updatedAt.isNone) e).mapM (readEntry F) = some board.entries := by
    have each := h.entries
    generalize board.entries = entries at each ⊢
    induction entries with
    | nil => rfl
    | cons e rest ih =>
      rw [List.map_cons,List.mapM_cons,entryBack (each e List.mem_cons_self),ih fun other mem => each other (List.mem_cons_of_mem e mem)]
      rfl
  simp [readBoard,boardJson,Json.member,onlyKeys,numberOf,entriesOf,entries,h.count]

theorem numberText (n : Nat) : writer.numberText n = some (toString n) := rfl

theorem nullableStored (value : Option String) : Json.stored writer id (nullable value) = nullable value := by
  cases value <;> rfl

theorem entryStored (idFirst : Bool) (e : StandardEntry) : Json.stored writer id (entryJson idFirst e) = entryJson idFirst e := by
  cases idFirst <;> simp [entryJson,Json.stored,Json.storedFields,nullableStored]

theorem boardStored (unsaved : Bool) (board : StandardsBoard) : Json.stored writer id (boardJson unsaved board) = boardJson unsaved board := by
  have entries : Json.storedItems writer id (board.entries.map fun e => entryJson (unsaved && e.updatedAt.isNone) e) =
      board.entries.map fun e => entryJson (unsaved && e.updatedAt.isNone) e := by
    induction board.entries with
    | nil => rfl
    | cons e rest ih => rw [List.map_cons,Json.storedItems,entryStored,ih]
  simp [boardJson,Json.stored,Json.storedFields,numberText,entries]

theorem nullableDistinct (value : Option String) : Json.Distinct (nullable value) := by
  cases value <;> exact trivial

theorem entryDistinct (idFirst : Bool) (e : StandardEntry) : Json.Distinct (entryJson idFirst e) := by
  cases idFirst <;> simp [entryJson,Json.Distinct,Json.DistinctFields,nullableDistinct]

theorem boardDistinct (unsaved : Bool) (board : StandardsBoard) : Json.Distinct (boardJson unsaved board) := by
  have entries : Json.DistinctItems (board.entries.map fun e => entryJson (unsaved && e.updatedAt.isNone) e) := by
    induction board.entries with
    | nil => trivial
    | cons e rest ih => exact ⟨entryDistinct _ e,ih⟩
  simp [boardJson,Json.Distinct,Json.DistinctFields,entries]

/-- The writer and the validator agree: what is written for a valid board is read as that board. -/
theorem readBack {board : StandardsBoard} (h : ValidBoard F board) (unsaved : Bool) :
    readStandards F (some (boardText unsaved board)) = .ok (some (boardText unsaved board),board) := by
  have parsed : Json.parse readNumber (boardText unsaved board) = some (boardJson unsaved board) := by
    rw [boardText,Json.parseStringify readable (boardDistinct unsaved board),boardStored]
  have read : (Json.parse readNumber (boardText unsaved board)).bind (readBoard F) = some board := by
    rw [parsed]
    exact boardBack h unsaved
  simp only [readStandards,read,h.unique,if_true]

theorem takeUnitsLength (n : Nat) (text : List Char) : ((takeUnits n text).map fun c => if c.toNat < 0x10000 then 1 else 2).sum ≤ n := by
  fun_induction takeUnits n text with
  | case1 n c rest small ih =>
    rw [List.map_cons,List.sum_cons,if_pos small]
    omega
  | case2 c rest big => decide
  | case3 c rest big n ih =>
    rw [List.map_cons,List.sum_cons,if_neg big]
    omega
  | case4 => simp

theorem sliceLength (text : String) (n : Nat) : length (slice text n) ≤ n := by
  rw [length,slice,String.toList_ofList]
  exact takeUnitsLength n text.toList

end Back

/-! ### What a save does -/

/-- Groups of 8, 4, 4, 4 and 12 hexadecimal digits, with the version and the variant. -/
def rfcUuid (id : String) : Bool :=
  match id.toList.splitOn '-' with
  | [a,b,c,d,e] =>
    [a,b,c,d,e].map List.length = [8,4,4,4,12] &&
      (a ++ b ++ c ++ d ++ e).all (fun digit => digit.isDigit || digit ∈ "abcdefABCDEF".toList) &&
      c.head?.any (· ∈ "12345678".toList) && d.head?.any (· ∈ "89abAB".toList)
  | _ => false

/-- What is documented of the formats. -/
structure Documented (F : StandardsFormats) : Prop where
  uuids : ∀ id, rfcUuid id = true → F.uuid id = true
  datetimes : ∀ now, F.datetime (F.toISOString now) = true

def ValidRequest (F : StandardsFormats) : StandardsRequest → Prop
  | .read => True
  | .save input => ValidFields input.fields ∧ F.uuid input.id = true

/-- After the change the board differs from the one before it in the entry alone. -/
structure EditsOwn (input : SaveStandard) (entry : StandardEntry) (before after : StandardsBoard) : Prop where
  version : before.version = input.version ∧ after.version = before.version + 1
  own : entry.id = input.id ∧ entry.toStandardFields = input.fields
  others : ∃ (left : List StandardEntry) (old : Option StandardEntry) (right : List StandardEntry), before.entries = left ++ old.toList ++ right ∧ after.entries = left ++ entry::right ∧
    (∀ e ∈ left ++ right, e.id ≠ input.id) ∧ (∀ e ∈ old, e.id = input.id) ∧ old.isNone = input.create ∧ (input.create = true → right = [])

section Save
variable {F : StandardsFormats} {input : SaveStandard} {now : ClockReading} {row raw : Option String} {value : String}
  {board : StandardsBoard} {answer : Except StandardsFailure StandardsBoard}

theorem readRaw (is : readStandards F row = .ok (raw,board)) : raw = row := by
  unfold readStandards at is
  split at is
  · exact (Prod.mk.inj (Except.ok.inj is)).1.symm
  · split at is
    · split at is
      · exact (Prod.mk.inj (Except.ok.inj is)).1.symm
      · contradiction
    · contradiction

theorem editCases (is : editBoard F input now raw board = .inr (value,answer)) :
    value = boardText raw.isNone (nextBoard F input now board) ∧ answer = .ok (nextBoard F input now board) ∧
      board.version = input.version ∧ (input.create = true → board.entries.length < 100) := by
  unfold editBoard at is
  split at is
  · contradiction
  rename_i version
  split at is
  · contradiction
  rename_i room
  obtain ⟨rfl,rfl⟩ := Prod.mk.inj (Sum.inr.inj is)
  exact ⟨rfl,rfl,not_not.mp version,fun create => Nat.lt_of_not_le fun full => room ⟨create,full⟩⟩

theorem editAnswer (is : editBoard F input now raw board = .inl answer) : ∃ failure, answer = .error failure := by
  unfold editBoard at is
  split at is
  · exact ⟨_,(Sum.inl.inj is).symm⟩
  · split at is
    · exact ⟨_,(Sum.inl.inj is).symm⟩
    · contradiction

theorem saveCases (is : saveStandard F input now row = .inr (value,answer)) :
    ∃ board, readStandards F row = .ok (row,board) ∧ value = boardText row.isNone (nextBoard F input now board) ∧
      answer = .ok (nextBoard F input now board) ∧ board.version = input.version ∧
      (input.create = true → board.entries.length < 100) ∧ (board.entries.find? (·.id = input.id)).isNone = input.create := by
  unfold saveStandard at is
  split at is
  · contradiction
  rename_i raw board read
  have same := readRaw read
  subst same
  split at is
  · contradiction
  · contradiction
  · rename_i noRetry noMiss
    obtain ⟨text,saved,version,room⟩ := editCases is
    refine ⟨board,read,text,saved,version,room,?_⟩
    cases create : input.create <;> cases found : board.entries.find? (·.id = input.id)
    · exact absurd found (noMiss create)
    · rfl
    · rfl
    · exact absurd found (noRetry _ create)

theorem saveWrites (read : readStandards F row = .ok (row,board)) (version : board.version = input.version)
    (room : input.create = true → board.entries.length < 100)
    (expected : (board.entries.find? (·.id = input.id)).isNone = input.create) :
    saveStandard F input now row = .inr (boardText row.isNone (nextBoard F input now board),.ok (nextBoard F input now board)) := by
  have full : ¬ (input.create = true ∧ 100 ≤ board.entries.length) := fun ⟨create,full⟩ => absurd (room create) (Nat.not_lt.mpr full)
  have edited : editBoard F input now row board =
      .inr (boardText row.isNone (nextBoard F input now board),.ok (nextBoard F input now board)) := by
    rw [editBoard,if_neg (not_not.mpr version),if_neg full]
  rw [saveStandard,read]
  dsimp only
  rw [edited]
  split
  · rename_i create found
    rw [found,create] at expected
    cases expected
  · rename_i create found
    rw [found,create] at expected
    cases expected
  · rfl

theorem saveAnswer (is : saveStandard F input now row = .inl (.ok board)) :
    input.create = true ∧ ∃ e ∈ board.entries, e.id = input.id ∧ e.toStandardFields = input.fields := by
  unfold saveStandard at is
  split at is
  · cases Sum.inl.inj is
  split at is
  · rename_i existing create found
    split at is
    · rename_i same
      cases Except.ok.inj (Sum.inl.inj is)
      have id := List.find?_some found
      exact ⟨create,existing,List.mem_of_find?_eq_some found,of_decide_eq_true id,same⟩
    · cases Sum.inl.inj is
  · cases Sum.inl.inj is
  · obtain ⟨failure,is⟩ := editAnswer is
    contradiction

theorem savedValid (documented : Documented F) (valid : ValidRequest F (.save input)) : ValidEntry F (savedEntry F input now) where
  fields := valid.1
  id := valid.2
  updatedAt at_ is := by
    cases Option.some.inj is
    exact documented.datetimes now
  updatedBy name is := by
    cases Option.some.inj is
    exact sliceLength _ _

theorem replaceOther {entries : List StandardEntry} {entry : StandardEntry} {id : String} (others : ∀ e ∈ entries, e.id ≠ id) :
    (entries.map fun item => if item.id = id then entry else item) = entries := by
  calc (entries.map fun item => if item.id = id then entry else item)
      = entries.map fun item => item := List.map_congr_left fun e mem => if_neg (others e mem)
    _ = entries := List.map_id' entries

theorem replaceOwn {entries : List StandardEntry} {existing : StandardEntry} (entry : StandardEntry) (unique : (entries.map (·.id)).Nodup)
    (among : existing ∈ entries) :
    ∃ left right, entries = left ++ existing::right ∧ (∀ e ∈ left ++ right, e.id ≠ existing.id) ∧
      (entries.map fun item => if item.id = existing.id then entry else item) = left ++ entry::right := by
  obtain ⟨left,right,rfl⟩ := List.append_of_mem among
  rw [List.map_append,List.map_cons,List.nodup_middle,List.nodup_cons,← List.map_append] at unique
  have others : ∀ e ∈ left ++ right, e.id ≠ existing.id := fun e mem same => unique.1 (List.mem_map.mpr ⟨e,mem,same⟩)
  refine ⟨left,right,rfl,others,?_⟩
  rw [List.map_append,List.map_cons,if_pos rfl,replaceOther fun e mem => others e (List.mem_append_left _ mem),
    replaceOther fun e mem => others e (List.mem_append_right _ mem)]

theorem nextOwn (valid : ValidBoard F board) (version : board.version = input.version)
    (expected : (board.entries.find? (·.id = input.id)).isNone = input.create) :
    EditsOwn input (savedEntry F input now) board (nextBoard F input now board) where
  version := ⟨version,rfl⟩
  own := ⟨rfl,rfl⟩
  others := by
    cases create : input.create with
    | true =>
      rw [create,Option.isNone_iff_eq_none,List.find?_eq_none] at expected
      refine ⟨board.entries,none,[],by simp,by simp [nextBoard,create],?_,nofun,rfl,fun _ => rfl⟩
      intro e mem
      rw [List.append_nil] at mem
      simpa using expected e mem
    | false =>
      rw [create] at expected
      obtain ⟨existing,found⟩ := Option.isSome_iff_exists.mp (Option.isNone_eq_false_iff.mp expected)
      have matches_ := List.find?_some found
      have id : existing.id = input.id := of_decide_eq_true matches_
      obtain ⟨left,right,is,others,replaced⟩ := replaceOwn (savedEntry F input now) valid.unique (List.mem_of_find?_eq_some found)
      rw [id] at others replaced
      refine ⟨left,some existing,right,by simpa using is,?_,others,fun e mem => ?_,rfl,nofun⟩
      · rw [nextBoard,create]
        exact replaced
      · cases Option.some.inj mem
        exact id

theorem nextValid (documented : Documented F) (request : ValidRequest F (.save input)) (valid : ValidBoard F board)
    (room : input.create = true → board.entries.length < 100)
    (own : EditsOwn input (savedEntry F input now) board (nextBoard F input now board)) : ValidBoard F (nextBoard F input now board) := by
  obtain ⟨left,old,right,before,after,others,same,created,last⟩ := own.others
  have entry : ValidEntry F (savedEntry F input now) := savedValid documented request
  refine ⟨fun e mem => ?_,?_,?_⟩
  · rw [after,List.mem_append,List.mem_cons] at mem
    have kept : e ∈ left ++ right → ValidEntry F e := by
      intro mem
      refine valid.entries e ?_
      rw [before,List.append_assoc]
      rcases List.mem_append.mp mem with mem | mem
      · exact List.mem_append_left _ mem
      · exact List.mem_append_right _ (List.mem_append_right _ mem)
    rcases mem with mem | rfl | mem
    · exact kept (List.mem_append_left _ mem)
    · exact entry
    · exact kept (List.mem_append_right _ mem)
  · have count := valid.count
    have lengths := congrArg List.length before
    rw [after]
    simp only [List.length_append,List.length_cons] at lengths ⊢
    cases old with
    | none =>
      have create : input.create = true := created.symm
      have := room create
      simp only [Option.toList_none,List.length_nil] at lengths
      omega
    | some existing =>
      simp only [Option.toList_some,List.length_singleton] at lengths
      omega
  · have unique := valid.unique
    rw [before] at unique
    rw [after,List.map_append,List.map_cons,List.nodup_middle,List.nodup_cons,← List.map_append]
    refine ⟨fun mem => ?_,?_⟩
    · obtain ⟨e,among,is⟩ := List.mem_map.mp mem
      exact others e among (is.trans own.own.1)
    · refine unique.sublist (List.Sublist.map _ ?_)
      exact (List.sublist_append_left left old.toList).append (List.Sublist.refl right)

theorem nextIds : (nextBoard F input now board).entries.map (·.id) =
    board.entries.map (·.id) ++ (if input.create then some input.id else none).toList := by
  unfold nextBoard
  dsimp only
  cases input.create with
  | true => rw [if_pos rfl,List.map_append]; rfl
  | false =>
    rw [if_neg Bool.false_ne_true,if_neg Bool.false_ne_true,List.map_map]
    refine (List.map_congr_left fun item _ => ?_).trans (List.append_nil _).symm
    rw [Function.comp_apply]
    split
    · rename_i same
      exact same.symm
    · rfl

end Save

/-! ### Every run -/

abbrev StandardsCommit := Optimistic.Commit (Option String) String StandardsRequest ClockReading

abbrev StandardsState := Optimistic.State (Option String) String StandardsRequest ClockReading (Except StandardsFailure StandardsBoard)

/-- From an empty row, with valid requests. -/
abbrev Reachable (F : StandardsFormats) : StandardsState → Prop := Optimistic.Reachable (program F) (ValidRequest F) none

def createdId (c : StandardsCommit) : Option String :=
  match c.request with
  | .save input => if input.create then some input.id else none
  | .read => none

/-- The change of a commit, from the board that it has replaced. -/
def Changed (F : StandardsFormats) (c : StandardsCommit) : Prop :=
  ∃ input before after, c.request = .save input ∧ readStandards F c.before = .ok (c.before,before) ∧
    readStandards F (some c.value) = .ok (some c.value,after) ∧ after = nextBoard F input c.input before ∧
    EditsOwn input (savedEntry F input c.input) before after

structure Kept (F : StandardsFormats) (log : List StandardsCommit) (cell : Option String) (board : StandardsBoard) : Prop where
  read : readStandards F cell = .ok (cell,board)
  valid : ValidBoard F board
  version : board.version = log.length
  ids : board.entries.map (·.id) = initialBoard.entries.map (·.id) ++ (log.filterMap createdId).reverse
  changed : ∀ c ∈ log, Changed F c

section Runs
variable {F : StandardsFormats} {s : StandardsState}

theorem programSave (input : SaveStandard) (now : ClockReading) (row : Option String) :
    (program F).decide (.save input) now row = saveStandard F input now row := rfl

theorem writeRowSwaps (cell read : Option String) (value : String) (new : Option String) (is : writeRow cell read value = some new) :
    cell = read ∧ new = some value := by
  unfold writeRow at is
  split at is
  · split at is
    · rename_i free
      exact ⟨Option.isNone_iff_eq_none.mp free,(Option.some.inj is).symm⟩
    · contradiction
  · split at is
    · rename_i same
      exact ⟨same,(Option.some.inj is).symm⟩
    · contradiction

theorem initialValid (documented : Documented F) : ValidBoard F initialBoard where
  entries e mem := by
    rcases List.mem_cons.mp mem with rfl | mem
    · exact starterValid (boundedChars rfl rfl (by decide)) (boundedChars rfl rfl (by decide)) (boundedChars rfl rfl (by decide))
        (documented.uuids _ (by decide +kernel))
    · cases List.mem_singleton.mp mem
      exact starterValid (boundedChars rfl rfl (by decide)) (boundedChars rfl rfl (by decide)) (boundedChars rfl rfl (by decide))
        (documented.uuids _ (by decide +kernel))
  count := by decide
  unique := by decide +kernel

theorem keptSerial (documented : Documented F) {log : List StandardsCommit} {cell : Option String}
    (h : Optimistic.Serial (program F) (ValidRequest F) none log cell) : ∃ board, Kept F log cell board := by
  refine h.invariant (I := fun log cell => ∃ board, Kept F log cell board) ⟨initialBoard,rfl,initialValid documented,rfl,rfl,nofun⟩ ?_
  rintro log c answer ⟨board,kept⟩ request decided
  obtain ⟨n,asked,now,cell,value⟩ := c
  cases asked with
  | read => cases decided
  | save input =>
    obtain ⟨found,read,text,-,version,room,expected⟩ := saveCases decided
    cases (Prod.mk.inj (Except.ok.inj (kept.read.symm.trans read))).2
    have own : EditsOwn input (savedEntry F input now) board (nextBoard F input now board) := nextOwn kept.valid version expected
    have valid := nextValid documented request kept.valid room own
    have written : readStandards F (some value) = .ok (some value,nextBoard F input now board) := by
      have same : value = boardText cell.isNone (nextBoard F input now board) := text
      rw [same]
      exact readBack valid _
    refine ⟨nextBoard F input now board,written,valid,?_,?_,fun c mem => ?_⟩
    · rw [own.version.2,kept.version,List.length_cons]
    · rw [nextIds,kept.ids,List.filterMap_cons]
      cases create : input.create <;> simp [createdId,create]
    · rcases List.mem_cons.mp mem with rfl | mem
      · exact ⟨input,board,_,rfl,kept.read,written,rfl,own⟩
      · exact kept.changed c mem

/-- A create whose entry is there already, unchanged, is answered with the board. -/
theorem repeatedCreate {input : SaveStandard} {board : StandardsBoard} {e : StandardEntry} {row : Option String} (now : ClockReading)
    (create : input.create = true) (read : readStandards F row = .ok (row,board)) (unique : (board.entries.map (·.id)).Nodup)
    (among : e ∈ board.entries) (id : e.id = input.id) (same : e.toStandardFields = input.fields) :
    saveStandard F input now row = .inl (.ok board) := by
  have found : board.entries.find? (·.id = input.id) = some e := by
    cases is : board.entries.find? (·.id = input.id) with
    | none => exact absurd (decide_eq_true id) (List.find?_eq_none.mp is e among)
    | some existing =>
      have matches_ := List.find?_some is
      have ids : existing.id = e.id := (of_decide_eq_true matches_).trans id.symm
      rw [List.inj_on_of_nodup_map unique (List.mem_of_find?_eq_some is) among ids]
  rw [saveStandard,read]
  dsimp only
  rw [create,found]
  dsimp only
  rw [if_pos same]

theorem failedUnwritten (sound : Optimistic.Sound (program F) (ValidRequest F) none s) {n : Nat} {failure : StandardsFailure}
    {call : Optimistic.Call (Option String) String StandardsRequest ClockReading (Except StandardsFailure StandardsBoard)}
    (found : s.calls[n]? = some call) (answered : call.phase = .answered (.error failure)) : ∀ c ∈ s.commits, c.call ≠ n := by
  have account := (sound.accounted n call found).2
  rw [answered] at account
  rcases account with ⟨-,unwritten⟩ | ⟨c,-,-,-,decided⟩
  · exact unwritten
  · cases asked : call.request with
    | read =>
      rw [asked] at decided
      cases decided
    | save input =>
      rw [asked] at decided
      obtain ⟨_,_,_,saved,_⟩ := saveCases decided
      cases saved

theorem savedWritten (sound : Optimistic.Sound (program F) (ValidRequest F) none s) (changed : ∀ c ∈ s.commits, Changed F c) {n : Nat}
    {input : SaveStandard} {board : StandardsBoard} (found : s.calls[n]? = some ⟨.save input,.answered (.ok board)⟩) :
    (∃ c ∈ s.commits, c.call = n ∧ c.request = .save input ∧ readStandards F (some c.value) = .ok (some c.value,board)) ∨
      (∀ c ∈ s.commits, c.call ≠ n) ∧ input.create = true ∧ ∃ e ∈ board.entries, e.id = input.id ∧ e.toStandardFields = input.fields := by
  rcases (sound.accounted n _ found).2 with ⟨why,unwritten⟩ | ⟨c,mem,own,asked,decided⟩
  · rcases why with conflict | failed | ⟨now,row,answer⟩
    · cases conflict
    · cases failed
    · exact .inr ⟨unwritten,saveAnswer answer⟩
  · refine .inl ⟨c,mem,own,asked,?_⟩
    obtain ⟨found,read,text,saved,_⟩ := saveCases decided
    obtain ⟨other,before,after,asked',read',written,next,_⟩ := changed c mem
    cases StandardsRequest.save.inj (asked.symm.trans asked')
    cases (Prod.mk.inj (Except.ok.inj (read.symm.trans read'))).2
    rw [Except.ok.inj saved,← next]
    exact written

structure NoUpdateLost (F : StandardsFormats) (s : StandardsState) : Prop where
  stored : ∃ board, readStandards F s.cell = .ok (s.cell,board) ∧ ValidBoard F board ∧ board.version = s.commits.length
  changed : ∀ c ∈ s.commits, Changed F c
  replaced : s.cell::s.commits.map (·.before) = (s.commits.map fun c => some c.value) ++ [none]
  once : (s.commits.map (·.call)).Nodup
  failed : ∀ n call failure, s.calls[n]? = some call → call.phase = .answered (.error failure) → ∀ c ∈ s.commits, c.call ≠ n
  saved : ∀ n input board, s.calls[n]? = some ⟨.save input,.answered (.ok board)⟩ →
    (∃ c ∈ s.commits, c.call = n ∧ c.request = .save input ∧ readStandards F (some c.value) = .ok (some c.value,board)) ∨
      (∀ c ∈ s.commits, c.call ≠ n) ∧ input.create = true ∧ ∃ e ∈ board.entries, e.id = input.id ∧ e.toStandardFields = input.fields
  created : (s.commits.filterMap createdId).Nodup
  repeated : ∀ n input board e now, s.calls[n]? = some ⟨.save input,.waiting⟩ → input.create = true →
    readStandards F s.cell = .ok (s.cell,board) → e ∈ board.entries → e.id = input.id → e.toStandardFields = input.fields →
      Optimistic.step (program F) s (.read n now) = some (s.setPhase n ⟨.save input,.waiting⟩ (.answered (.ok board)))

/-- In every interleaving the row has the board of all changes so far, each made to the board that it replaced and in its own entry
alone; a save that reports a failure has changed nothing, and no entry is created twice. -/
theorem standardsNotLost (documented : Documented F) (h : Reachable F s) : NoUpdateLost F s := by
  have sound := Optimistic.sound (P := program F) writeRowSwaps h
  obtain ⟨board,kept⟩ := keptSerial documented sound.serial
  refine ⟨⟨board,kept.read,kept.valid,kept.version⟩,kept.changed,sound.serial.cells,sound.once,?_,?_,?_,?_⟩
  · exact fun n call failure found answered => failedUnwritten sound found answered
  · exact fun n input answered found => savedWritten sound kept.changed found
  · have unique := kept.valid.unique
    rw [kept.ids] at unique
    exact List.nodup_reverse.mp unique.of_append_right
  · intro n input found e now waiting create read among id same
    have unique : (found.entries.map (·.id)).Nodup := by
      cases (Prod.mk.inj (Except.ok.inj (kept.read.symm.trans read))).2
      exact kept.valid.unique
    have decided : (program F).decide (.save input) now s.cell = .inl (.ok found) :=
      repeatedCreate now create read unique among id same
    exact Optimistic.readAnswered waiting decided

end Runs

/-! ### A create with a lost response beside another save -/

def sampleFormats : StandardsFormats := ⟨rfcUuid,fun _ => true,fun _ => "2026-07-20T12:00:00.000Z"⟩

def sampleNow : ClockReading := ⟨1784548800000,by decide⟩

def sampleCreate : SaveStandard :=
  ⟨"0b8f7d5e-3c1a-4e52-9a6b-7f0e2d4c8a19",0,⟨"Greeting","Greet each caller by name.","Coaching.",.draft⟩,"Dana Reyes",true⟩

def sampleUpdate : SaveStandard :=
  ⟨"1796c14a-16cc-4cb7-951a-44773ba66e10",0,⟨"Dispatch calls promptly","Dispatch each call at once.","Coaching.",.published⟩,"Sam Lee",false⟩

def sampleBoard : StandardsBoard := nextBoard sampleFormats sampleCreate sampleNow initialBoard

def sampleText : String := boardText true sampleBoard

theorem sampleDocumented : Documented sampleFormats := ⟨fun _ is => is,fun _ => rfl⟩

theorem sampleValid : ValidRequest sampleFormats (.save sampleCreate) ∧ ValidRequest sampleFormats (.save sampleUpdate) :=
  ⟨⟨by decide +kernel,by decide +kernel⟩,by decide +kernel,by decide +kernel⟩

theorem sampleBoardValid : ValidBoard sampleFormats sampleBoard := by
  have valid := initialValid sampleDocumented
  have own : EditsOwn sampleCreate (savedEntry sampleFormats sampleCreate sampleNow) initialBoard sampleBoard :=
    nextOwn valid rfl (by decide +kernel)
  exact nextValid sampleDocumented sampleValid.1 valid (fun _ => by decide) own

theorem sampleCreated : (program sampleFormats).decide (.save sampleCreate) sampleNow none = .inr (sampleText,.ok sampleBoard) := by
  rw [programSave,sampleText,sampleBoard]
  exact saveWrites rfl rfl (fun _ => by decide) (by decide +kernel)

theorem sampleAgain : (program sampleFormats).decide (.save sampleCreate) sampleNow (some sampleText) = .inl (.ok sampleBoard) := by
  have among : savedEntry sampleFormats sampleCreate sampleNow ∈ sampleBoard.entries :=
    List.mem_append_right initialBoard.entries List.mem_cons_self
  have read : readStandards sampleFormats (some sampleText) = .ok (some sampleText,sampleBoard) := by
    rw [sampleText]
    exact readBack sampleBoardValid true
  have id : (savedEntry sampleFormats sampleCreate sampleNow).id = sampleCreate.id := rfl
  have fields : (savedEntry sampleFormats sampleCreate sampleNow).toStandardFields = sampleCreate.fields := rfl
  have create : sampleCreate.create = true := rfl
  rw [programSave]
  exact repeatedCreate sampleNow create read sampleBoardValid.unique among id fields

def answeredVersion (call : Optimistic.Call (Option String) String StandardsRequest ClockReading (Except StandardsFailure StandardsBoard)) :
    Option Nat :=
  match call.phase with
  | .answered (.ok board) => some board.version
  | _ => none

/-- The update conflicts, and the repeated create finds its entry. -/
theorem standardsNotLostRetry : ∃ s : StandardsState, s.commits.map (·.call) = [0] ∧ s.calls.map answeredVersion = [some 1,none,some 1] ∧
    NoUpdateLost sampleFormats s := by
  have updated : ∃ value board, (program sampleFormats).decide (.save sampleUpdate) sampleNow none = .inr (value,.ok board) := by
    rw [programSave]
    exact ⟨_,_,saveWrites rfl rfl nofun (by decide +kernel)⟩
  obtain ⟨value,board,updated⟩ := updated
  have wrote : (program sampleFormats).write none none sampleText = some (some sampleText) := rfl
  have refused : (program sampleFormats).write (some sampleText) none value = none := rfl
  have both : Reachable sampleFormats ⟨none,[⟨.save sampleCreate,.waiting⟩,⟨.save sampleUpdate,.waiting⟩],[]⟩ :=
    Optimistic.Reachable.calls (Optimistic.Reachable.calls .start sampleValid.1) sampleValid.2
  have read := Optimistic.Reachable.reads (Optimistic.Reachable.reads both (Optimistic.readWriting (n := 0) rfl sampleCreated))
    (Optimistic.readWriting (n := 1) rfl updated)
  have written := Optimistic.Reachable.writes (Optimistic.Reachable.writes read (Optimistic.writeCommitted (n := 0) rfl wrote))
    (Optimistic.writeConflicts (n := 1) rfl refused)
  have repeated := Optimistic.Reachable.reads (Optimistic.Reachable.calls written sampleValid.1) (Optimistic.readAnswered (n := 2) rfl sampleAgain)
  exact ⟨_,rfl,rfl,standardsNotLost sampleDocumented repeated⟩

end DispatcherStandards
end SpeedySweeties
