import SpeedySweeties.Library.CanonicalJson
import SpeedySweeties.Privacy.RecoveryS3

/-! The text under an entry's hash is the canonical text of the entry without it. The entry that
the store reads back has that text again, so its hash still verifies, and one text is never
that of two entries. -/
namespace SpeedySweeties
open Json (Readable Representable Same)

variable {ν : Type} (T : JsonText ν) (readNumber : List Char → Option ν)

/-- `JSON.parse(body)` -/
def JsonText.parse (body : String) : Option (Json ν) := (Json.parse readNumber body).map (Json.stored T.toWriter T.reorder)

/-- What `seal` hashes. -/
def sealedText (value : Json ν) : String := "privacy-recovery-v1:" ++ Json.canonical T.toWriter value

/-- `seal`, with the keyed hash as it is. -/
def sealWith (hmac : String → String) (value : Json ν) : String := hmac (sealedText T value)

namespace ProtectedEntry

/-- The entry before it gets its hash. -/
def value (e : ProtectedEntry ν) : Json ν :=
  .object [("sequence",.number (T.count e.sequence)),("previous",.text e.previous),("scope",.text e.scope),("kind",.text e.kind.text),
    ("operation",.text e.operation),("payload",e.payload)]

end ProtectedEntry

variable {T readNumber} {e : ProtectedEntry ν}

theorem sealedTextSame {a b : Json ν} : sealedText T a = sealedText T b ↔ Json.canonical T.toWriter a = Json.canonical T.toWriter b :=
  String.append_right_inj _

theorem parseRepresentable (readable : Readable T.toWriter readNumber) {value : Json ν} (distinct : value.Distinct) :
    T.parse readNumber (Json.canonical T.toWriter value) = some (Json.stored T.toWriter T.reorder (Json.stored T.toWriter Json.byKey value)) ∧
      Json.canonical T.toWriter (Json.stored T.toWriter T.reorder (Json.stored T.toWriter Json.byKey value)) = Json.canonical T.toWriter value := by
  have ordered := Json.distinct_stored T.toWriter Json.byKey Json.byKeyPerm value distinct
  refine ⟨?_,?_⟩
  · rw [JsonText.parse,Json.parseCanonical readable distinct,Option.map_some]
  · rw [Json.canonical_stored T.toWriter T.reorder T.reordered _ ordered,Json.canonical_stored T.toWriter Json.byKey Json.byKeyPerm _ distinct]

theorem entryDistinct (T : JsonText ν) (e : ProtectedEntry ν) : (Json.object (e.fields T)).Distinct := by
  simp [Json.Distinct,Json.DistinctFields,ProtectedEntry.fields,e.distinct]

theorem valueRepresentable (T : JsonText ν) (finite : Json.Finite T.toWriter e.payload) : Representable T.toWriter (e.value T) where
  distinct := by simp [Json.Distinct,Json.DistinctFields,ProtectedEntry.value,e.distinct]
  finite := by simp [Json.Finite,Json.FiniteFields,ProtectedEntry.value,finite,T.counted]

theorem kindText {a b : RecoveryKind} (same : a.text = b.text) : a = b := by
  cases a <;> cases b <;> first | rfl | exact absurd same (by decide)

/-- Entries that agree on all but the hash, up to the order of the payload's keys. -/
structure SameEntry (T : JsonText ν) (e other : ProtectedEntry ν) : Prop where
  sequence : T.count e.sequence = T.count other.sequence
  previous : e.previous = other.previous
  scope : e.scope = other.scope
  kind : e.kind = other.kind
  operation : e.operation = other.operation
  payload : Same T.toWriter e.payload other.payload

theorem sameValue {e other : ProtectedEntry ν} : Same T.toWriter (e.value T) (other.value T) ↔ SameEntry T e other := by
  have fields : Same T.toWriter (e.value T) (other.value T) ↔ T.count e.sequence = T.count other.sequence ∧ e.previous = other.previous ∧
      e.scope = other.scope ∧ e.kind.text = other.kind.text ∧ e.operation = other.operation ∧ Same T.toWriter e.payload other.payload := by
    refine (Json.sameAligned (by rfl) (by simp)).trans ?_
    simp only [List.forall₂_cons,List.Forall₂.nil,Same,and_true]
  rw [fields]
  exact ⟨fun ⟨sequence,previous,scope,kind,operation,payload⟩ => ⟨sequence,previous,scope,kindText kind,operation,payload⟩,
    fun h => ⟨h.sequence,h.previous,h.scope,congrArg _ h.kind,h.operation,h.payload⟩⟩

/-- `const { hash, ...value } = entry` -/
theorem valueOfEntry (T : JsonText ν) (e : ProtectedEntry ν) :
    Json.canonical T.toWriter ((Json.object (e.fields T)).without "hash") = Json.canonical T.toWriter (e.value T) := by
  have rest : (e.fields T).filter (fun field => field.1 ≠ "hash") =
      [("kind",.text e.kind.text),("operation",.text e.operation),("payload",e.payload)] ++
        ([("previous",.text e.previous),("scope",.text e.scope)] ++ [("sequence",.number (T.count e.sequence))]) := by
    simp [ProtectedEntry.fields]
  rw [Json.without,rest,ProtectedEntry.value]
  exact Json.canonicalPerm (by simp) (List.perm_append_comm.trans (List.perm_append_comm.append_right _))

theorem sealSurvives (readable : Readable T.toWriter readNumber) (hmac : String → String) (e : ProtectedEntry ν) :
    ∃ read, T.parse readNumber (e.canonical T) = some read ∧ Json.canonical T.toWriter read = e.canonical T ∧
      read.member "hash" = some (.text e.hash) ∧ sealWith T hmac (read.without "hash") = sealWith T hmac (e.value T) := by
  have distinct := entryDistinct T e
  have ordered := Json.distinct_stored T.toWriter Json.byKey Json.byKeyPerm _ distinct
  have text : e.canonical T = Json.canonical T.toWriter (.object (e.fields T)) := by rw [ProtectedEntry.canonical]
  obtain ⟨parsed,again⟩ := parseRepresentable readable distinct
  rw [text]
  refine ⟨Json.stored T.toWriter T.reorder (Json.stored T.toWriter Json.byKey (.object (e.fields T))),parsed,again,?_,?_⟩
  · rw [Json.member_stored T.toWriter T.reorder T.reordered ordered,Json.member_stored T.toWriter Json.byKey Json.byKeyPerm distinct]
    rfl
  · refine congrArg hmac (sealedTextSame.mpr ?_)
    rw [Json.canonicalWithout T.reordered "hash" ordered,Json.canonicalWithout Json.byKeyPerm "hash" distinct,valueOfEntry]

/-- Numbers are those with a text, of which 0 and -0 are one. -/
theorem sealedTexts (readable : Readable T.toWriter readNumber) :
    (∀ value, Representable T.toWriter value → ∃ read, T.parse readNumber (Json.canonical T.toWriter value) = some read ∧
      Json.canonical T.toWriter read = Json.canonical T.toWriter value) ∧
    (∀ a b, Representable T.toWriter a → Representable T.toWriter b →
      (Json.canonical T.toWriter a = Json.canonical T.toWriter b ↔ Same T.toWriter a b)) ∧
    (∀ (hmac : String → String) (e : ProtectedEntry ν), ∃ read, T.parse readNumber (e.canonical T) = some read ∧
      Json.canonical T.toWriter read = e.canonical T ∧ read.member "hash" = some (.text e.hash) ∧
      sealWith T hmac (read.without "hash") = sealWith T hmac (e.value T)) ∧
    ∀ e other : ProtectedEntry ν, Json.Finite T.toWriter e.payload → Json.Finite T.toWriter other.payload →
      (sealedText T (e.value T) = sealedText T (other.value T) ↔ SameEntry T e other) := by
  refine ⟨fun value representable => ?_,fun a b => Json.canonicalSame readable,sealSurvives readable,fun e other finite also => ?_⟩
  · exact ⟨_,parseRepresentable readable representable.distinct⟩
  · exact (sealedTextSame.trans (Json.canonicalSame readable (valueRepresentable T finite) (valueRepresentable T also))).trans sameValue

theorem digitsWritten (n : Nat) : (some (toString n)).isSome = true := rfl

/-- Objects are read with their keys in the opposite order. -/
def reversedKeys : JsonText Nat where
  numberText n := some (toString n)
  toISOString n := "1970-01-01T00:00:00.00" ++ toString n ++ "Z"
  count := id
  counted := digitsWritten
  reorder := List.reverse
  reordered := List.reverse_perm

def nestedPayload (date : Json Nat) : Json Nat := .array [date,.null,.object [("y",.number 2),("x",.bool true)]]

theorem nestedDistinct {date : Json Nat} (distinct : date.Distinct) : (nestedPayload date).Distinct := by
  simp [nestedPayload,Json.Distinct,Json.DistinctFields,Json.DistinctItems,distinct]

theorem nestedFinite {date : Json Nat} (finite : Json.Finite reversedKeys.toWriter date) : Json.Finite reversedKeys.toWriter (nestedPayload date) := by
  simp only [nestedPayload,Json.Finite,Json.FiniteFields,Json.FiniteItems,finite]
  decide

theorem nestedSame : Same reversedKeys.toWriter (nestedPayload (.date 5)) (nestedPayload (.text "1970-01-01T00:00:00.005Z")) := by
  have text : reversedKeys.toISOString 5 = "1970-01-01T00:00:00.005Z" := by decide
  refine ⟨text,trivial,(Json.sameAligned (by rfl) (by simp)).mpr ?_,trivial⟩
  exact .cons (show (2 : Nat) = 2 from rfl) (.cons (show true = true from rfl) .nil)

def nestedEntry (date : Json Nat) (distinct : date.Distinct) : ProtectedEntry Nat where
  sequence := 1
  hash := "aa"
  previous := ""
  scope := "s"
  kind := .genesis
  operation := "op"
  payload := nestedPayload date
  distinct := nestedDistinct distinct

def datedEntry : ProtectedEntry Nat := nestedEntry (.date 5) trivial
def storedEntry : ProtectedEntry Nat := nestedEntry (.text "1970-01-01T00:00:00.005Z") trivial

/-- A payload with a date and one with its text. -/
theorem datesSealed : datedEntry.payload ≠ storedEntry.payload ∧
    sealedText reversedKeys (datedEntry.value reversedKeys) = sealedText reversedKeys (storedEntry.value reversedKeys) ∧
    ∃ read, reversedKeys.parse Json.readNatural (datedEntry.canonical reversedKeys) = some read ∧
      sealWith reversedKeys id (read.without "hash") = sealWith reversedKeys id (storedEntry.value reversedKeys) := by
  obtain ⟨-,-,survives,apart⟩ := sealedTexts (T := reversedKeys) (Json.readableNaturals fun _ => rfl)
  have same := (apart datedEntry storedEntry (nestedFinite trivial) (nestedFinite trivial)).mpr ⟨rfl,rfl,rfl,rfl,rfl,nestedSame⟩
  obtain ⟨read,parsed,-,-,again⟩ := survives id datedEntry
  exact ⟨by simp [datedEntry,storedEntry,nestedEntry,nestedPayload],same,read,parsed,again.trans (congrArg id same)⟩

end SpeedySweeties
