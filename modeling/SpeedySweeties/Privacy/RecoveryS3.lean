import SpeedySweeties.Library.Json
import SpeedySweeties.Library.JsText
import SpeedySweeties.Library.StoreRuns
import SpeedySweeties.Privacy.RecoveryJournal

/-! The protected decision store over conditional puts: how an entry is written as an
object, read back, and how the store appends one entry or reads the whole log. The key
of an entry is its number here, since padded keys sort as the numbers do, and an object's
body is the value of its text. -/
namespace SpeedySweeties

inductive RecoveryKind where | genesis | intent | commit | resolve | sealScope | checkpoint | retained | covered
  deriving DecidableEq, Repr

def RecoveryKind.text : RecoveryKind → String
  | genesis => "GENESIS"
  | intent => "INTENT"
  | commit => "COMMIT"
  | resolve => "RESOLVE"
  | sealScope => "SEAL"
  | checkpoint => "CHECKPOINT"
  | retained => "CASE"
  | covered => "COVERED"

structure RecoveryError where
  code : String
  deriving DecidableEq, Repr

/-- An entry with whatever payload the journal gave it. -/
structure ProtectedEntry (ν : Type) where
  sequence : Nat
  hash : String
  previous : String
  scope : String
  kind : RecoveryKind
  operation : String
  payload : Json ν
  distinct : payload.Distinct

/-- Numbers as `JSON` writes them, and the key order of what `JSON.parse` returns. -/
structure JsonText (ν : Type) extends Json.Writer ν where
  count : Nat → ν
  counted : ∀ n, (numberText (count n)).isSome
  reorder : List (String × Json ν) → List (String × Json ν)
  reordered : ∀ fields, (reorder fields).Perm fields

inductive RecoveryMode where
  | active (genesisHash : String)
  | enrollment
  | successor
  deriving DecidableEq, Repr

def RecoveryMode.isActive : RecoveryMode → Bool
  | active _ => true
  | _ => false

/-- The part of the configuration that the store reads after its construction. -/
structure RecoveryS3Config where
  scope : String
  mode : RecoveryMode
  deriving DecidableEq, Repr

def maxEntries : Nat := 10000
def maxEntryBytes : Nat := 256 * 1024
def maxHistoryBytes : Nat := 16 * 1024 * 1024

variable {ν : Type}

namespace ProtectedEntry

def fields (T : JsonText ν) (e : ProtectedEntry ν) : List (String × Json ν) :=
  [("hash",.text e.hash),("kind",.text e.kind.text),("operation",.text e.operation),("payload",e.payload),
    ("previous",.text e.previous),("scope",.text e.scope),("sequence",.number (T.count e.sequence))]

def canonical (T : JsonText ν) (e : ProtectedEntry ν) : String := Json.canonical T.toWriter (.object (e.fields T))

/-- `JSON.parse(canonical(entry))` -/
def parsed (T : JsonText ν) (e : ProtectedEntry ν) : ProtectedEntry ν where
  sequence := e.sequence
  hash := e.hash
  previous := e.previous
  scope := e.scope
  kind := e.kind
  operation := e.operation
  payload := Json.stored T.toWriter T.reorder e.payload
  distinct := Json.distinct_stored T.toWriter T.reorder T.reordered e.payload e.distinct

def bytes (T : JsonText ν) (e : ProtectedEntry ν) : Nat := (e.canonical T).utf8ByteSize

theorem canonical_parsed (T : JsonText ν) (e : ProtectedEntry ν) : (e.parsed T).canonical T = e.canonical T := by
  simp [canonical,fields,parsed,Json.canonical,Json.canonicalFields,
    Json.canonical_stored T.toWriter T.reorder T.reordered e.payload e.distinct]

theorem bytes_pos (T : JsonText ν) (e : ProtectedEntry ν) : 0 < e.bytes T := by
  rw [bytes,canonical,Json.canonical,String.utf8ByteSize_append]
  exact Nat.add_pos_right _ (by decide)

theorem bytes_parsed (T : JsonText ν) (e : ProtectedEntry ν) : (e.parsed T).bytes T = e.bytes T := by
  rw [bytes,canonical_parsed,bytes]

attribute [irreducible] canonical

end ProtectedEntry

def isHash (text : String) : Bool :=
  text.toList.length = 64 && text.toList.all fun c => ('a' ≤ c && c ≤ 'f') || c.isDigit

/-- The entry's fields are there by its type. -/
def RecoveryS3Config.valid (config : RecoveryS3Config) (e : ProtectedEntry ν) (sequence : Nat) : Bool :=
  e.sequence = sequence && e.scope = config.scope && isHash e.hash &&
    (if sequence = 1 then e.previous = "" && e.kind ∈ [.genesis,.checkpoint]
      else isHash e.previous && e.kind ∈ [.intent,.commit,.resolve,.sealScope,.retained,.covered]) &&
    0 < JsText.length e.operation && JsText.length e.operation ≤ 100

/-- An entry that an append of this mode may add. -/
def RecoveryMode.adds (mode : RecoveryMode) (kind : RecoveryKind) : Bool :=
  match mode with
  | .enrollment => kind = .genesis
  | .successor => kind ∈ [.checkpoint,.retained,.covered]
  | .active _ => kind ∉ [.genesis,.checkpoint,.retained,.covered]

abbrev S3Client (ν α : Type) := StoreClient (ProtectedEntry ν) RecoveryError RecoveryHead α

namespace S3Store
variable (T : JsonText ν) (config : RecoveryS3Config)

def fail {α : Type} (code : String) : S3Client ν α := throw ⟨code⟩

def storageCode : Fault → String
  | .forbidden => "RECOVERY_STORAGE_PERMISSION_DENIED"
  | .unavailable => "RECOVERY_STORAGE_UNAVAILABLE"

/-- The body of `get` after its request; a missing key is `none`. -/
def received (sequence : Nat) : Except Fault (Option (ProtectedEntry ν)) → Except RecoveryError (Option (ProtectedEntry ν))
  | .error fault => .error ⟨storageCode fault⟩
  | .ok none => .ok none
  | .ok (some e) =>
    if e.bytes T < 1 ∨ maxEntryBytes < e.bytes T then .error ⟨"RECOVERY_HISTORY_INVALID"⟩
    else if config.valid e sequence then .ok (some e)
    else .error ⟨"RECOVERY_HISTORY_INVALID"⟩

/-- `Promise.all` over `get`. -/
def getAll (sequences : List Nat) : S3Client ν (List (Option (ProtectedEntry ν))) :=
  .fetch (received T config) (sequences.map fun k => (k,none)) .finish

def get (sequence : Nat) : S3Client ν (Option (ProtectedEntry ν)) := do
  let found ← getAll T config [sequence]
  pure found.head?.join

def listKeys (k size : Nat) : S3Client ν Page :=
  .list k size none fun
    | .ok page => pure page
    | .error fault => fail (storageCode fault)

/-- `observed` is what the store has seen so far, the result what it has seen then. -/
def remember (head observed : RecoveryHead) : Except RecoveryError RecoveryHead :=
  if head.sequence < observed.sequence ∨ head.sequence = observed.sequence ∧ head.hash ≠ observed.hash then
    .error ⟨"RECOVERY_HISTORY_ROLLED_BACK"⟩
  else .ok head

def observing : Except RecoveryError RecoveryHead → S3Client ν Unit
  | .ok head => .record head (pure ())
  | .error e => throw e

def successor (sequence : Nat) : S3Client ν (Option (ProtectedEntry ν)) := do
  let page ← listKeys sequence 1
  match page.keys with
  | [] => if page.truncated then fail "RECOVERY_HISTORY_INVALID" else pure none
  | key::rest =>
    if rest ≠ [] then fail "RECOVERY_HISTORY_INVALID"
    else if key ≠ sequence + 1 then fail "RECOVERY_HISTORY_INCOMPLETE"
    else do
      let found ← get T config (sequence + 1)
      match found with
      | none => fail "RECOVERY_HISTORY_INCOMPLETE"
      | some e => pure (some e)

/-! ### read -/

def numbered (keys : List Nat) : List Nat → Except RecoveryError (List Nat)
  | [] => .ok keys
  | item::items =>
    if item ≠ keys.length + 1 then .error ⟨"RECOVERY_HISTORY_INCOMPLETE"⟩
    else if maxEntries < keys.length + 1 then .error ⟨"RECOVERY_HISTORY_CAPACITY_REVIEW_REQUIRED"⟩
    else numbered (keys ++ [item]) items

/-- A page that is not the last one names a key, so that the fuel of `read` is enough. -/
def pages : Nat → List Nat → List Nat → Option Nat → S3Client ν (List Nat)
  | 0,_,_,_ => fail "RECOVERY_STORAGE_UNAVAILABLE"
  | fuel + 1,keys,tokens,continuation => do
    let page ← listKeys (continuation.getD 0) 1000
    let keys ← .finish (numbered keys page.keys)
    if page.truncated ∧ page.next.all (· ∈ tokens) then fail "RECOVERY_HISTORY_INVALID"
    else
      match if page.truncated then page.next else none with
      | some token => pages fuel keys (token::tokens) (some token)
      | none => pure keys

def chained (entries : List (ProtectedEntry ν)) (bytes : Nat) :
    List (Option (ProtectedEntry ν)) → Except RecoveryError (List (ProtectedEntry ν) × Nat)
  | [] => .ok (entries,bytes)
  | none::_ => .error ⟨"RECOVERY_HISTORY_INCOMPLETE"⟩
  | some e::batch =>
    if e.previous ≠ (entries.getLast?.map (·.hash)).getD "" then .error ⟨"RECOVERY_HISTORY_INVALID"⟩
    else if maxHistoryBytes < bytes + e.bytes T then .error ⟨"RECOVERY_HISTORY_CAPACITY_REVIEW_REQUIRED"⟩
    else chained (entries ++ [e]) (bytes + e.bytes T) batch

/-- The first number counts the batches of eight that are left. -/
def batches (total : Nat) : Nat → Nat → List (ProtectedEntry ν) → Nat → S3Client ν (List (ProtectedEntry ν))
  | 0,_,entries,_ => pure entries
  | left + 1,start,entries,bytes => do
    let batch ← getAll T config (List.range' (start + 1) (min 8 (total - start)))
    let (entries,bytes) ← .finish (chained T entries bytes batch)
    batches total left (start + 8) entries bytes

def lastHead (entries : List (ProtectedEntry ν)) : RecoveryHead :=
  (entries.getLast?.map fun e => ⟨entries.length,e.hash⟩).getD ⟨0,""⟩

def enrolledElsewhere (entries : List (ProtectedEntry ν)) : Bool :=
  match config.mode, entries with
  | .active genesisHash, first::_ => first.hash ≠ genesisHash
  | _, _ => false

def read : S3Client ν (RecoveryHead × List (ProtectedEntry ν)) := do
  let keys ← pages (maxEntries + 1) [] [] none
  if keys = [] ∧ config.mode.isActive then fail "RECOVERY_COVERAGE_REQUIRED"
  else do
    let entries ← batches T config keys.length ((keys.length + 7) / 8) 0 [] 0
    let advanced ← successor T config entries.length
    if advanced.isSome then fail "RECOVERY_HISTORY_ADVANCED"
    else if enrolledElsewhere config entries then fail "RECOVERY_ENROLLMENT_MISMATCH"
    else do
      StoreClient.inspect fun observed => observing (remember (lastHead entries) observed)
      pure (lastHead entries,entries)

/-! ### append -/

def appendInvalid (expected : RecoveryHead) (e : ProtectedEntry ν) : Bool :=
  maxEntries ≤ expected.sequence || !config.valid e (expected.sequence + 1) || e.previous ≠ expected.hash ||
    (if expected.sequence = 0 then expected.hash ≠ "" else !isHash expected.hash)

def checkGenesis : S3Client ν Unit :=
  match config.mode with
  | .active genesisHash => do
    let first ← get T config 1
    if first.map (·.hash) ≠ some genesisHash then fail "RECOVERY_ENROLLMENT_MISMATCH" else pure ()
  | _ => pure ()

def checkPrior (expected : RecoveryHead) : S3Client ν Unit :=
  if expected.sequence = 0 then pure ()
  else do
    let prior ← get T config expected.sequence
    if prior.map (·.hash) ≠ some expected.hash then fail "RECOVERY_HISTORY_INCOMPLETE" else pure ()

def rememberAppended (e : ProtectedEntry ν) : S3Client ν Unit :=
  .inspect fun observed =>
    if observed.sequence < e.sequence then observing (remember ⟨e.sequence,e.hash⟩ observed) else pure ()

/-- What the client makes of the answer to its put. -/
def resolvePut (expected : RecoveryHead) (e : ProtectedEntry ν) : PutAnswer → S3Client ν Unit
  | .created => rememberAppended e
  | .forbidden => fail "RECOVERY_STORAGE_PERMISSION_DENIED"
  | .uncertain => do
    let recorded ← (successor T config expected.sequence).recover fun _ => fail "RECOVERY_WRITE_UNCERTAIN"
    match recorded with
    | none => fail "RECOVERY_WRITE_UNCERTAIN"
    | some found =>
      if found.canonical T ≠ e.canonical T then fail "RECOVERY_CONCURRENT_WRITE" else rememberAppended e

def append (expected : RecoveryHead) (e : ProtectedEntry ν) : S3Client ν Unit :=
  if appendInvalid config expected e then fail "RECOVERY_APPEND_INVALID"
  else if !config.mode.adds e.kind then fail "RECOVERY_EXPLICIT_ENROLLMENT_REQUIRED"
  else if maxEntryBytes < e.bytes T then fail "RECOVERY_HISTORY_CAPACITY_REVIEW_REQUIRED"
  else do
    checkGenesis T config
    checkPrior T config expected
    let existing ← successor T config expected.sequence
    match existing with
    | some found => if found.canonical T = e.canonical T then pure () else fail "RECOVERY_CONCURRENT_WRITE"
    | none => .put e.sequence (e.parsed T) (resolvePut T config expected e)

end S3Store

/-! ### The appenders and readers of one prefix -/

inductive S3Invocation (ν : Type) where
  | append (expected : RecoveryHead) (entry : ProtectedEntry ν)
  | read

inductive S3Result (ν : Type) where
  | appended
  | history (head : RecoveryHead) (entries : List (ProtectedEntry ν))

abbrev S3System (ν : Type) := ClientSystem (S3Invocation ν) (ProtectedEntry ν) RecoveryError RecoveryHead (S3Result ν)

namespace S3System

def invoke (T : JsonText ν) (config : Nat → RecoveryS3Config) (process : Nat) : S3Invocation ν → S3Client ν (S3Result ν)
  | .append expected entry => do
    S3Store.append T (config process) expected entry
    pure .appended
  | .read => do
    let (head,entries) ← S3Store.read T (config process)
    pure (.history head entries)

abbrev step (T : JsonText ν) (config : Nat → RecoveryS3Config) : S3System ν → ClientAction (S3Invocation ν) → Option (S3System ν) :=
  ClientSystem.step (invoke T config)

/-- A store that has observed nothing, over an empty prefix. -/
def initial : S3System ν := ClientSystem.initial fun _ => ⟨0,""⟩

end S3System
end SpeedySweeties
