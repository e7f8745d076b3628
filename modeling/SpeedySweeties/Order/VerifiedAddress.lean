import SpeedySweeties.Library.JsonText
import SpeedySweeties.Library.Transition
import SpeedySweeties.Order.Address

/-! The cache in front of the geocoder, one for each server process. An entry holds the promise of
its lookup, which later calls for the same address await too; by the time the promise settles the
entry may have expired, been evicted or been replaced. -/
namespace SpeedySweeties
open Table

/-- The outcome of a lookup, or of a call: it rejects with an `ε`. -/
abbrev LookupOutcome (ε : Type) := Except ε OrderLocation

/-- `result.geocodeStatus === "VERIFIED"` -/
def LookupOutcome.Verified {ε : Type} : LookupOutcome ε → Prop
  | .ok location => location.geocodeStatus = some .verified
  | .error _ => False

instance {ε : Type} (outcome : LookupOutcome ε) : Decidable outcome.Verified := by
  cases outcome <;> unfold LookupOutcome.Verified <;> infer_instance

namespace VerifiedAddress

def ttlMs : Int := 5*60*1000
def maxEntries : Nat := 1000

/-- No number is written. -/
def inputWriter : Json.Writer Empty := ⟨Empty.elim,fun _ => ""⟩

def inputJson (address : DeliveryAddressInput) : Json Empty :=
  .object [("addressLine1",.text address.addressLine1),("city",.text address.city),("province",.text address.province)]

def inputText (address : DeliveryAddressInput) : String := Json.stringify inputWriter (inputJson address)

/-- The promise of an entry, by the place of its lookup among all lookups; no two entries share one. -/
structure Entry where
  key : String
  expiresAt : Int
  result : Nat
  deriving DecidableEq, Repr

abbrev Entries := Table Entry Entry.key

structure Lookup (ε : Type) where
  input : DeliveryAddressInput
  createdAt : Int
  startedAt : Option Int
  outcome : Option (LookupOutcome ε)

/-- A call that awaits a promise; the one that made its entry is the owner. -/
structure Call (ε : Type) where
  address : DeliveryAddressInput
  begunAt : Int
  result : Nat
  owner : Bool
  returned : Option (LookupOutcome ε)

structure Cache (ε : Type) where
  clock : Int
  entries : Entries
  lookups : List (Lookup ε)
  calls : List (Call ε)

inductive Action (ε : Type) where
  | advance (ms : Nat)
  | call (address : DeliveryAddressInput)
  | start (result : Nat)
  | settle (result : Nat) (outcome : LookupOutcome ε)
  | resume (call : Nat)

def initial (ε : Type) (clock : Int) : Cache ε := ⟨clock,Table.empty,[],[]⟩

/-- `for (const [id, entry] of entries) if (entry.expiresAt <= now) entries.delete(id)` -/
def unexpired (entries : Entries) (now : Int) : Entries where
  rows := entries.rows.filter fun entry => now < entry.expiresAt
  unique := entries.unique.sublist (List.filter_sublist.map _)

/-- `if (entries.size >= MAX_ENTRIES) entries.delete(entries.keys().next().value!)` -/
def withRoom (entries : Entries) : Entries :=
  match entries.rows with
  | first::_ => if maxEntries ≤ entries.rows.length then entries.delete first.key else entries
  | [] => entries

section Steps
variable (T : TextService) {ε : Type}

def keyOf (address : DeliveryAddressInput) : String := T.sha256 (inputText address)

/-- The synchronous part of a call, up to its `await`. -/
def call (s : Cache ε) (address : DeliveryAddressInput) : Cache ε :=
  let key := keyOf T address
  let entries := unexpired s.entries s.clock
  match entries.find key with
  | some existing => { s with entries := entries, calls := s.calls ++ [⟨address,s.clock,existing.result,false,none⟩] }
  | none => { s with
      entries := (withRoom entries).put ⟨key,s.clock + ttlMs,s.lookups.length⟩
      lookups := s.lookups ++ [⟨address,s.clock,none,none⟩]
      calls := s.calls ++ [⟨address,s.clock,s.lookups.length,true,none⟩] }

/-- `entries.get(key) === entry` decides whether the entry goes. -/
def deleteOwn (entries : Entries) (key : String) (result : Nat) : Entries :=
  if (entries.find key).any (·.result = result) then entries.delete key else entries

def resume (s : Cache ε) (i : Nat) : Option (Cache ε) := do
  let waiting ← s.calls[i]?
  if waiting.returned.isSome then none
  else
    let lookup ← s.lookups[waiting.result]?
    let outcome ← lookup.outcome
    some { s with
      entries := if waiting.owner ∧ ¬outcome.Verified then deleteOwn s.entries (keyOf T waiting.address) waiting.result else s.entries
      calls := s.calls.set i { waiting with returned := some outcome } }

def step (s : Cache ε) : Action ε → Option (Cache ε)
  | .advance ms => some { s with clock := s.clock + ms }
  | .call address => some (call T s address)
  | .start result => do
    let lookup ← s.lookups[result]?
    if lookup.startedAt.isSome then none
    else some { s with lookups := s.lookups.set result { lookup with startedAt := some s.clock } }
  | .settle result outcome => do
    let lookup ← s.lookups[result]?
    if lookup.startedAt.isNone ∨ lookup.outcome.isSome then none
    else some { s with lookups := s.lookups.set result { lookup with outcome := some outcome } }
  | .resume i => resume T s i

abbrev Reachable (clock : Int) : Cache ε → Prop := Transition.Reachable (step T) (initial ε clock)

end Steps

/-! ### What the table operations leave -/

theorem mem_unexpired {entries : Entries} {now : Int} {entry : Entry} :
    entry ∈ (unexpired entries now).rows ↔ entry ∈ entries.rows ∧ now < entry.expiresAt := by
  simp [unexpired]

theorem mem_withRoom {entries : Entries} {entry : Entry} (mem : entry ∈ (withRoom entries).rows) : entry ∈ entries.rows := by
  unfold withRoom at mem
  split at mem
  · split at mem
    · exact (List.mem_filter.mp mem).1
    · exact mem
  · exact mem

theorem mem_deleteOwn {entries : Entries} {key : String} {result : Nat} {entry : Entry}
    (mem : entry ∈ (deleteOwn entries key result).rows) : entry ∈ entries.rows := by
  unfold deleteOwn at mem
  split at mem
  · exact (List.mem_filter.mp mem).1
  · exact mem

theorem lengthUnexpired (entries : Entries) (now : Int) : (unexpired entries now).rows.length ≤ entries.rows.length :=
  List.length_filter_le _ _

theorem lengthDeleteOwn (entries : Entries) (key : String) (result : Nat) :
    (deleteOwn entries key result).rows.length ≤ entries.rows.length := by
  unfold deleteOwn
  split
  · exact List.length_filter_le _ _
  · exact Nat.le_refl _

theorem lengthWithRoom {entries : Entries} (bound : entries.rows.length ≤ maxEntries) : (withRoom entries).rows.length < maxEntries := by
  unfold withRoom
  split
  · rename_i first rest rows
    split
    · have shorter : (entries.delete first.key).rows.length < entries.rows.length := by
        refine List.length_filter_lt_length_iff_exists.mpr ⟨first,?_,by simp⟩
        rw [rows]
        exact List.mem_cons_self
      omega
    · omega
  · rename_i rows
    rw [rows]
    decide

theorem lengthPutRow (entry : Entry) (rows : List Entry) : (putRow Entry.key entry rows).length ≤ rows.length + 1 := by
  induction rows with
  | nil => exact Nat.le_refl _
  | cons first rest ih =>
    rw [putRow]
    split
    · exact Nat.le_succ _
    · exact Nat.succ_le_succ ih

theorem deleteOwnOther {entries : Entries} {key : String} {result : Nat} {entry : Entry} (mem : entry ∈ entries.rows)
    (other : entry.result ≠ result) : entry ∈ (deleteOwn entries key result).rows := by
  unfold deleteOwn
  split
  · rename_i own
    refine List.mem_filter.mpr ⟨mem,decide_eq_true ?_⟩
    rintro rfl
    rw [find_of_mem mem] at own
    exact other (by simpa using own)
  · exact mem

theorem deleteOwnGone {entries : Entries} {key : String} {result : Nat} {entry : Entry}
    (mem : entry ∈ (deleteOwn entries key result).rows) (own : entry.key = key) : entry.result ≠ result := by
  rintro rfl
  have found := find_of_mem (mem_deleteOwn mem)
  subst own
  unfold deleteOwn at mem
  rw [found,if_pos (by simp)] at mem
  simpa using (List.mem_filter.mp mem).2

/-! ### What one step can do -/

section Invariants
variable {T : TextService} {ε : Type} {s t : Cache ε} {a : Action ε}

inductive Stepped (T : TextService) (s : Cache ε) : Action ε → Cache ε → Prop
  | advanced (ms : Nat) : Stepped T s (.advance ms) { s with clock := s.clock + ms }
  | joined (address : DeliveryAddressInput) (entry : Entry) (mem : entry ∈ s.entries.rows) (key : entry.key = keyOf T address)
      (fresh : s.clock < entry.expiresAt) :
      Stepped T s (.call address) { s with
        entries := unexpired s.entries s.clock
        calls := s.calls ++ [⟨address,s.clock,entry.result,false,none⟩] }
  | begun (address : DeliveryAddressInput) :
      Stepped T s (.call address) { s with
        entries := (withRoom (unexpired s.entries s.clock)).put ⟨keyOf T address,s.clock + ttlMs,s.lookups.length⟩
        lookups := s.lookups ++ [⟨address,s.clock,none,none⟩]
        calls := s.calls ++ [⟨address,s.clock,s.lookups.length,true,none⟩] }
  | started (i : Nat) (lookup : Lookup ε) (found : s.lookups[i]? = some lookup) (unstarted : lookup.startedAt = none) :
      Stepped T s (.start i) { s with lookups := s.lookups.set i { lookup with startedAt := some s.clock } }
  | settled (i : Nat) (lookup : Lookup ε) (outcome : LookupOutcome ε) (found : s.lookups[i]? = some lookup)
      (started : lookup.startedAt.isSome = true) (pending : lookup.outcome = none) :
      Stepped T s (.settle i outcome) { s with lookups := s.lookups.set i { lookup with outcome := some outcome } }
  | resumed (i : Nat) (waiting : Call ε) (lookup : Lookup ε) (outcome : LookupOutcome ε) (found : s.calls[i]? = some waiting)
      (open_ : waiting.returned = none) (promise : s.lookups[waiting.result]? = some lookup) (settled : lookup.outcome = some outcome) :
      Stepped T s (.resume i) { s with
        entries := if waiting.owner ∧ ¬outcome.Verified then deleteOwn s.entries (keyOf T waiting.address) waiting.result else s.entries
        calls := s.calls.set i { waiting with returned := some outcome } }

theorem stepCases (taken : step T s a = some t) : Stepped T s a t := by
  cases a with
  | advance ms => cases Option.some.inj taken; exact .advanced ms
  | call address =>
    cases Option.some.inj taken
    unfold call
    dsimp only
    split
    · rename_i entry found
      obtain ⟨mem,key⟩ := find_some found
      obtain ⟨mem,fresh⟩ := mem_unexpired.mp mem
      exact .joined address entry mem key fresh
    · exact .begun address
  | start i =>
    simp only [step,bind,Option.bind_eq_some_iff] at taken
    obtain ⟨lookup,found,last⟩ := taken
    split at last
    · contradiction
    · rename_i unstarted
      cases Option.some.inj last
      exact .started i lookup found (by simpa using unstarted)
  | settle i outcome =>
    simp only [step,bind,Option.bind_eq_some_iff] at taken
    obtain ⟨lookup,found,last⟩ := taken
    split at last
    · contradiction
    · rename_i ready
      obtain ⟨started,pending⟩ := not_or.mp ready
      cases Option.some.inj last
      exact .settled i lookup outcome found (by simpa [Option.isSome_iff_ne_none] using started) (by simpa using pending)
  | resume i =>
    simp only [step,resume,bind,Option.bind_eq_some_iff] at taken
    obtain ⟨waiting,found,last⟩ := taken
    split at last
    · contradiction
    · rename_i open_
      simp only [Option.bind_eq_some_iff] at last
      obtain ⟨lookup,promise,outcome,settled,last⟩ := last
      cases Option.some.inj last
      exact .resumed i waiting lookup outcome found (by simpa using open_) promise settled

/-- What every later step keeps of a lookup. -/
structure LookupKept (before after : Lookup ε) : Prop where
  input : after.input = before.input
  createdAt : after.createdAt = before.createdAt
  outcome : ∀ o, before.outcome = some o → after.outcome = some o

theorem LookupKept.refl (lookup : Lookup ε) : LookupKept lookup lookup := ⟨rfl,rfl,fun _ is => is⟩

/-- What every later step keeps of a call. -/
structure CallKept (before after : Call ε) : Prop where
  address : after.address = before.address
  begunAt : after.begunAt = before.begunAt
  result : after.result = before.result
  owner : after.owner = before.owner
  returned : ∀ o, before.returned = some o → after.returned = some o

theorem CallKept.refl (waiting : Call ε) : CallKept waiting waiting := ⟨rfl,rfl,rfl,rfl,fun _ is => is⟩

theorem setKept {α : Type} {R : α → α → Prop} (self : ∀ x, R x x) {items : List α} {i j : Nat} {old new x : α}
    (found : items[i]? = some old) (kept : R old new) (at_ : items[j]? = some x) :
    ∃ y, (items.set i new)[j]? = some y ∧ R x y := by
  obtain ⟨short,-⟩ := List.getElem?_eq_some_iff.mp found
  by_cases same : i = j
  · subst same
    cases Option.some.inj (found.symm.trans at_)
    exact ⟨new,List.getElem?_set_self short,kept⟩
  · exact ⟨x,by rw [List.getElem?_set_ne same]; exact at_,self x⟩

theorem appendKept {α : Type} {R : α → α → Prop} (self : ∀ x, R x x) {items more : List α} {j : Nat} {x : α}
    (at_ : items[j]? = some x) : ∃ y, (items ++ more)[j]? = some y ∧ R x y :=
  ⟨x,by rw [List.getElem?_append_left (List.getElem?_eq_some_iff.mp at_).1]; exact at_,self x⟩

theorem lookupsKept (taken : Stepped T s a t) {j : Nat} {lookup : Lookup ε} (at_ : s.lookups[j]? = some lookup) :
    ∃ later, t.lookups[j]? = some later ∧ LookupKept lookup later := by
  cases taken with
  | begun => exact appendKept .refl at_
  | started i old found _ => exact setKept .refl found ⟨rfl,rfl,fun _ is => is⟩ at_
  | settled i old outcome found _ pending =>
    refine setKept .refl found ⟨rfl,rfl,fun o is => ?_⟩ at_
    rw [pending] at is
    contradiction
  | _ => exact ⟨lookup,at_,.refl lookup⟩

theorem callsKept (taken : Stepped T s a t) {j : Nat} {waiting : Call ε} (at_ : s.calls[j]? = some waiting) :
    ∃ later, t.calls[j]? = some later ∧ CallKept waiting later := by
  cases taken with
  | joined => exact appendKept .refl at_
  | begun => exact appendKept .refl at_
  | resumed i old lookup outcome found open_ =>
    refine setKept .refl found ⟨rfl,rfl,rfl,rfl,fun o is => ?_⟩ at_
    rw [open_] at is
    contradiction
  | _ => exact ⟨waiting,at_,.refl waiting⟩

theorem entrySource (taken : Stepped T s a t) {entry : Entry} (mem : entry ∈ t.entries.rows) :
    entry ∈ s.entries.rows ∨ ∃ address, entry = ⟨keyOf T address,s.clock + ttlMs,s.lookups.length⟩ ∧
      t.lookups[s.lookups.length]? = some ⟨address,s.clock,none,none⟩ := by
  cases taken with
  | joined => exact .inl (mem_unexpired.mp mem).1
  | begun address =>
    rcases mem_put mem with rfl | ⟨mem,-⟩
    · exact .inr ⟨address,rfl,by simp⟩
    · exact .inl (mem_unexpired.mp (mem_withRoom mem)).1
  | resumed =>
    dsimp only at mem
    split at mem
    · exact .inl (mem_deleteOwn mem)
    · exact .inl mem
  | _ => exact .inl mem

/-- An entry belongs to a lookup for its key, made as long ago. -/
def EntriesSound (T : TextService) (s : Cache ε) : Prop := ∀ entry ∈ s.entries.rows, ∃ lookup, s.lookups[entry.result]? = some lookup ∧
  entry.key = keyOf T lookup.input ∧ entry.expiresAt = lookup.createdAt + ttlMs

theorem entriesSoundStep (taken : Stepped T s a t) (h : EntriesSound T s) : EntriesSound T t := by
  intro entry mem
  rcases entrySource taken mem with mem | ⟨address,rfl,found⟩
  · obtain ⟨lookup,found,key,expires⟩ := h entry mem
    obtain ⟨later,at_,kept⟩ := lookupsKept taken found
    exact ⟨later,at_,by rw [key,kept.input],by rw [expires,kept.createdAt]⟩
  · exact ⟨_,found,rfl,rfl⟩

/-- A call awaits a lookup for its key, made less than five minutes before the call. -/
def Awaits (T : TextService) (s : Cache ε) (waiting : Call ε) : Prop := ∃ lookup, s.lookups[waiting.result]? = some lookup ∧
  keyOf T waiting.address = keyOf T lookup.input ∧ waiting.begunAt < lookup.createdAt + ttlMs ∧
  ∀ o, waiting.returned = some o → lookup.outcome = some o

theorem awaitsStep (taken : Stepped T s a t) {waiting : Call ε} (h : Awaits T s waiting) : Awaits T t waiting := by
  obtain ⟨lookup,found,key,recent,outcome⟩ := h
  obtain ⟨later,at_,kept⟩ := lookupsKept taken found
  exact ⟨later,at_,by rw [key,kept.input],by rw [kept.createdAt]; exact recent,fun o is => kept.outcome o (outcome o is)⟩

def CallsSound (T : TextService) (s : Cache ε) : Prop := ∀ waiting ∈ s.calls, Awaits T s waiting

theorem callsSoundStep (taken : Stepped T s a t) (entries : EntriesSound T s) (h : CallsSound T s) : CallsSound T t := by
  intro waiting mem
  cases id taken with
  | joined address entry there key fresh =>
    rcases List.mem_append.mp mem with mem | mem
    · exact awaitsStep taken (h waiting mem)
    · cases List.mem_singleton.mp mem
      obtain ⟨lookup,found,own,expires⟩ := entries entry there
      exact ⟨lookup,found,by rw [← own,key],by rw [← expires]; exact fresh,fun _ is => by cases is⟩
  | begun address =>
    rcases List.mem_append.mp mem with mem | mem
    · exact awaitsStep taken (h waiting mem)
    · cases List.mem_singleton.mp mem
      exact ⟨⟨address,s.clock,none,none⟩,by simp,rfl,by simp [ttlMs],fun _ is => by cases is⟩
  | resumed i old lookup outcome found _ promise settled =>
    rcases List.mem_or_eq_of_mem_set mem with mem | rfl
    · exact awaitsStep taken (h waiting mem)
    · obtain ⟨own,at_,key,recent,-⟩ := h old (List.mem_of_getElem? found)
      cases Option.some.inj (at_.symm.trans promise)
      exact ⟨lookup,promise,key,recent,fun o is => by cases Option.some.inj is; exact settled⟩
  | _ => exact awaitsStep taken (h waiting mem)

/-- A lookup was made for some call, and started and settled in this order. -/
structure Timely (s : Cache ε) (lookup : Lookup ε) : Prop where
  made : ∃ waiting ∈ s.calls, waiting.address = lookup.input
  created : lookup.createdAt ≤ s.clock
  started : ∀ at_, lookup.startedAt = some at_ → lookup.createdAt ≤ at_
  settled : lookup.outcome.isSome = true → lookup.startedAt.isSome = true

theorem clockStep (taken : Stepped T s a t) : s.clock ≤ t.clock := by
  cases taken with
  | advanced ms => exact Int.le_add_of_nonneg_right (Int.natCast_nonneg ms)
  | _ => exact Int.le_refl _

theorem timelyStep (taken : Stepped T s a t) {lookup : Lookup ε} (h : Timely s lookup) : Timely t lookup := by
  obtain ⟨waiting,mem,same⟩ := h.made
  obtain ⟨i,found⟩ := List.getElem?_of_mem mem
  obtain ⟨later,at_,kept⟩ := callsKept taken found
  exact ⟨⟨later,List.mem_of_getElem? at_,kept.address.trans same⟩,Int.le_trans h.created (clockStep taken),h.started,h.settled⟩

def LookupsTimely (s : Cache ε) : Prop := ∀ lookup ∈ s.lookups, Timely s lookup

theorem lookupsTimelyStep (taken : Stepped T s a t) (h : LookupsTimely s) : LookupsTimely t := by
  intro lookup mem
  cases id taken with
  | begun address =>
    rcases List.mem_append.mp mem with mem | mem
    · exact timelyStep taken (h lookup mem)
    · cases List.mem_singleton.mp mem
      exact ⟨⟨_,List.mem_append_right _ (List.mem_singleton_self _),rfl⟩,Int.le_refl _,nofun,nofun⟩
  | started i old found _ =>
    rcases List.mem_or_eq_of_mem_set mem with mem | rfl
    · exact timelyStep taken (h lookup mem)
    · have before := timelyStep taken (h old (List.mem_of_getElem? found))
      exact ⟨before.made,before.created,fun at_ is => by cases Option.some.inj is; exact before.created,fun _ => rfl⟩
  | settled i old outcome found began _ =>
    rcases List.mem_or_eq_of_mem_set mem with mem | rfl
    · exact timelyStep taken (h lookup mem)
    · have before := timelyStep taken (h old (List.mem_of_getElem? found))
      exact ⟨before.made,before.created,before.started,fun _ => began⟩
  | _ => exact timelyStep taken (h lookup mem)

/-! ### What is no longer found -/

theorem callSource (taken : Stepped T s a t) {i : Nat} {waiting : Call ε} (at_ : t.calls[i]? = some waiting) :
    (∃ old, s.calls[i]? = some old ∧ old.result = waiting.result) ∨
    (∃ entry ∈ s.entries.rows, entry.result = waiting.result) ∨ waiting.result = s.lookups.length := by
  cases taken with
  | joined address entry mem =>
    rw [List.getElem?_append] at at_
    split at at_
    · exact .inl ⟨waiting,at_,rfl⟩
    · cases List.mem_singleton.mp (List.mem_of_getElem? at_)
      exact .inr (.inl ⟨entry,mem,rfl⟩)
  | begun =>
    rw [List.getElem?_append] at at_
    split at at_
    · exact .inl ⟨waiting,at_,rfl⟩
    · cases List.mem_singleton.mp (List.mem_of_getElem? at_)
      exact .inr (.inr rfl)
  | resumed j old lookup outcome found =>
    rw [List.getElem?_set] at at_
    split at at_
    · rename_i same
      split at at_
      · cases Option.some.inj at_
        exact .inl ⟨old,same ▸ found,rfl⟩
      · contradiction
    · exact .inl ⟨waiting,at_,rfl⟩
  | _ => exact .inl ⟨waiting,at_,rfl⟩

/-- No entry has the promise of the lookup. -/
def Gone (s : Cache ε) (result : Nat) : Prop := result < s.lookups.length ∧ ∀ entry ∈ s.entries.rows, entry.result ≠ result

theorem goneStep (taken : Stepped T s a t) {result : Nat} (h : Gone s result) : Gone t result := by
  obtain ⟨lookup,found⟩ : ∃ lookup, s.lookups[result]? = some lookup := ⟨_,List.getElem?_eq_getElem h.1⟩
  obtain ⟨later,at_,-⟩ := lookupsKept taken found
  refine ⟨(List.getElem?_eq_some_iff.mp at_).1,fun entry mem same => ?_⟩
  rcases entrySource taken mem with mem | ⟨address,rfl,-⟩
  · exact h.2 entry mem same
  · exact Nat.lt_irrefl _ (same ▸ h.1)

/-- The calls from the `first` on await other lookups. -/
def Forgotten (first result : Nat) (s : Cache ε) : Prop := Gone s result ∧
  ∀ i waiting, first ≤ i → s.calls[i]? = some waiting → waiting.result ≠ result

theorem forgottenStep (taken : Stepped T s a t) {first result : Nat} (h : Forgotten first result s) : Forgotten first result t := by
  refine ⟨goneStep taken h.1,fun i waiting from_ at_ same => ?_⟩
  rcases callSource taken at_ with ⟨old,at_,is⟩ | ⟨entry,mem,is⟩ | is
  · exact h.2 i old from_ at_ (is.trans same)
  · exact h.1.2 entry mem (is.trans same)
  · exact Nat.lt_irrefl _ (is ▸ same ▸ h.1.1)

/-- The owner of a lookup that has returned an error or a location that is not verified. -/
def Call.Failed (waiting : Call ε) : Prop := waiting.owner = true ∧ ∃ outcome, waiting.returned = some outcome ∧ ¬outcome.Verified

def FailedGone (s : Cache ε) : Prop := ∀ waiting ∈ s.calls, waiting.Failed → Gone s waiting.result

theorem failedGoneStep (taken : Stepped T s a t) (entries : EntriesSound T s) (calls : CallsSound T s) (h : FailedGone s) :
    FailedGone t := by
  intro waiting mem failed
  cases id taken with
  | joined =>
    rcases List.mem_append.mp mem with mem | mem
    · exact goneStep taken (h waiting mem failed)
    · cases List.mem_singleton.mp mem
      obtain ⟨-,_,none_,-⟩ := failed
      contradiction
  | begun =>
    rcases List.mem_append.mp mem with mem | mem
    · exact goneStep taken (h waiting mem failed)
    · cases List.mem_singleton.mp mem
      obtain ⟨-,_,none_,-⟩ := failed
      contradiction
  | resumed i old lookup outcome found open_ promise =>
    rcases List.mem_or_eq_of_mem_set mem with mem | rfl
    · exact goneStep taken (h waiting mem failed)
    · obtain ⟨owner,_,is,unverified⟩ := failed
      cases Option.some.inj is
      refine ⟨(List.getElem?_eq_some_iff.mp promise).1,fun entry there same => ?_⟩
      dsimp only at there
      rw [if_pos ⟨owner,unverified⟩] at there
      obtain ⟨made,at_,key,-⟩ := entries entry (mem_deleteOwn there)
      obtain ⟨awaited,at',keyOf_,-⟩ := calls old (List.mem_of_getElem? found)
      cases Option.some.inj ((same ▸ at_).symm.trans at')
      exact deleteOwnGone there (key.trans keyOf_.symm) same
  | _ => exact goneStep taken (h waiting mem failed)

theorem sizeStep (taken : Stepped T s a t) (h : s.entries.rows.length ≤ maxEntries) : t.entries.rows.length ≤ maxEntries := by
  have fewer := Nat.le_trans (lengthUnexpired s.entries s.clock) h
  cases taken with
  | joined => exact fewer
  | begun => exact Nat.le_trans (lengthPutRow _ _) (lengthWithRoom fewer)
  | resumed =>
    dsimp only
    split
    · exact Nat.le_trans (lengthDeleteOwn _ _ _) h
    · exact h
  | _ => exact h

/-! ### Over whole runs -/

structure Sound (T : TextService) (s : Cache ε) : Prop where
  entries : EntriesSound T s
  calls : CallsSound T s
  lookups : LookupsTimely s
  gone : FailedGone s
  size : s.entries.rows.length ≤ maxEntries

theorem initiallySound (clock : Int) : Sound T (initial ε clock) where
  entries := fun _ mem => absurd mem List.not_mem_nil
  calls := fun _ mem => absurd mem List.not_mem_nil
  lookups := fun _ mem => absurd mem List.not_mem_nil
  gone := fun _ mem => absurd mem List.not_mem_nil
  size := by simp [initial,Table.empty]

theorem sound {clock : Int} (reached : Reachable T clock s) : Sound T s := by
  refine reached.invariant (initiallySound clock) fun u a v h taken => ?_
  have stepped := stepCases taken
  exact ⟨entriesSoundStep stepped h.entries,callsSoundStep stepped h.entries h.calls,lookupsTimelyStep stepped h.lookups,
    failedGoneStep stepped h.entries h.calls h.gone,sizeStep stepped h.size⟩

theorem forgotten {clock : Int} (reached : Reachable T clock s) (later : Transition.Reachable (step T) s t) {waiting : Call ε}
    (mem : waiting ∈ s.calls) (failed : waiting.Failed) : Forgotten s.calls.length waiting.result t := by
  refine later.invariant ⟨(sound reached).gone waiting mem failed,fun i c from_ at_ => ?_⟩ fun u a v h taken => forgottenStep (stepCases taken) h
  exact absurd (List.getElem?_eq_some_iff.mp at_).1 (Nat.not_lt.mpr from_)

theorem inputTextInjective {a b : DeliveryAddressInput} (same : inputText a = inputText b) : a = b := by
  have readable : Json.Readable inputWriter (fun _ => none) := ⟨nofun,nofun,nofun⟩
  have distinct : ∀ address, Json.Distinct (inputJson address) := fun address =>
    ⟨by simp,trivial,trivial,trivial,trivial⟩
  have fields := Json.stringifyInjective readable (distinct a) (distinct b) same
  obtain ⟨line,city,province⟩ := a
  obtain ⟨line',city',province'⟩ := b
  simpa [inputJson,Json.stored,Json.storedFields] using fields

/-- SHA-256 tells the submitted addresses apart. -/
def NoCollision (T : TextService) (s : Cache ε) : Prop := ∀ a ∈ s.calls, ∀ b ∈ s.calls,
  T.sha256 (inputText a.address) = T.sha256 (inputText b.address) → inputText a.address = inputText b.address

theorem outcomeOwn {clock : Int} (reached : Reachable T clock s) (noCollision : NoCollision T s) {waiting : Call ε}
    (mem : waiting ∈ s.calls) {outcome : LookupOutcome ε} (returned : waiting.returned = some outcome) :
    ∃ lookup, s.lookups[waiting.result]? = some lookup ∧ lookup.input = waiting.address ∧ lookup.outcome = some outcome ∧
      ∃ startedAt, lookup.startedAt = some startedAt ∧ waiting.begunAt < startedAt + ttlMs := by
  have h := sound reached
  obtain ⟨lookup,found,key,recent,settled⟩ := h.calls waiting mem
  have timely := h.lookups lookup (List.mem_of_getElem? found)
  obtain ⟨maker,there,made⟩ := timely.made
  have own : lookup.input = waiting.address := by
    rw [← made] at key ⊢
    exact (inputTextInjective (noCollision waiting mem maker there key)).symm
  have outcome_ := settled outcome returned
  obtain ⟨startedAt,is⟩ := Option.isSome_iff_exists.mp (timely.settled (by rw [outcome_]; rfl))
  have started := timely.started startedAt is
  exact ⟨lookup,found,own,outcome_,startedAt,is,by omega⟩

theorem verifiedAddressSafe {clock : Int} (reached : Reachable T clock s) (later : Transition.Reachable (step T) s t)
    (noCollision : NoCollision T t) :
    (∀ waiting ∈ t.calls, ∀ outcome, waiting.returned = some outcome →
      ∃ lookup, t.lookups[waiting.result]? = some lookup ∧ lookup.input = waiting.address ∧ lookup.outcome = some outcome ∧
        ∃ startedAt, lookup.startedAt = some startedAt ∧ waiting.begunAt < startedAt + ttlMs) ∧
    (∀ owner ∈ s.calls, owner.Failed → ∀ i waiting, s.calls.length ≤ i → t.calls[i]? = some waiting →
      waiting.result ≠ owner.result) ∧
    (∀ i waiting u, t.calls[i]? = some waiting → step T t (.resume i) = some u →
      ∀ entry ∈ t.entries.rows, entry.result ≠ waiting.result → entry ∈ u.entries.rows) ∧
    t.entries.rows.length ≤ maxEntries := by
  have reachedLater := Transition.Reachable.trans reached later
  refine ⟨fun waiting mem outcome => outcomeOwn reachedLater noCollision mem,
    fun owner mem failed i waiting from_ at_ => (forgotten reached later mem failed).2 i waiting from_ at_,
    fun i waiting u at_ taken entry mem other => ?_,(sound reachedLater).size⟩
  cases stepCases taken with
  | resumed _ _ _ _ found =>
    cases Option.some.inj (at_.symm.trans found)
    dsimp only
    split
    · exact deleteOwnOther mem other
    · exact mem

end Invariants

def plainText : TextService := ⟨id,id,id⟩
def elmStreet : DeliveryAddressInput := ⟨"5 Elm St","Guelph","ON"⟩

/-- The geocoder cannot be reached, and the owner learns so. -/
def unavailableRun : List (Action Unit) :=
  [.call elmStreet,.start 0,.settle 0 (.ok (needsReviewLocation plainText elmStreet)),.resume 0]

/-- The next call looks the address up again; a minute later another one awaits the same lookup. -/
def retryRun : List (Action Unit) := [.call elmStreet,.start 1,.advance 60000,.call elmStreet,
  .settle 1 (.ok { needsReviewLocation plainText elmStreet with geocodeStatus := some .verified }),.resume 2,.resume 1]

theorem verifiedAddressSafeRetry : ∃ s t : Cache Unit, Reachable plainText 0 s ∧ Transition.Reachable (step plainText) s t ∧
    (∃ owner ∈ s.calls, owner.Failed ∧ ∀ waiting, t.calls[2]? = some waiting → waiting.result ≠ owner.result) ∧
    (∃ waiting lookup, t.calls[2]? = some waiting ∧ t.lookups[waiting.result]? = some lookup ∧ lookup.input = elmStreet ∧
      waiting.returned.isSome = true ∧ waiting.returned = lookup.outcome) ∧ t.entries.rows.length = 1 := by
  have ends : (Transition.run (step plainText) (initial Unit 0) unavailableRun).bind (fun s => s.calls[0]?.bind fun owner =>
      (Transition.run (step plainText) s retryRun).bind fun t => t.calls[2]?.map fun waiting =>
        (s.calls.length,owner.owner,owner.returned.map fun o => decide o.Verified,t.calls.all fun c => decide (c.address = elmStreet),
          waiting.returned.map fun o => decide o.Verified,t.entries.rows.length)) =
      some (1,true,some false,true,some true,1) := by
    decide +kernel
  obtain ⟨s,ran,found⟩ := Option.bind_eq_some_iff.mp ends
  obtain ⟨owner,first,found⟩ := Option.bind_eq_some_iff.mp found
  obtain ⟨t,later,found⟩ := Option.bind_eq_some_iff.mp found
  obtain ⟨waiting,third,same⟩ := Option.map_eq_some_iff.mp found
  simp only [Prod.mk.injEq,List.all_eq_true,decide_eq_true_eq,Option.map_eq_some_iff] at same
  obtain ⟨length,owns,⟨failure,failed,unverified⟩,addresses,⟨outcome,returned,-⟩,size⟩ := same
  have reached : Reachable plainText 0 s := Transition.runReachable .start ran
  have reachedLater := Transition.runReachable .start later
  have noCollision : NoCollision plainText t := fun a memA b memB _ => by rw [addresses a memA,addresses b memB]
  have mem := List.mem_of_getElem? third
  obtain ⟨own,forgotten_,-⟩ := verifiedAddressSafe reached reachedLater noCollision
  obtain ⟨lookup,at_,input,outcome_,-⟩ := own waiting mem outcome returned
  have ownerFailed : owner.Failed := ⟨owns,failure,failed,of_decide_eq_false unverified⟩
  refine ⟨s,t,reached,reachedLater,⟨owner,List.mem_of_getElem? first,ownerFailed,fun c at' => ?_⟩,
    ⟨waiting,lookup,third,at_,input.trans (addresses waiting mem),by rw [returned]; rfl,returned.trans outcome_.symm⟩,size⟩
  exact forgotten_ owner (List.mem_of_getElem? first) ownerFailed 2 c (by omega) at'

end VerifiedAddress

end SpeedySweeties
