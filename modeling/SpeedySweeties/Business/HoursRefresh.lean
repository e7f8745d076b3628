import SpeedySweeties.Business.OpeningHours
import SpeedySweeties.Library.Table
import SpeedySweeties.Library.Transition

/-! The two lookups of opening hours that Google bills for. Both record a claim before they ask: the
shop's own hours by a daily slot that only grows, those of a pickup location by the time of its last
check, which the end of a run writes once more. Any number of instances run them at once. -/
namespace SpeedySweeties.Business
open Table

structure HoursService where
  googlePlacesApiKey : String
  googlePlaceId : String
  parseDate : String → Option Int
  torontoMinute : Int → Int
  toISOString : Int → String

/-! ### `refreshBusinessHours` -/

/-- The answer of Google to a request that went through. -/
structure Place where
  id : Option String
  regularOpeningHours : Option OpeningHours
  currentOpeningHours : Option OpeningHours

/-- How far a call has come; `now` is what the clock of its instance showed. -/
inductive ScheduleRun where
  | started (now : Int)
  | due (now : Int)
  | claimed (now : Int)
  | requested (now : Int)

/-- `attempt` and `schedule` are two rows of `SystemSetting`. `claims` and `requests` record, newest
first, the slots that were written into `attempt` and those Google was asked for. -/
structure ScheduleSystem where
  attempt : Option String
  schedule : Option SavedBusinessHours
  runs : Nat → Option ScheduleRun
  claims : List String
  requests : List String

inductive ScheduleAction where
  | refresh (run : Nat) (now : Int)
  | readAttempt (run : Nat)
  | claim (run : Nat)
  | request (run : Nat)
  | answer (run : Nat) (place : Option Place)
  | crash (run : Nat)

namespace ScheduleSystem
variable (H : HoursService)

def initial (attempt : Option String) (schedule : Option SavedBusinessHours) : ScheduleSystem :=
  ⟨attempt,schedule,fun _ => none,[],[]⟩

def slotAt (now : Int) : String := dailyHoursSlot (H.torontoMinute now)

def goOn (s : ScheduleSystem) (run : Nat) (r : ScheduleRun) : ScheduleSystem :=
  { s with runs := Function.update s.runs run (some r) }

def close (s : ScheduleSystem) (run : Nat) : ScheduleSystem := { s with runs := Function.update s.runs run none }

/-- The schedule of an answer, if it is one of this place that can be evaluated. -/
def usable (now : Int) (place : Place) : Option SavedBusinessHours :=
  let saved : SavedBusinessHours := ⟨H.toISOString now,place.regularOpeningHours,place.currentOpeningHours⟩
  if place.id ≠ some H.googlePlaceId then none
  else match evaluateBusinessHours H.parseDate H.torontoMinute saved now with
  | .ok (some _) => some saved
  | _ => none

def step (s : ScheduleSystem) : ScheduleAction → Option ScheduleSystem
  | .refresh run now =>
    if (s.runs run).isSome ∨ H.googlePlacesApiKey = "" ∨ H.googlePlaceId = "" then none else some (s.goOn run (.started now))
  | .readAttempt run => match s.runs run with
    | some (.started now) =>
      if s.attempt.any (slotAt H now ≤ ·) then some (s.close run) else some (s.goOn run (.due now))
    | _ => none
  | .claim run => match s.runs run with
    | some (.due now) =>
      -- the upsert and its condition are one statement
      if s.attempt.all (· < slotAt H now) then
        some { s.goOn run (.claimed now) with attempt := some (slotAt H now), claims := slotAt H now::s.claims }
      else some (s.close run)
    | _ => none
  | .request run => match s.runs run with
    | some (.claimed now) => some { s.goOn run (.requested now) with requests := slotAt H now::s.requests }
    | _ => none
  | .answer run place => match s.runs run with
    | some (.requested now) => some { s.close run with schedule := (place.bind (usable H now)).or s.schedule }
    | _ => none
  | .crash run => some (s.close run)

abbrev Reachable (attempt : Option String) (schedule : Option SavedBusinessHours) : ScheduleSystem → Prop :=
  Transition.Reachable (step H) (initial attempt schedule)

variable {H} {s t : ScheduleSystem} {a : ScheduleAction} {first : Option String}

/-- Each claim raises the recorded slot, and each request is of a claim of its own. -/
structure Capped (H : HoursService) (first : Option String) (s : ScheduleSystem) : Prop where
  recorded : s.attempt = s.claims.head?.or first
  rising : (s.claims ++ first.toList).Pairwise (· > ·)
  claimed : ∀ slot ∈ s.requests, slot ∈ s.claims
  once : s.requests.Nodup
  pending : ∀ run now, s.runs run = some (.claimed now) → slotAt H now ∈ s.claims ∧ slotAt H now ∉ s.requests
  own : ∀ run run' now now', s.runs run = some (.claimed now) → s.runs run' = some (.claimed now') →
    slotAt H now = slotAt H now' → run = run'

theorem Capped.unclaimed (h : Capped H first s) (run : Nat) {r : Option ScheduleRun} (other : ∀ now, r ≠ some (.claimed now)) :
    Capped H first { s with runs := Function.update s.runs run r } := by
  have before : ∀ run' now, Function.update s.runs run r run' = some (.claimed now) → s.runs run' = some (.claimed now) := by
    intro run' now is
    rw [Function.update_apply] at is
    split at is
    · exact absurd is (other now)
    · exact is
  exact ⟨h.recorded,h.rising,h.claimed,h.once,fun run' now is => h.pending run' now (before run' now is),
    fun run' run'' now now' is is' => h.own run' run'' now now' (before run' now is) (before run'' now' is')⟩

theorem Capped.claim (h : Capped H first s) {run : Nat} {now : Int} (later : s.attempt.all (· < slotAt H now) = true) :
    Capped H first { s.goOn run (.claimed now) with attempt := some (slotAt H now), claims := slotAt H now::s.claims } := by
  have above : ∀ slot ∈ s.claims ++ first.toList, slot < slotAt H now := by
    intro slot mem
    obtain ⟨newest,rest,is⟩ := List.exists_cons_of_ne_nil (List.ne_nil_of_mem mem)
    have recorded : s.attempt = some newest := by
      rw [h.recorded]
      cases claims : s.claims with
      | nil =>
        rw [claims] at is
        cases first with
        | none => contradiction
        | some f => cases is; rfl
      | cons c cs =>
        rw [claims] at is
        cases is
        rfl
    have newest_ : newest < slotAt H now := by rw [recorded] at later; simpa using later
    have rising := h.rising
    rw [is] at mem rising
    rcases List.mem_cons.mp mem with rfl | mem
    · exact newest_
    · exact String.lt_trans ((List.pairwise_cons.mp rising).1 slot mem) newest_
  have fresh : slotAt H now ∉ s.claims := fun mem => String.lt_irrefl _ (above _ (List.mem_append_left _ mem))
  refine ⟨rfl,List.pairwise_cons.mpr ⟨fun slot mem => above slot mem,h.rising⟩,
    fun slot mem => List.mem_cons_of_mem _ (h.claimed slot mem),h.once,fun run' now' is => ?_,fun run' run'' n n' is is' same => ?_⟩
  · simp only [goOn,Function.update_apply] at is
    split at is
    · cases is
      exact ⟨List.mem_cons_self,fun mem => fresh (h.claimed _ mem)⟩
    · obtain ⟨mem,unasked⟩ := h.pending run' now' is
      exact ⟨List.mem_cons_of_mem _ mem,unasked⟩
  · simp only [goOn,Function.update_apply] at is is'
    split at is <;> split at is'
    · rename_i e e'
      rw [e,e']
    · cases is
      rw [same] at fresh
      exact absurd (h.pending run'' n' is').1 fresh
    · cases is'
      rw [← same] at fresh
      exact absurd (h.pending run' n is).1 fresh
    · exact h.own run' run'' n n' is is' same

theorem Capped.request (h : Capped H first s) {run : Nat} {now : Int} (held : s.runs run = some (.claimed now)) :
    Capped H first { s.goOn run (.requested now) with requests := slotAt H now::s.requests } := by
  obtain ⟨mem,unasked⟩ := h.pending run now held
  have others : ∀ run' now', Function.update s.runs run (some (.requested now)) run' = some (.claimed now') →
      run' ≠ run ∧ s.runs run' = some (.claimed now') := by
    intro run' now' is
    rw [Function.update_apply] at is
    split at is
    · cases is
    · exact ⟨by assumption,is⟩
  refine ⟨h.recorded,h.rising,fun slot asked => ?_,List.nodup_cons.mpr ⟨unasked,h.once⟩,fun run' now' is => ?_,
    fun run' run'' n n' is is' => h.own run' run'' n n' (others run' n is).2 (others run'' n' is').2⟩
  · rcases List.mem_cons.mp asked with rfl | asked
    · exact mem
    · exact h.claimed slot asked
  · obtain ⟨differ,before⟩ := others run' now' is
    obtain ⟨mem',unasked'⟩ := h.pending run' now' before
    refine ⟨mem',fun asked => ?_⟩
    rcases List.mem_cons.mp asked with same | asked
    · exact differ (h.own run' run now' now before held same)
    · exact unasked' asked

theorem cappedStep (h : Capped H first s) (taken : step H s a = some t) : Capped H first t := by
  cases a with
  | refresh run now =>
    simp only [step] at taken
    split at taken
    · contradiction
    · cases Option.some.inj taken
      exact h.unclaimed run nofun
  | readAttempt run =>
    simp only [step] at taken
    split at taken
    · split at taken <;> cases Option.some.inj taken
      · exact h.unclaimed run nofun
      · exact h.unclaimed run nofun
    · contradiction
  | claim run =>
    simp only [step] at taken
    split at taken
    · split at taken <;> cases Option.some.inj taken
      · rename_i later
        exact h.claim later
      · exact h.unclaimed run nofun
    · contradiction
  | request run =>
    simp only [step] at taken
    split at taken
    · rename_i held
      cases Option.some.inj taken
      exact h.request held
    · contradiction
  | answer run place =>
    simp only [step] at taken
    split at taken
    · cases Option.some.inj taken
      have closed := h.unclaimed run (r := none) nofun
      exact ⟨closed.recorded,closed.rising,closed.claimed,closed.once,closed.pending,closed.own⟩
    · contradiction
  | crash run =>
    cases Option.some.inj taken
    exact h.unclaimed run nofun

theorem capped {schedule : Option SavedBusinessHours} (reached : Reachable H first schedule s) : Capped H first s := by
  refine reached.invariant ⟨rfl,?_,nofun,List.nodup_nil,nofun,nofun⟩ fun _ _ _ h taken => cappedStep h taken
  cases first <;> simp [initial]

end ScheduleSystem

/-! ### `refreshPickupLocationHours` -/

def currentHoursRefreshMs : Int := 7*24*60*60*1000

structure PickupHoursRow (ν : Type) where
  id : String
  isActive : Bool
  googlePlaceId : Option String
  googleBusinessStatus : Option String
  regularOpeningHours : Option ν
  currentOpeningHours : Option ν
  regularHoursUpdatedAt : Option Int
  currentHoursUpdatedAt : Option Int
  hoursLastCheckedAt : Option Int
  hoursLastError : Option String

structure PlaceDetails (ν : Type) where
  id : Option String
  businessStatus : Option String
  regularOpeningHours : Option ν
  currentOpeningHours : Option ν

/-- How far a run has come with the locations that it has listed. -/
inductive PickupRun (ν : Type) where
  | started (now : Int) (locationId : Option String)
  | looping (now : Int) (locations : List (PickupHoursRow ν))
  | claimed (now : Int) (location : PickupHoursRow ν) (locations : List (PickupHoursRow ν))
  | ended

inductive PickupEvent where
  | claimed (run : Nat) (locationId : String) (now : Int)
  | requested (run : Nat) (locationId : String)
  deriving DecidableEq, Repr

/-- `log` records the newest event first. -/
structure PickupSystem (ν : Type) where
  clock : Int
  locations : Table (PickupHoursRow ν) fun row => row.id
  runs : Nat → Option (PickupRun ν)
  log : List PickupEvent

/-- The last two are of staff: a new location has not been checked. -/
inductive PickupAction (ν : Type) where
  | advance (ms : Nat)
  | refresh (run : Nat) (locationId : Option String)
  | list (run : Nat)
  | visit (run : Nat)
  | request (run : Nat)
  | save (run : Nat) (placeId : String) (details : PlaceDetails ν) (acknowledged : Bool)
  | fail (run : Nat) (errorMessage : String) (committed : Bool)
  | finish (run : Nat)
  | crash (run : Nat)
  | addLocation (row : PickupHoursRow ν)
  | setActive (id : String) (isActive : Bool)

def PickupRun.now {ν : Type} : PickupRun ν → Option Int
  | .started now _ | .looping now _ | .claimed now _ _ => some now
  | .ended => none

def PickupAction.run {ν : Type} : PickupAction ν → Option Nat
  | .list run | .visit run | .request run | .save run .. | .fail run .. => some run
  | _ => none

namespace PickupSystem
section Steps
variable {ν : Type} (H : HoursService) (orderBy : List (PickupHoursRow ν) → List (PickupHoursRow ν))

def initial (clock : Int) (locations : Table (PickupHoursRow ν) fun row => row.id) : PickupSystem ν := ⟨clock,locations,fun _ => none,[]⟩

def goOn (s : PickupSystem ν) (run : Nat) (r : PickupRun ν) : PickupSystem ν := { s with runs := Function.update s.runs run (some r) }

/-- `where: locationId ? { id } : { isActive: true }` -/
def listed (s : PickupSystem ν) (locationId : Option String) : List (PickupHoursRow ν) :=
  orderBy (s.locations.rows.filter fun row => locationId.elim row.isActive (row.id = ·))

/-- `location.hoursLastCheckedAt && location.hoursLastCheckedAt > cutoff` -/
def recent (now : Int) (location : PickupHoursRow ν) : Bool := location.hoursLastCheckedAt.any (now - currentHoursRefreshMs < ·)

/-- The row that the `updateMany` of a claim finds. -/
def claimable (s : PickupSystem ν) (location : PickupHoursRow ν) : Option (PickupHoursRow ν) :=
  (s.locations.find location.id).filter fun row => row.isActive && row.hoursLastCheckedAt = location.hoursLastCheckedAt

def claimedRow (now : Int) (row : PickupHoursRow ν) : PickupHoursRow ν := { row with hoursLastCheckedAt := some now }

def missingHours (details : PlaceDetails ν) : Option String :=
  let missing := (if details.regularOpeningHours.isNone then ["regular hours"] else []) ++
    if details.currentOpeningHours.isNone then ["current hours"] else []
  if missing = [] then none else some ("Google did not return " ++ " and ".intercalate missing ++ ".")

def refreshedRow (now : Int) (placeId : String) (details : PlaceDetails ν) (row : PickupHoursRow ν) : PickupHoursRow ν :=
  { row with
    googlePlaceId := details.id.or (some placeId)
    googleBusinessStatus := details.businessStatus
    regularOpeningHours := details.regularOpeningHours
    regularHoursUpdatedAt := some now
    currentOpeningHours := details.currentOpeningHours
    currentHoursUpdatedAt := some now
    hoursLastCheckedAt := some now
    hoursLastError := missingHours details }

def failedRow (now : Int) (errorMessage : String) (row : PickupHoursRow ν) : PickupHoursRow ν :=
  { row with hoursLastCheckedAt := some now, hoursLastError := some errorMessage }

/-- The due check and the claim of the next location. -/
def visit (s : PickupSystem ν) (run : Nat) (now : Int) (location : PickupHoursRow ν) (locations : List (PickupHoursRow ν)) :
    PickupSystem ν :=
  if recent now location then s.goOn run (.looping now locations)
  else match s.claimable location with
  | none => s.goOn run (.looping now locations)
  | some row => { s.goOn run (.claimed now location locations) with
      locations := s.locations.put (claimedRow now row)
      log := .claimed run location.id now::s.log }

def step (s : PickupSystem ν) : PickupAction ν → Option (PickupSystem ν)
  | .advance ms => some { s with clock := s.clock + ms }
  | .refresh run locationId =>
    if (s.runs run).isSome ∨ H.googlePlacesApiKey = "" then none else some (s.goOn run (.started s.clock locationId))
  | .list run => match s.runs run with
    | some (.started now locationId) => some (s.goOn run (.looping now (s.listed orderBy locationId)))
    | _ => none
  | .visit run => match s.runs run with
    | some (.looping now (location::locations)) => some (s.visit run now location locations)
    | _ => none
  | .request run => match s.runs run with
    | some (.claimed _ location _) => some { s with log := .requested run location.id::s.log }
    | _ => none
  | .save run placeId details acknowledged => match s.runs run with
    | some (.claimed now location locations) => (s.locations.find location.id).map fun row =>
      { s.goOn run (if acknowledged then .looping now locations else .claimed now location locations) with
        locations := s.locations.put (refreshedRow now placeId details row) }
    | _ => none
  | .fail run errorMessage committed => match s.runs run with
    | some (.claimed now location locations) =>
      let stored := (s.locations.find location.id).filter fun _ => committed
      some { s.goOn run (.looping now locations) with
        locations := (stored.map fun row => s.locations.put (failedRow now errorMessage row)).getD s.locations }
    | _ => none
  | .finish run => match s.runs run with
    | some (.looping _ []) => some (s.goOn run .ended)
    | _ => none
  | .crash run => some (s.goOn run .ended)
  | .addLocation row =>
    if (s.locations.find row.id).isSome ∨ row.hoursLastCheckedAt.isSome then none else some { s with locations := s.locations.put row }
  | .setActive id isActive => (s.locations.find id).map fun row => { s with locations := s.locations.put { row with isActive } }

/-- A run takes its steps within seven days of its beginning. -/
def WithinWeek (s : PickupSystem ν) (a : PickupAction ν) : Prop :=
  ∀ now ∈ (a.run.bind s.runs).bind PickupRun.now, s.clock < now + currentHoursRefreshMs

instance (s : PickupSystem ν) (a : PickupAction ν) : Decidable (s.WithinWeek a) := inferInstanceAs (Decidable (∀ now ∈ _,_))

abbrev Reachable (clock : Int) (locations : Table (PickupHoursRow ν) fun row => row.id) : PickupSystem ν → Prop :=
  Transition.ReachableUnder (step H orderBy) WithinWeek (initial clock locations)

end Steps

/-- The run times of the claims of a location, newest first. -/
def claimsOf (id : String) (log : List PickupEvent) : List Int := log.filterMap fun
  | .claimed _ locationId now => if locationId = id then some now else none
  | .requested .. => none

variable {ν : Type} {H : HoursService} {orderBy : List (PickupHoursRow ν) → List (PickupHoursRow ν)}
  {s t : PickupSystem ν} {a : PickupAction ν}

/-- The last claim of a location is what its row shows. -/
def Shown (s : PickupSystem ν) (id : String) : Prop := ∀ now, (claimsOf id s.log).head? = some now →
  now ≤ s.clock ∧ ∃ row, s.locations.find id = some row ∧ row.hoursLastCheckedAt = some now

structure Spaced (s : PickupSystem ν) : Prop where
  begun : ∀ run r now, s.runs run = some r → r.now = some now → now ≤ s.clock
  shown : ∀ id, s.Shown id
  spaced : ∀ id, (claimsOf id s.log).Pairwise fun later earlier => earlier + currentHoursRefreshMs ≤ later
  claimed : ∀ run now location locations, s.runs run = some (.claimed now location locations) → .claimed run location.id now ∈ s.log
  asked : ∀ later run id earlier, s.log = later ++ .requested run id::earlier → ∃ now, .claimed run id now ∈ earlier

theorem mem_claimsOf {id : String} {run : Nat} {now : Int} {log : List PickupEvent} (mem : .claimed run id now ∈ log) :
    now ∈ claimsOf id log := List.mem_filterMap.mpr ⟨_,mem,if_pos rfl⟩

/-- A run that is still within its week made the last claim of the location that it has claimed. -/
theorem lastClaim (h : Spaced s) {run : Nat} {now : Int} {location : PickupHoursRow ν} {locations : List (PickupHoursRow ν)}
    (held : s.runs run = some (.claimed now location locations)) (timely : s.clock < now + currentHoursRefreshMs) :
    (claimsOf location.id s.log).head? = some now := by
  have mem := mem_claimsOf (h.claimed run now location locations held)
  have spaced := h.spaced location.id
  obtain ⟨newest,rest,is⟩ := List.exists_cons_of_ne_nil (List.ne_nil_of_mem mem)
  rw [is] at mem spaced ⊢
  rcases List.mem_cons.mp mem with rfl | older
  · rfl
  · have apart := (List.pairwise_cons.mp spaced).1 now older
    have past := (h.shown location.id newest (by rw [is]; rfl)).1
    omega

theorem Spaced.keep (h : Spaced s) {run : Nat} {r : PickupRun ν} {locations : Table (PickupHoursRow ν) fun row => row.id}
    (begun : ∀ now, r.now = some now → now ≤ s.clock)
    (own : ∀ now location rest, r = .claimed now location rest → .claimed run location.id now ∈ s.log)
    (shows : ∀ id, Shown { s with locations } id) :
    Spaced { s.goOn run r with locations } := by
  refine ⟨fun run' r' now is time => ?_,shows,h.spaced,fun run' now location rest is => ?_,h.asked⟩
  · simp only [goOn,Function.update_apply] at is
    split at is
    · cases is
      exact begun now time
    · exact h.begun run' r' now is time
  · simp only [goOn,Function.update_apply] at is
    split at is
    · rename_i same
      cases is
      exact same ▸ own now location rest rfl
    · exact h.claimed run' now location rest is

theorem Spaced.goOn (h : Spaced s) {run : Nat} {r : PickupRun ν} (begun : ∀ now, r.now = some now → now ≤ s.clock)
    (own : ∀ now location rest, r = .claimed now location rest → .claimed run location.id now ∈ s.log) : Spaced (s.goOn run r) :=
  h.keep begun own h.shown

theorem shownPut {row : PickupHoursRow ν} (h : Spaced s)
    (same : ∀ now, (claimsOf row.id s.log).head? = some now → row.hoursLastCheckedAt = some now) (id : String) :
    Shown { s with locations := s.locations.put row } id := by
  intro now last
  obtain ⟨past,old,found,checked⟩ := h.shown id now last
  refine ⟨past,?_⟩
  by_cases own : id = row.id
  · subst own
    exact ⟨row,find_put_self ..,same now last⟩
  · exact ⟨old,(find_put_other own).trans found,checked⟩

theorem shownRewritten (row : PickupHoursRow ν) {old : PickupHoursRow ν} (h : Spaced s) (found : s.locations.find row.id = some old)
    (kept : row.hoursLastCheckedAt = old.hoursLastCheckedAt) (id : String) : Shown { s with locations := s.locations.put row } id := by
  refine shownPut h (fun now last => ?_) id
  obtain ⟨-,other,found',checked⟩ := h.shown row.id now last
  cases Option.some.inj (found.symm.trans found')
  exact kept.trans checked

theorem claimSpaced (h : Spaced s) {run : Nat} {now : Int} {location row : PickupHoursRow ν} {locations : List (PickupHoursRow ν)}
    (begun : now ≤ s.clock) (due : recent now location = false) (row_ : s.claimable location = some row) :
    Spaced { s.goOn run (.claimed now location locations) with
      locations := s.locations.put (claimedRow now row)
      log := .claimed run location.id now::s.log } := by
  obtain ⟨found,matches_⟩ := Option.filter_eq_some_iff.mp row_
  have unchanged : row.hoursLastCheckedAt = location.hoursLastCheckedAt := by simpa using (Bool.and_eq_true_iff.mp matches_).2
  have own : row.id = location.id := find_key found
  have due_ : ∀ last, row.hoursLastCheckedAt = some last → last + currentHoursRefreshMs ≤ now := by
    intro last is
    rw [recent,← unchanged,is] at due
    have : ¬now - currentHoursRefreshMs < last := by simpa using due
    omega
  have older : ∀ last ∈ claimsOf location.id s.log, last + currentHoursRefreshMs ≤ now := by
    intro last mem
    obtain ⟨newest,rest,is⟩ := List.exists_cons_of_ne_nil (List.ne_nil_of_mem mem)
    obtain ⟨-,other,found',checked⟩ := h.shown location.id newest (by rw [is]; rfl)
    cases Option.some.inj (found.symm.trans found')
    have newest_ := due_ newest checked
    have spaced := h.spaced location.id
    rw [is] at mem spaced
    rcases List.mem_cons.mp mem with rfl | mem
    · exact newest_
    · have := (List.pairwise_cons.mp spaced).1 last mem
      have : (0 : Int) ≤ currentHoursRefreshMs := by decide
      omega
  have claims : ∀ id, claimsOf id (.claimed run location.id now::s.log) =
      if location.id = id then now::claimsOf id s.log else claimsOf id s.log := by
    intro id
    simp only [claimsOf,List.filterMap_cons]
    split <;> split <;> simp_all
  refine ⟨fun run' r' now' is time => ?_,fun id now' last => ?_,fun id => ?_,fun run' now' location' rest is => ?_,
    fun later run' id earlier is => ?_⟩
  · simp only [PickupSystem.goOn,Function.update_apply] at is
    split at is
    · cases is
      cases time
      exact begun
    · exact h.begun run' r' now' is time
  · rw [claims] at last
    by_cases same : location.id = id
    · subst same
      rw [if_pos rfl] at last
      cases last
      refine ⟨begun,claimedRow now row,?_,rfl⟩
      rw [← own]
      exact find_put_self (κ := String) ..
    · rw [if_neg same] at last
      obtain ⟨past,old,found',checked⟩ := h.shown id now' last
      have differ : id ≠ (claimedRow now row).id := fun is => same (own.symm.trans is.symm)
      exact ⟨past,old,(find_put_other differ).trans found',checked⟩
  · rw [claims]
    split
    · rename_i same
      subst same
      exact List.pairwise_cons.mpr ⟨older,h.spaced location.id⟩
    · exact h.spaced id
  · simp only [PickupSystem.goOn,Function.update_apply] at is
    split at is
    · rename_i same
      cases is
      exact same ▸ List.mem_cons_self
    · exact List.mem_cons_of_mem _ (h.claimed run' now' location' rest is)
  · cases later with
    | nil => cases is
    | cons e later =>
      obtain ⟨-,is⟩ := List.cons.inj is
      exact h.asked later run' id earlier is

theorem requestSpaced (h : Spaced s) {run : Nat} {now : Int} {location : PickupHoursRow ν} {locations : List (PickupHoursRow ν)}
    (held : s.runs run = some (.claimed now location locations)) :
    Spaced { s with log := .requested run location.id::s.log } := by
  refine ⟨h.begun,h.shown,h.spaced,fun run' now' location' rest is => List.mem_cons_of_mem _ (h.claimed run' now' location' rest is),
    fun later run' id earlier is => ?_⟩
  cases later with
  | nil =>
    cases is
    exact ⟨now,h.claimed run now location locations held⟩
  | cons e later =>
    obtain ⟨-,is⟩ := List.cons.inj is
    exact h.asked later run' id earlier is

theorem spacedStep (h : Spaced s) (timely : WithinWeek s a) (taken : step H orderBy s a = some t) : Spaced t := by
  cases a with
  | advance ms =>
    cases Option.some.inj taken
    have later : s.clock ≤ s.clock + ms := Int.le_add_of_nonneg_right (Int.natCast_nonneg ms)
    exact ⟨fun run r now is time => Int.le_trans (h.begun run r now is time) later,
      fun id now last => ⟨Int.le_trans (h.shown id now last).1 later,(h.shown id now last).2⟩,h.spaced,h.claimed,h.asked⟩
  | refresh run locationId =>
    simp only [step] at taken
    split at taken
    · contradiction
    · cases Option.some.inj taken
      exact h.goOn (fun now is => by cases is; exact Int.le_refl _) fun _ _ _ is => by cases is
  | list run =>
    simp only [step] at taken
    split at taken
    · rename_i now locationId held
      cases Option.some.inj taken
      exact h.goOn (fun now' is => by cases is; exact h.begun run _ _ held rfl) fun _ _ _ is => by cases is
    · contradiction
  | visit run =>
    simp only [step] at taken
    split at taken
    · rename_i now location locations held
      cases Option.some.inj taken
      have begun := h.begun run _ _ held rfl
      unfold visit
      split
      · exact h.goOn (fun now' is => by cases is; exact begun) fun _ _ _ is => by cases is
      · rename_i due
        split
        · exact h.goOn (fun now' is => by cases is; exact begun) fun _ _ _ is => by cases is
        · rename_i row found
          exact claimSpaced h begun (by simpa using due) found
    · contradiction
  | request run =>
    simp only [step] at taken
    split at taken
    · rename_i now location locations held
      cases Option.some.inj taken
      exact requestSpaced h held
    · contradiction
  | save run placeId details acknowledged =>
    simp only [step] at taken
    split at taken
    · rename_i now location locations held
      obtain ⟨row,found,rfl⟩ := Option.map_eq_some_iff.mp taken
      have begun := h.begun run _ _ held rfl
      have last := lastClaim h held (timely now (by simp [PickupAction.run,PickupRun.now,held]))
      refine h.keep (fun now' is => ?_) (fun now' location' rest is => ?_) (shownPut h fun now' last' => ?_)
      · split at is <;> cases is <;> exact begun
      · split at is
        · contradiction
        · cases is
          exact h.claimed run now location locations held
      · have own : (refreshedRow now placeId details row).id = location.id := (find_some found).2
        rw [own] at last'
        exact last.symm.trans last'
    · contradiction
  | fail run errorMessage committed =>
    simp only [step] at taken
    split at taken
    · rename_i now location locations held
      cases Option.some.inj taken
      have begun := h.begun run _ _ held rfl
      have last := lastClaim h held (timely now (by simp [PickupAction.run,PickupRun.now,held]))
      refine h.keep (fun now' is => by cases is; exact begun) (fun _ _ _ is => by cases is) fun id => ?_
      cases stored : (s.locations.find location.id).filter fun _ => committed with
      | none => exact h.shown id
      | some row =>
        have own : (failedRow now errorMessage row).id = location.id := (find_some (Option.filter_eq_some_iff.mp stored).1).2
        refine shownPut h (fun now' last' => ?_) id
        rw [own] at last'
        exact last.symm.trans last'
    · contradiction
  | finish run =>
    simp only [step] at taken
    split at taken
    · cases Option.some.inj taken
      exact h.goOn (fun _ is => by cases is) fun _ _ _ is => by cases is
    · contradiction
  | crash run =>
    cases Option.some.inj taken
    exact h.goOn (fun _ is => by cases is) fun _ _ _ is => by cases is
  | addLocation row =>
    simp only [step] at taken
    split at taken
    · contradiction
    · rename_i fresh
      cases Option.some.inj taken
      refine ⟨h.begun,shownPut h fun now last => ?_,h.spaced,h.claimed,h.asked⟩
      obtain ⟨-,old,found,-⟩ := h.shown row.id now last
      rw [found] at fresh
      simp at fresh
  | setActive id isActive =>
    obtain ⟨row,found,rfl⟩ := Option.map_eq_some_iff.mp taken
    have own : row.id = id := find_key found
    subst own
    exact ⟨h.begun,shownRewritten { row with isActive } h found rfl,h.spaced,h.claimed,h.asked⟩

theorem initiallySpaced (clock : Int) (locations : Table (PickupHoursRow ν) fun row => row.id) : Spaced (initial clock locations) where
  begun := fun _ _ _ is => by cases is
  shown := fun _ _ is => by cases is
  spaced := fun _ => List.Pairwise.nil
  claimed := fun _ _ _ _ is => by cases is
  asked := fun later _ _ _ is => by cases later <;> cases is

theorem spaced {clock : Int} {locations : Table (PickupHoursRow ν) fun row => row.id} (reached : Reachable H orderBy clock locations s) :
    Spaced s :=
  reached.invariant (initiallySpaced clock locations) fun _ _ _ h timely taken => spacedStep h timely taken

end PickupSystem

/-! ### Both caps -/

theorem hoursLookupsCapped (H : HoursService) :
    (∀ (first : Option String) (schedule : Option SavedBusinessHours) (s : ScheduleSystem), ScheduleSystem.Reachable H first schedule s →
      (s.claims ++ first.toList).Pairwise (· > ·) ∧ s.attempt = s.claims.head?.or first ∧
      s.requests.Nodup ∧ ∀ slot ∈ s.requests, slot ∈ s.claims) ∧
    ∀ (ν : Type) (orderBy : List (PickupHoursRow ν) → List (PickupHoursRow ν)) (clock : Int)
      (locations : Table (PickupHoursRow ν) fun row => row.id) (s : PickupSystem ν), PickupSystem.Reachable H orderBy clock locations s →
      (∀ id, (PickupSystem.claimsOf id s.log).Pairwise fun later earlier => earlier + currentHoursRefreshMs ≤ later) ∧
      ∀ later run id earlier, s.log = later ++ .requested run id::earlier → ∃ now, .claimed run id now ∈ earlier := by
  refine ⟨fun first schedule s reached => ?_,fun ν orderBy clock locations s reached => ?_⟩
  · have h := ScheduleSystem.capped reached
    exact ⟨h.rising,h.recorded,h.once,h.claimed⟩
  · have h := PickupSystem.spaced reached
    exact ⟨h.spaced,h.asked⟩

/-- The clock of the runtime is the one of the shop. -/
def sampleHours : HoursService := ⟨"key","place",fun _ => none,(· / 60000),fun _ => ""⟩

def lastAttempt (run : Nat) (now : Int) : List ScheduleAction := [.refresh run now,.readAttempt run,.claim run,.request run,.answer run none]

/-- Two instances whose clocks are an hour apart have both read that no slot is recorded. -/
def twoInstances : List ScheduleAction :=
  [ScheduleAction.refresh 0 36000000,.refresh 1 39600000,.readAttempt 0,.readAttempt 1,.claim 1,.claim 0,.request 1,.crash 1] ++ lastAttempt 2 122400000

def uncheckedStore : PickupHoursRow Unit := ⟨"lcbo",true,none,none,none,none,none,none,none,none⟩

def weekOfStore : List (PickupAction Unit) :=
  [.refresh 0 none,.list 0,.visit 0,.request 0,.fail 0 "No safe Google Places match found" true,.finish 0,.advance 518400000,
    .refresh 1 (some "lcbo"),.list 1,.visit 1,.finish 1,.advance 86400000,.refresh 2 none,.list 2,.visit 2,.request 2]

theorem hoursLookupsCappedWeek :
    (∃ s, ScheduleSystem.Reachable sampleHours none none s ∧ s.requests = ["1970-01-02","1970-01-01"] ∧
      s.claims.Pairwise (· > ·) ∧ s.requests.Nodup) ∧
    ∃ s, PickupSystem.Reachable sampleHours id 0 (Table.empty.put uncheckedStore) s ∧
      PickupSystem.claimsOf "lcbo" s.log = [604800000,0] ∧
      (PickupSystem.claimsOf "lcbo" s.log).Pairwise fun later earlier => earlier + currentHoursRefreshMs ≤ later := by
  constructor
  · have ends : (Transition.run (ScheduleSystem.step sampleHours) (ScheduleSystem.initial none none) twoInstances).map (·.requests) =
        some ["1970-01-02","1970-01-01"] := by decide +kernel
    obtain ⟨s,ran,requests⟩ := Option.map_eq_some_iff.mp ends
    have reached : ScheduleSystem.Reachable sampleHours none none s := Transition.runReachable .start ran
    obtain ⟨rising,-,once,-⟩ := (hoursLookupsCapped sampleHours).1 none none s reached
    exact ⟨s,reached,requests,by simpa using rising,once⟩
  · have ends : (Transition.run (PickupSystem.step sampleHours id) (PickupSystem.initial 0 (Table.empty.put uncheckedStore)) weekOfStore).map
        (fun s => PickupSystem.claimsOf "lcbo" s.log) = some [604800000,0] := by decide +kernel
    have allowed : Transition.AllowedRun (PickupSystem.step sampleHours id) PickupSystem.WithinWeek
        (PickupSystem.initial 0 (Table.empty.put uncheckedStore)) weekOfStore := by decide +kernel
    obtain ⟨s,ran,claims⟩ := Option.map_eq_some_iff.mp ends
    have reached : PickupSystem.Reachable sampleHours id 0 (Table.empty.put uncheckedStore) s :=
      Transition.runReachableUnder .start allowed ran
    exact ⟨s,reached,claims,((hoursLookupsCapped sampleHours).2 Unit id 0 _ s reached).1 "lcbo"⟩

end SpeedySweeties.Business
