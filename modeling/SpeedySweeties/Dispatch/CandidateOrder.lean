import Mathlib.Data.List.Pairwise
import Mathlib.Order.WithBot
import SpeedySweeties.Dispatch.Allocation
import SpeedySweeties.Library.Ranking

/-! The comparison of two allocation candidates is lexicographic: the duration, the distance
with the unknown ones last, the identity. On candidates that it tells apart it is a strict
total order, so the first candidate of the sorted list is the least one of any arrangement. -/
namespace SpeedySweeties
open Ranking

/-- A route of unknown length is longer than every other. -/
def AllocationCandidate.distance (c : AllocationCandidate) : WithTop Rat := c.routeDistanceMeters.elim ⊤ fun d => (d : WithTop Rat)

variable (T : AllocationService)

def Precedes (a b : AllocationCandidate) : Prop :=
  a.routeDurationSeconds < b.routeDurationSeconds ∨ (a.routeDurationSeconds = b.routeDurationSeconds ∧
    (a.distance < b.distance ∨ (a.distance = b.distance ∧ compareDriverIdentity T a.driver b.driver = .lt)))

def byDistance : AllocationCandidate → AllocationCandidate → Ordering := missingLast (byValue id) AllocationCandidate.routeDistanceMeters

def byIdentity (a b : AllocationCandidate) : Ordering := compareDriverIdentity T a.driver b.driver

variable {T}

theorem compareValue (x y : Rat) : compare x y = byValue id x y := by
  rcases lt_trichotomy x y with less | same | more
  · rw [byValueLt.mpr less,compare_lt_iff_lt.mpr less]
  · rw [byValueEq.mpr same,compare_eq_iff_eq.mpr same]
  · rw [compare_gt_iff_gt.mpr more,Std.OrientedCmp.gt_of_lt (byValueLt.mpr more)]

instance [Std.TransCmp T.localeCompare] : Std.TransCmp (compareDriverIdentity T) :=
  inferInstanceAs (Std.TransCmp (thenBy (fun a b => T.localeCompare (driverName a) (driverName b))
    (thenBy (fun a b => T.localeCompare a.email b.email) fun a b => T.localeCompare a.id b.id)))

instance : Std.TransCmp byDistance := inferInstanceAs (Std.TransCmp (missingLast _ _))

instance [Std.TransCmp T.localeCompare] : Std.TransCmp (byIdentity T) :=
  inferInstanceAs (Std.TransCmp fun a b : AllocationCandidate => compareDriverIdentity T a.driver b.driver)

theorem compareCandidatesKeys : compareCandidates T = thenBy (byValue (·.routeDurationSeconds)) (thenBy byDistance (byIdentity T)) := by
  funext a b
  rw [compareCandidates,thenBy,thenBy,byDistance,missingLast,byIdentity]
  by_cases same : a.routeDurationSeconds = b.routeDurationSeconds
  · rw [if_neg (not_not.mpr same),byValueEq.mpr same,Ordering.eq_then]
    cases a.routeDistanceMeters <;> cases b.routeDistanceMeters
    case some.some x y =>
      by_cases equal : x = y
      · simp [equal,byValueEq.mpr]
      · have other : compare x y ≠ .eq := fun is => equal (compare_eq_iff_eq.mp is)
        simp only [ne_eq,equal,not_false_eq_true,if_true,← compareValue]
        cases order : compare x y <;> first | rfl | exact absurd order other
    all_goals rfl
  · rw [if_pos same]
    have other : compare a.routeDurationSeconds b.routeDurationSeconds ≠ .eq := fun is => same (compare_eq_iff_eq.mp is)
    have value : byValue (·.routeDurationSeconds) a b = compare a.routeDurationSeconds b.routeDurationSeconds :=
      (compareValue _ _).symm
    rw [value]
    cases order : compare a.routeDurationSeconds b.routeDurationSeconds <;> first | rfl | exact absurd order other

instance [Std.TransCmp T.localeCompare] : Std.TransCmp (compareCandidates T) :=
  compareCandidatesKeys (T := T) ▸ inferInstanceAs (Std.TransCmp (thenBy _ (thenBy _ _)))

theorem byDistanceLt {a b : AllocationCandidate} : byDistance a b = .lt ↔ a.distance < b.distance := by
  rw [byDistance,missingLast,AllocationCandidate.distance,AllocationCandidate.distance]
  cases a.routeDistanceMeters <;> cases b.routeDistanceMeters
  case some.some => simp [byValueLt]
  all_goals simp

theorem byDistanceEq {a b : AllocationCandidate} : byDistance a b = .eq ↔ a.distance = b.distance := by
  rw [byDistance,missingLast,AllocationCandidate.distance,AllocationCandidate.distance]
  cases a.routeDistanceMeters <;> cases b.routeDistanceMeters
  case some.some => simp [byValueEq]
  all_goals simp

theorem compareCandidatesLt {a b : AllocationCandidate} : compareCandidates T a b = .lt ↔ Precedes T a b := by
  rw [compareCandidatesKeys,thenByLt,thenByLt,byValueLt,byValueEq,byDistanceLt,byDistanceEq]
  exact Iff.rfl

theorem selectRanked (candidates : List AllocationCandidate) :
    selectAutoDispatchAllocationCandidate T candidates = (ranked (compareCandidates T) candidates).head? := by
  have relation : (fun a b => compareCandidates T a b ≠ .gt) = fun a b => (compareCandidates T a b).isLE = true := by
    funext a b
    cases compareCandidates T a b <;> simp
  unfold selectAutoDispatchAllocationCandidate ranked
  congr!

/-- The candidates differ in their drivers' names, addresses or ids, as these compare. -/
def DistinctIdentities (T : AllocationService) (candidates : List AllocationCandidate) : Prop :=
  candidates.Pairwise fun a b => compareDriverIdentity T a.driver b.driver ≠ .eq

theorem DistinctIdentities.separates [Std.TransCmp T.localeCompare] {candidates : List AllocationCandidate}
    (distinct : DistinctIdentities T candidates) : Separates (compareCandidates T) candidates := by
  intro a left b right same
  by_contra differ
  rw [compareCandidatesKeys] at same
  have identity : compareDriverIdentity T a.driver b.driver = .eq := (thenByEq (thenByEq same).2).2
  have symmetric : Std.Symm fun a b : AllocationCandidate => compareDriverIdentity T a.driver b.driver ≠ .eq :=
    ⟨fun c d far is => far (Std.OrientedCmp.eq_symm is)⟩
  exact List.Pairwise.forall distinct left right differ identity

/-- `localeCompare` is a consistent comparison, which need not tell all texts apart. -/
theorem selectsLeast [Std.TransCmp T.localeCompare] {candidates : List AllocationCandidate} (some_ : candidates ≠ [])
    (distinct : DistinctIdentities T candidates) :
    (∀ a b, compareCandidates T a b = .lt ↔ Precedes T a b) ∧ StrictTotal (compareCandidates T) candidates ∧
      ∃ c, selectAutoDispatchAllocationCandidate T candidates = some c ∧ c ∈ candidates ∧
        (∀ d ∈ candidates, d ≠ c → Precedes T c d) ∧
        (∀ least ∈ candidates, (∀ d ∈ candidates, d ≠ least → Precedes T least d) → least = c) ∧
        ∀ others, others.Perm candidates → selectAutoDispatchAllocationCandidate T others = some c := by
  have separates := distinct.separates
  obtain ⟨c,first,least⟩ := rankedLeast separates some_
  have selected : selectAutoDispatchAllocationCandidate T candidates = some c := (selectRanked candidates).trans first
  refine ⟨fun a b => compareCandidatesLt,strictTotal separates,c,selected,least.1,
    fun d mem differ => compareCandidatesLt.mp (least.2 d mem differ),fun other mem before => ?_,fun others perm => ?_⟩
  · have otherLeast : Least (compareCandidates T) candidates other := ⟨mem,fun d here differ => compareCandidatesLt.mpr (before d here differ)⟩
    exact otherLeast.unique least
  · rw [selectRanked,← rankedCanonical separates perm.symm]
    exact first

instance : Std.TransCmp sampleAllocation.localeCompare := inferInstanceAs (Std.TransCmp (compare : String → String → Ordering))

def sampleCandidate (id email : String) (firstName : Option String) (seconds : Rat) (meters : Option Rat) : AllocationCandidate :=
  ⟨registeredUser id email "hash" .driver firstName none,seconds,meters⟩

/-- Equal durations with and without a distance, equal distances, equal names. -/
def mixedCandidates : List AllocationCandidate :=
  [sampleCandidate "d1" "a@x" none 600 none,sampleCandidate "d2" "b@x" (some "Ann") 600 none,sampleCandidate "d3" "b@x" (some "Bob") 600 (some 4000),
    sampleCandidate "d4" "a@x" (some "Bob") 600 (some 4000),sampleCandidate "d5" "c@x" none 601 (some 10)]

theorem mixedSelected : (selectAutoDispatchAllocationCandidate sampleAllocation mixedCandidates).map (·.driver.id) = some "d4" ∧
    selectAutoDispatchAllocationCandidate sampleAllocation mixedCandidates.reverse =
      selectAutoDispatchAllocationCandidate sampleAllocation mixedCandidates := by
  have distinct : DistinctIdentities sampleAllocation mixedCandidates := by
    unfold DistinctIdentities
    decide +kernel
  obtain ⟨-,-,c,selected,-,-,-,anyOrder⟩ := selectsLeast (by decide) distinct
  exact ⟨by decide +kernel,(anyOrder _ (List.reverse_perm _)).trans selected.symm⟩

end SpeedySweeties
