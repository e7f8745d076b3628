import Mathlib.Data.Finset.Card
import Mathlib.Data.Nat.Factorial.Basic
import Mathlib.Data.List.Nodup
import Mathlib.Algebra.BigOperators.Group.List.Basic
import Mathlib.Algebra.Order.BigOperators.Group.List
import Mathlib.Tactic.Ring

/-! All ways to put the items of a list in an order and to take one choice for each of them,
how many there are, and searches that visit them one after the other and give up early. -/
namespace Arrangements

variable {τ α β σ ρ : Type} [DecidableEq τ]

def arrangements (choices : τ → List α) : Nat → List τ → List (List (τ × α))
  | 0,_ => [[]]
  | n + 1,remaining => remaining.flatMap fun t =>
    (choices t).flatMap fun x => (arrangements choices n (remaining.filter (· ≠ t))).map ((t,x)::·)

variable {choices : τ → List α} {remaining : List τ} {n : Nat}

theorem othersPerm {t : τ} (once : remaining.Nodup) (mem : t ∈ remaining) : remaining.Perm (t::remaining.filter (· ≠ t)) := by
  refine (List.perm_ext_iff_of_nodup once ?_).mpr fun x => ?_
  · exact List.nodup_cons.mpr ⟨by simp,once.filter _⟩
  · by_cases same : x = t
    · simp [same,mem]
    · simp [same]

theorem othersLength {t : τ} (mem : t ∈ remaining) : (remaining.filter (· ≠ t)).length + 1 ≤ remaining.length := by
  have := List.length_filter_lt_length_iff_exists (p := fun x => decide (x ≠ t)).mpr ⟨t,mem,by simp⟩
  exact this

theorem memArrangements {picks : List (τ × α)} (once : remaining.Nodup) (fits : remaining.length = n) :
    picks ∈ arrangements choices n remaining ↔ (picks.map Prod.fst).Perm remaining ∧ ∀ p ∈ picks, p.2 ∈ choices p.1 := by
  induction n generalizing remaining picks with
  | zero =>
    obtain rfl := List.length_eq_zero_iff.mp fits
    simp only [arrangements,List.mem_singleton,List.perm_nil,List.map_eq_nil_iff]
    exact ⟨fun is => ⟨is,by simp [is]⟩,fun h => h.1⟩
  | succ n ih =>
    have rest : ∀ {t}, t ∈ remaining → (remaining.filter (· ≠ t)).length = n := fun {t} mem => by
      have := (othersPerm once mem).length_eq
      simp only [List.length_cons] at this
      omega
    simp only [arrangements,List.mem_flatMap,List.mem_map]
    constructor
    · rintro ⟨t,mem,x,choice,tail,among,rfl⟩
      obtain ⟨perm,each⟩ := (ih (once.filter _) (rest mem)).mp among
      refine ⟨(perm.cons t).trans (othersPerm once mem).symm,fun p in_ => ?_⟩
      rcases List.mem_cons.mp in_ with rfl | in_
      · exact choice
      · exact each p in_
    · rintro ⟨perm,each⟩
      cases picks with
      | nil => simp [← perm.length_eq] at fits
      | cons p tail =>
        have mem : p.1 ∈ remaining := perm.subset (by simp)
        refine ⟨p.1,mem,p.2,each p List.mem_cons_self,tail,?_,rfl⟩
        refine (ih (once.filter _) (rest mem)).mpr ⟨?_,fun q in_ => each q (List.mem_cons_of_mem _ in_)⟩
        exact (List.perm_cons p.1).mp (perm.trans (othersPerm once mem))

theorem arrangementsNodup (once : remaining.Nodup) (each : ∀ t, (choices t).Nodup) : (arrangements choices n remaining).Nodup := by
  induction n generalizing remaining with
  | zero => simp [arrangements]
  | succ n ih =>
    rw [arrangements,List.nodup_flatMap]
    refine ⟨fun t _ => List.nodup_flatMap.mpr ⟨fun x _ => (ih (once.filter _)).map (List.cons_injective),?_⟩,?_⟩
    · refine (each t).imp fun {x y} differ => ?_
      simp only [Function.onFun,List.disjoint_left,List.mem_map]
      rintro picks ⟨tail,_,rfl⟩ ⟨tail',_,same⟩
      exact differ (congrArg Prod.snd (List.cons.inj same).1).symm
    · refine List.Pairwise.imp (fun {t u} differ => ?_) once
      simp only [Function.onFun,List.disjoint_left,List.mem_flatMap,List.mem_map]
      rintro picks ⟨x,_,tail,_,rfl⟩ ⟨y,_,tail',_,same⟩
      exact differ (congrArg Prod.fst (List.cons.inj same).1).symm

theorem lengthArrangements {b : Nat} (most : ∀ t ∈ remaining, (choices t).length ≤ b) (fits : remaining.length ≤ n) :
    (arrangements choices n remaining).length ≤ n.factorial*b^n := by
  induction n generalizing remaining with
  | zero => simp [arrangements]
  | succ n ih =>
    have each : ∀ t ∈ remaining, ((choices t).flatMap fun x => (arrangements choices n (remaining.filter (· ≠ t))).map ((t,x)::·)).length ≤
        b*(n.factorial*b^n) := by
      intro t mem
      rw [List.length_flatMap]
      simp only [List.length_map,List.map_const',List.sum_replicate_nat]
      have fewer := othersLength mem
      exact Nat.mul_le_mul (most t mem) (ih (fun u in_ => most u (List.mem_of_mem_filter in_)) (by omega))
    calc (arrangements choices (n + 1) remaining).length
        = (remaining.map fun t => ((choices t).flatMap fun x =>
            (arrangements choices n (remaining.filter (· ≠ t))).map ((t,x)::·)).length).sum := List.length_flatMap
      _ ≤ (remaining.map fun _ => b*(n.factorial*b^n)).sum := List.sum_le_sum each
      _ = remaining.length*(b*(n.factorial*b^n)) := by simp
      _ ≤ (n + 1)*(b*(n.factorial*b^n)) := Nat.mul_le_mul_right _ fits
      _ = (n + 1).factorial*b^(n + 1) := by rw [Nat.factorial_succ,pow_succ]; ring

theorem arrangementsCongr {other : τ → List α} (same : ∀ t ∈ remaining, choices t = other t) :
    arrangements choices n remaining = arrangements other n remaining := by
  induction n generalizing remaining with
  | zero => rfl
  | succ n ih =>
    refine List.flatMap_congr fun t mem => ?_
    rw [same t mem,ih fun u among => same u (List.mem_of_mem_filter among)]

theorem mapArrangements (f : α → β) : arrangements (fun t => (choices t).map f) n remaining =
    (arrangements choices n remaining).map (List.map (Prod.map id f)) := by
  induction n generalizing remaining with
  | zero => rfl
  | succ n ih =>
    simp only [arrangements,List.map_flatMap,List.flatMap_map,ih,List.map_map]
    rfl

section Search
variable (advance : σ → τ → α → Option σ) (finish : σ → Option ρ)

/-- What one arrangement leads to, if no step of it fails. -/
def follow : σ → List (τ × α) → Option ρ
  | s,[] => finish s
  | s,(t,x)::picks => (advance s t x).bind (follow · picks)

theorem foldResults {κ γ : Type} {on : γ → ρ → γ} {step : Nat × γ → κ → Nat × γ} {results : κ → List ρ} (xs : List κ)
    (each : ∀ x ∈ xs, ∀ acc, step acc x = (acc.1 + (results x).length,(results x).foldl on acc.2)) (acc : Nat × γ) :
    xs.foldl step acc = (acc.1 + (xs.flatMap results).length,(xs.flatMap results).foldl on acc.2) := by
  induction xs generalizing acc with
  | nil => rfl
  | cons x xs ih =>
    rw [List.foldl_cons,each x List.mem_cons_self,ih fun y mem => each y (List.mem_cons_of_mem _ mem)]
    rw [List.flatMap_cons,List.length_append,List.foldl_append,Nat.add_assoc]

omit [DecidableEq τ] in
theorem followCons (s : σ) (t : τ) (x : α) (tails : List (List (τ × α))) :
    (tails.map ((t,x)::·)).filterMap (follow advance finish s) =
      match advance s t x with
      | none => []
      | some next => tails.filterMap (follow advance finish next) := by
  rw [List.filterMap_map]
  cases is : advance s t x with
  | none => exact List.filterMap_eq_nil_iff.mpr fun picks _ => by simp [follow,is]
  | some next => exact List.filterMap_congr fun picks _ => by simp [follow,is]

end Search
end Arrangements
