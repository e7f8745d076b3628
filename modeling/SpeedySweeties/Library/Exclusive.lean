import Mathlib.Logic.Function.Basic

/-! Requests in flight that share one lock, which a request keeps from the step it takes it
to its end. What a holder has learned can only be outdated by itself: `Ready` is what each
request relies on, `holds` tells which requests rely on what the lock guards. -/

structure Exclusive {κ ρ : Type} (holds : ρ → Bool) (Ready : ρ → Prop) (requests : κ → Option ρ) (lock : Option κ) :
    Prop where
  ready : ∀ x r, requests x = some r → Ready r
  locked : ∀ x r, requests x = some r → holds r = true → lock = some x

namespace Exclusive
variable {κ ρ : Type} {holds : ρ → Bool} {Ready Later : ρ → Prop} {requests : κ → Option ρ} {lock : Option κ}
  {x : κ} {r : ρ}

theorem initial : Exclusive holds Ready (fun _ : κ => none) none := ⟨nofun,nofun⟩

theorem unheld (h : Exclusive holds Ready requests lock) (free : lock = none) (request : requests x = some r) :
    holds r = false := by
  cases held : holds r with
  | false => rfl
  | true =>
    have owner := h.locked x r request held
    rw [free] at owner
    contradiction

theorem mono (h : Exclusive holds Ready requests lock) (weaker : ∀ r, Ready r → Later r) :
    Exclusive holds Later requests lock :=
  ⟨fun x r request => weaker r (h.ready x r request),h.locked⟩

/-- What the lock guards changes while nobody holds it. -/
theorem rewrite (h : Exclusive holds Ready requests lock) (free : lock = none)
    (unlocked : ∀ r, holds r = false → Ready r → Later r) : Exclusive holds Later requests lock :=
  ⟨fun x r request => unlocked r (h.unheld free request) (h.ready x r request),h.locked⟩

variable [DecidableEq κ]

theorem await (h : Exclusive holds Ready requests lock) (ready : Ready r) (locked : holds r = true → lock = some x) :
    Exclusive holds Ready (Function.update requests x (some r)) lock := by
  refine ⟨fun y q request => ?_,fun y q request held => ?_⟩
  · rw [Function.update_apply] at request
    split at request
    · cases request
      exact ready
    · exact h.ready y q request
  · rw [Function.update_apply] at request
    split at request
    · rename_i same
      cases request
      exact same ▸ locked held
    · exact h.locked y q request held

/-- Whoever takes the lock finds no other holder. -/
theorem take (h : Exclusive holds Ready requests lock) (free : lock = none) (ready : Ready r) :
    Exclusive holds Ready (Function.update requests x (some r)) (some x) := by
  refine ⟨fun y q request => ?_,fun y q request held => ?_⟩
  · rw [Function.update_apply] at request
    split at request
    · cases request
      exact ready
    · exact h.ready y q request
  · rw [Function.update_apply] at request
    split at request
    · rename_i same
      exact congrArg some same.symm
    · have unheld := h.unheld free request
      rw [held] at unheld
      contradiction

theorem close (h : Exclusive holds Ready requests lock) :
    Exclusive holds Ready (Function.update requests x none) (if lock = some x then none else lock) := by
  refine ⟨fun y q request => ?_,fun y q request held => ?_⟩
  · rw [Function.update_apply] at request
    split at request
    · contradiction
    · exact h.ready y q request
  · rw [Function.update_apply] at request
    split at request
    · contradiction
    · rename_i differ
      rw [h.locked y q request held,if_neg (by simpa using differ)]

/-- The only possible holder rewrites what the lock guards, and ends. -/
theorem commit (h : Exclusive holds Ready requests lock) (owner : ∀ y, lock = some y → y = x)
    (unlocked : ∀ r, holds r = false → Ready r → Later r) :
    Exclusive holds Later (Function.update requests x none) (if lock = some x then none else lock) := by
  have others (y : κ) (q : ρ) (request : requests y = some q) (differ : y ≠ x) : holds q = false := by
    cases held : holds q with
    | false => rfl
    | true => exact absurd (owner y (h.locked y q request held)) differ
  refine ⟨fun y q request => ?_,h.close.locked⟩
  rw [Function.update_apply] at request
  split at request
  · contradiction
  · rename_i differ
    exact unlocked q (others y q request differ) (h.ready y q request)

theorem commitLocked (h : Exclusive holds Ready requests lock) (request : requests x = some r) (held : holds r = true)
    (unlocked : ∀ r, holds r = false → Ready r → Later r) :
    Exclusive holds Later (Function.update requests x none) (if lock = some x then none else lock) :=
  h.commit (fun _ owner => Option.some.inj (owner.symm.trans (h.locked x r request held))) unlocked

end Exclusive
