import Mathlib.Logic.Function.Basic

/-! A write-ahead journal over keyed records, as a specification. A decision is
first intended in the journal, then published to the records, and the intent is
settled or revoked according to which of the two the records show. -/
namespace WriteAhead
variable {κ ρ : Type} [DecidableEq κ]

structure Decision (κ ρ : Type) where
  key : κ
  value : ρ

def Decision.apply (d : Decision κ ρ) (records : κ → Option ρ) : κ → Option ρ :=
  Function.update records d.key (some d.value)

theorem Decision.applyApply (d : Decision κ ρ) (records : κ → Option ρ) :
    d.apply (d.apply records) = d.apply records := Function.update_idem ..

theorem Decision.applySame (d : Decision κ ρ) {records : κ → Option ρ}
    (shown : records d.key = some d.value) : d.apply records = records := by
  rw [apply,← shown]
  exact Function.update_eq_self ..

structure State (κ ρ : Type) where
  /-- What the settled entries of the journal decided. -/
  decided : κ → Option ρ
  /-- The intent that ends the journal, when nothing has settled it. -/
  pending : Option (Decision κ ρ)
  records : κ → Option ρ

inductive Step (s : State κ ρ) : State κ ρ → Prop where
  | stay : Step s s
  | intend (d : Decision κ ρ) (idle : s.pending = none) : Step s { s with pending := some d }
  | publish (d : Decision κ ρ) (intended : s.pending = some d) :
      Step s { s with records := d.apply s.records }
  | settle (d : Decision κ ρ) (intended : s.pending = some d)
      (shown : s.records = d.apply s.decided) :
      Step s { s with decided := d.apply s.decided, pending := none }
  | revoke (d : Decision κ ρ) (intended : s.pending = some d) (shown : s.records = s.decided) :
      Step s { s with pending := none }

/-- The records are what was decided, or what the pending intent makes of it. -/
def State.Consistent (s : State κ ρ) : Prop :=
  s.records = s.decided ∨ ∃ d, s.pending = some d ∧ s.records = d.apply s.decided

theorem State.Consistent.idle {s : State κ ρ} (h : s.Consistent) (idle : s.pending = none) :
    s.records = s.decided := by
  rcases h with same | ⟨d,intended,_⟩
  · exact same
  · simp [idle] at intended

theorem Step.consistent {s t : State κ ρ} (h : s.Consistent) (step : Step s t) : t.Consistent := by
  cases step with
  | stay => exact h
  | intend d idle => exact .inl (h.idle idle)
  | publish d intended =>
    refine .inr ⟨d,intended,?_⟩
    rcases h with same | ⟨d',intended',shown⟩
    · exact congrArg d.apply same
    · obtain rfl : d' = d := Option.some.inj (intended'.symm.trans intended)
      exact (congrArg d'.apply shown).trans (d'.applyApply _)
  | settle d intended shown => exact .inl shown
  | revoke d intended shown => exact .inl shown

theorem Step.published {s t : State κ ρ} (step : Step s t) (changed : t.records ≠ s.records) :
    ∃ d, s.pending = some d ∧ t.records = d.apply s.records := by
  cases step with
  | publish d intended => exact ⟨d,intended,rfl⟩
  | stay | intend | settle | revoke => exact absurd rfl changed

theorem Step.refused {s t : State κ ρ} {d : Decision κ ρ} (intended : s.pending = some d)
    (step : Step s t) : t.pending = some d ∨ t.pending = none := by
  cases step with
  | stay => exact .inl intended
  | intend _ idle => simp [idle] at intended
  | publish => exact .inl intended
  | settle | revoke => exact .inr rfl

end WriteAhead
