import SpeedySweeties.Library.Table

/-! Fencing by version. A holder has taken version `v` of a row whose version only grows:
the row is still at `v`, where `P` holds of it, or the holder is fenced off for good. -/
namespace Table
variable {ρ κ : Type} {key : ρ → κ} [DecidableEq κ] {version : ρ → Nat} {t : Table ρ key} {k : κ} {v : Nat}
  {P Q : ρ → Prop} {old row : ρ}

def Fenced (version : ρ → Nat) (t : Table ρ key) (k : κ) (v : Nat) (P : ρ → Prop) : Prop :=
  ∃ row, t.find k = some row ∧ v ≤ version row ∧ (v = version row → P row)

namespace Fenced

theorem of_find (found : t.find k = some row) (holds : P row) : Fenced version t k (version row) P :=
  ⟨row,found,Nat.le_refl _,fun _ => holds⟩

theorem current (h : Fenced version t k v P) (found : t.find k = some row) (same : v = version row) : P row := by
  obtain ⟨other,here,_,holds⟩ := h
  cases Option.some.inj (found.symm.trans here)
  exact holds same

theorem mono (h : Fenced version t k v P) (weaker : ∀ row, t.find k = some row → P row → Q row) :
    Fenced version t k v Q := by
  obtain ⟨row,found,up,holds⟩ := h
  exact ⟨row,found,up,fun same => weaker row found (holds same)⟩

/-- A write keeps the fence: at the same version it must lead from `P` to `Q`, at a later
one nothing is asked of the row. -/
theorem put (h : Fenced version t k v P) (found : t.find (key row) = some old) (up : version old ≤ version row)
    (here : key row = k → version row = version old → P old → Q row)
    (there : key row ≠ k → ∀ other, P other → Q other) : Fenced version (t.put row) k v Q := by
  obtain ⟨other,now,behind,holds⟩ := h
  by_cases mine : key row = k
  · cases Option.some.inj (found.symm.trans (mine ▸ now))
    refine ⟨row,mine ▸ find_put_self t row,Nat.le_trans behind up,fun same => ?_⟩
    have still : version row = version old := Nat.le_antisymm (same ▸ behind) up
    exact here mine still (holds (same.trans still))
  · exact ⟨other,(find_put_other fun same => mine same.symm).trans now,behind,
      fun same => there mine other (holds same)⟩

theorem insert (h : Fenced version t k v P) (fresh : t.find (key row) = none) :
    Fenced version (t.put row) k v P := by
  obtain ⟨other,here,behind,holds⟩ := h
  refine ⟨other,(find_put_other fun same => ?_).trans here,behind,holds⟩
  rw [same,fresh] at here
  contradiction

theorem outdated : Fenced version t k v (fun _ => False) ↔ ∃ row, t.find k = some row ∧ v < version row :=
  ⟨fun ⟨row,found,behind,now⟩ => ⟨row,found,Nat.lt_of_le_of_ne behind now⟩,
    fun ⟨row,found,behind⟩ => ⟨row,found,Nat.le_of_lt behind,Nat.ne_of_lt behind⟩⟩

end Fenced
end Table
