import SpeedySweeties.Order.Steps

/-! The ghost counters of an order's changes. As long as a column's counter stands
where a request read it, the row still has the value the request read. -/
namespace SpeedySweeties

/-- A column of the order row with the counter of its changes. -/
structure Counter (β : Type) where
  field : Order → β
  count : Changes → Nat
  grows : ∀ {c before after}, count c ≤ count (c.count before after)
  kept : ∀ {c before after}, count (c.count before after) = count c → field after = field before

def driverCounter : Counter (Option UserId) where
  field o := o.assignedDriverId
  count := Changes.driver
  grows := by intro c before after; unfold Changes.count; dsimp only; split <;> omega
  kept := by
    intro c before after same
    by_contra different
    simp [Changes.count,different] at same

def customerCounter : Counter (Option CustomerId) where
  field o := o.customerId
  count := Changes.customer
  grows := by intro c before after; unfold Changes.count; dsimp only; split <;> omega
  kept := by
    intro c before after same
    by_contra different
    simp [Changes.count,different] at same

variable {β : Type} {k : Counter β}

structure CountedRead (k : Counter β) (s : System) (p : Pending) : Prop where
  counted : k.count p.changes ≤ k.count (s.changes p.id)
  unchanged : ∀ read, p.order = some read → k.count (s.changes p.id) = k.count p.changes →
    ∀ o, s.orders p.id = some o → k.field o = k.field read
  present : ∀ read, p.order = some read → ∃ o, s.orders p.id = some o

theorem storedChanges {row : Option Order} {before after : Order} {changes : Changes}
    (here : row = some before) :
    k.count changes ≤ k.count (changes.count before after) ∧ ∀ o, row = some o → ∃ o', some after = some o' ∧
      (k.count (changes.count before after) = k.count changes → k.field o' = k.field o) := by
  refine ⟨k.grows,fun o there => ⟨after,rfl,fun same => ?_⟩⟩
  cases Option.some.inj (here.symm.trans there)
  exact k.kept same

theorem changesStep {s a id r} (k : Counter β) (step : RecordStep s a id r) :
    k.count (s.changes id) ≤ k.count r.changes ∧
    ∀ o, s.orders id = some o → ∃ o', r.order = some o' ∧
      (k.count r.changes = k.count (s.changes id) → k.field o' = k.field o) := by
  cases step with
  | same | locked | released | receiptSaved => exact ⟨le_rfl,fun o row => ⟨o,row,fun _ => rfl⟩⟩
  | created absent => exact ⟨le_rfl,fun o row => by simp [absent] at row⟩
  | written _ _ _ _ _ row => exact storedChanges row
  | allocated _ row => exact storedChanges row
  | receiptStored _ row => exact storedChanges row
  | edited row => exact storedChanges row
  | prioritized row => exact storedChanges row
  | erased row => exact storedChanges row

theorem CountedRead.mono {s a t p} (h : CountedRead k s p) (taken : System.step s a = some t) :
    CountedRead k t p := by
  obtain ⟨grows,rows⟩ := changesStep k (recordStep taken p.id)
  have grows : k.count (s.changes p.id) ≤ k.count (t.changes p.id) := grows
  refine ⟨h.counted.trans grows,?_,?_⟩
  · intro read was same o' row'
    obtain ⟨o,row⟩ := h.present read was
    obtain ⟨after,row'',keeps⟩ := rows o row
    cases Option.some.inj (row'.symm.trans row'')
    have still : k.count (s.changes p.id) = k.count p.changes := le_antisymm (same ▸ grows) h.counted
    exact (keeps (same.trans still.symm)).trans (h.unchanged read was still o row)
  · intro read was
    obtain ⟨o,row⟩ := h.present read was
    obtain ⟨after,row',_⟩ := rows o row
    exact ⟨after,row'⟩

theorem countedReads (k : Counter β) {start s} (reached : System.Reachable start s) :
    ∀ request p, s.pending request = some p → CountedRead k s p := by
  refine Transition.Reachable.invariant (I := fun s => ∀ request p, s.pending request = some p →
    CountedRead k s p) reached ?_ ?_
  · intro request p sent; contradiction
  · intro s a t inv taken request p sent
    cases pendingStep taken sent with
    | kept before => exact (inv _ _ before).mono taken
    | @read id handler =>
      refine CountedRead.mono ⟨le_rfl,?_,?_⟩ taken
      · intro read was _ o row
        cases Option.some.inj (was.symm.trans row); rfl
      · exact fun read was => ⟨read,was⟩
    | receiptRead before =>
      have old := (inv _ _ before).mono taken
      exact ⟨old.counted,old.unchanged,old.present⟩
    | decided before =>
      have old := (inv _ _ before).mono taken
      exact ⟨old.counted,old.unchanged,old.present⟩

end SpeedySweeties
