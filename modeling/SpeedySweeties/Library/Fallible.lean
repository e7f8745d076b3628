import Mathlib.Data.List.Induction

/-! Computations that may fail. A run of two of them succeeds when each one does. -/
section
variable {ε α β : Type}

theorem bindOk {x : Except ε α} {f : α → Except ε β} {b : β} : (x >>= f) = .ok b ↔ ∃ a, x = .ok a ∧ f a = .ok b := by
  cases x <;> simp [bind,Except.bind]

theorem pureOk {a b : α} : (pure a : Except ε α) = .ok b ↔ a = b := by
  simp [pure,Except.pure]

theorem mapOk {f : α → Except ε β} {g : α → β} {xs : List α} (ok : ∀ x ∈ xs, f x = .ok (g x)) : xs.mapM f = .ok (xs.map g) := by
  induction xs with
  | nil => rfl
  | cons x xs ih =>
    rw [List.mapM_cons,ok x List.mem_cons_self,ih fun y mem => ok y (List.mem_cons_of_mem _ mem)]
    rfl

theorem forMOk {f : α → Except ε Unit} {xs : List α} {u : Unit} : xs.forM f = .ok u ↔ ∀ x ∈ xs, f x = .ok () := by
  induction xs with
  | nil => simp [List.forM,pure,Except.pure]
  | cons x xs ih =>
    rw [List.forM,bindOk,List.forall_mem_cons,← ih]
    constructor
    · rintro ⟨_,head,rest⟩
      exact ⟨head,rest⟩
    · rintro ⟨head,rest⟩
      exact ⟨(),head,rest⟩

/-- What every step of a fold that succeeds preserves, with the inputs it has consumed. -/
theorem foldOk {P : List α → β → Prop} {f : β → α → Except ε β} {xs : List α} {first last : β}
    (ran : xs.foldlM f first = .ok last) (start : P [] first)
    (next : ∀ done x rest b c, xs = done ++ x::rest → P done b → f b x = .ok c → P (done ++ [x]) c) : P xs last := by
  induction xs using List.reverseRecOn generalizing last with
  | nil => exact pureOk.mp ran ▸ start
  | append_singleton xs x ih =>
    rw [List.foldlM_append] at ran
    obtain ⟨b,before,ran⟩ := bindOk.mp ran
    rw [List.foldlM_cons] at ran
    obtain ⟨c,taken,done⟩ := bindOk.mp ran
    obtain rfl := pureOk.mp done
    refine next xs x [] b c rfl (ih before fun done y rest b c split => ?_) taken
    exact next done y (rest ++ [x]) b c (by simp [split])

end
