import Mathlib.Logic.Function.Basic
import Mathlib.Logic.Relation
import SpeedySweeties.Library.Transition

/-! Transactions over one row under an exclusive row lock. A transaction waits,
reads the committed row once it holds the lock, works statement by statement on its
own copy, and ends in a commit or an abort. Whatever the interleaving, the committed
transactions ran one after the other. -/
namespace RowLock
variable {ρ κ ω : Type}

abbrev TransactionId := Nat

/-- How a transaction of each kind runs once it holds the lock. -/
structure Program (ρ κ ω : Type) where
  start : κ → ρ → ω
  next : ω → Option ω
  row : ω → ρ

def Program.Runs (P : Program ρ κ ω) : ω → ω → Prop :=
  Relation.ReflTransGen fun w later => P.next w = some later

structure State (ρ κ ω : Type) where
  row : ρ
  holder : Option (κ × ω)
  waiting : TransactionId → Option κ
  committed : List (κ × ω)

inductive Action (κ : Type) where
  | begin (t : TransactionId) (kind : κ)
  | acquire (t : TransactionId)
  | advance
  | commit
  | abort
  | withdraw (t : TransactionId)

def State.initial (row : ρ) : State ρ κ ω := ⟨row,none,fun _ => none,[]⟩

def State.step (P : Program ρ κ ω) (s : State ρ κ ω) : Action κ → Option (State ρ κ ω)
  | .begin t kind =>
    if (s.waiting t).isSome then none
    else some { s with waiting := Function.update s.waiting t (some kind) }
  | .acquire t => do
    let kind ← s.waiting t
    if s.holder.isSome then none
    else some { s with holder := some (kind,P.start kind s.row)
                       waiting := Function.update s.waiting t none }
  | .advance => do
    let (kind,w) ← s.holder
    let later ← P.next w
    some { s with holder := some (kind,later) }
  | .commit => do
    let (kind,w) ← s.holder
    if (P.next w).isSome then none
    else some { s with row := P.row w, holder := none, committed := s.committed ++ [(kind,w)] }
  | .abort => some { s with holder := none }
  | .withdraw t => some { s with waiting := Function.update s.waiting t none }

abbrev Reachable (P : Program ρ κ ω) (row : ρ) : State ρ κ ω → Prop :=
  Transition.Reachable (State.step P) (State.initial row)

/-- The listed transactions, each run to its end on the row the one before left. -/
inductive Serial (P : Program ρ κ ω) (first : ρ) : List (κ × ω) → ρ → Prop where
  | nil : Serial P first [] first
  | snoc {done row kind w} (before : Serial P first done row) (ran : P.Runs (P.start kind row) w)
      (ended : P.next w = none) : Serial P first (done ++ [(kind,w)]) (P.row w)

structure Isolated (P : Program ρ κ ω) (first : ρ) (s : State ρ κ ω) : Prop where
  serial : Serial P first s.committed s.row
  holding : ∀ kind w, s.holder = some (kind,w) → P.Runs (P.start kind s.row) w

theorem isolatedStep {P : Program ρ κ ω} {first s a t} (inv : Isolated P first s)
    (taken : State.step P s a = some t) : Isolated P first t := by
  cases a with
  | «begin» waiter kind =>
    simp only [State.step] at taken
    split at taken <;> try contradiction
    cases Option.some.inj taken
    exact ⟨inv.serial,inv.holding⟩
  | acquire waiter =>
    obtain ⟨kind,waited,taken⟩ := Option.bind_eq_some_iff.mp taken
    split at taken <;> try contradiction
    cases Option.some.inj taken
    refine ⟨inv.serial,?_⟩
    rintro _ _ ⟨⟩
    exact .refl
  | advance =>
    obtain ⟨⟨kind,w⟩,held,taken⟩ := Option.bind_eq_some_iff.mp taken
    obtain ⟨later,next,taken⟩ := Option.bind_eq_some_iff.mp taken
    cases Option.some.inj taken
    refine ⟨inv.serial,?_⟩
    rintro _ _ ⟨⟩
    exact (inv.holding kind w held).tail next
  | commit =>
    obtain ⟨⟨kind,w⟩,held,taken⟩ := Option.bind_eq_some_iff.mp taken
    dsimp only at taken
    split at taken <;> try contradiction
    rename_i ended
    cases Option.some.inj taken
    refine ⟨.snoc inv.serial (inv.holding kind w held) (by simpa using ended),?_⟩
    intro _ _ held
    contradiction
  | abort =>
    cases Option.some.inj taken
    exact ⟨inv.serial,fun _ _ held => by contradiction⟩
  | withdraw waiter => cases Option.some.inj taken; exact ⟨inv.serial,inv.holding⟩

theorem isolated {P : Program ρ κ ω} {first s} (reached : Reachable P first s) : Isolated P first s :=
  Transition.Reachable.invariant reached ⟨.nil,fun _ _ held => by contradiction⟩
    fun _ _ _ => isolatedStep

theorem Serial.invariant {P : Program ρ κ ω} {first log row} {I : List (κ × ω) → ρ → Prop}
    (serial : Serial P first log row) (initially : I [] first)
    (kept : ∀ done row kind w, I done row → P.Runs (P.start kind row) w → P.next w = none →
      I (done ++ [(kind,w)]) (P.row w)) : I log row := by
  induction serial with
  | nil => exact initially
  | snoc _ ran ended ih => exact kept _ _ _ _ ih ran ended

/-- What every finished transaction keeps, with the history it extends, holds of
the committed row of each reachable state. -/
theorem committedInvariant {P : Program ρ κ ω} {first s} {I : List (κ × ω) → ρ → Prop}
    (reached : Reachable P first s) (initially : I [] first)
    (kept : ∀ done row kind w, I done row → P.Runs (P.start kind row) w → P.next w = none →
      I (done ++ [(kind,w)]) (P.row w)) : I s.committed s.row :=
  (isolated reached).serial.invariant initially kept

end RowLock
