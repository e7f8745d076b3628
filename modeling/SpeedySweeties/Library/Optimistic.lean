import SpeedySweeties.Library.Transition

/-! Optimistic updates of one cell by any number of calls. A call reads the cell and answers, or computes what the cell shall hold
next and writes it where the cell still holds what was read. A statement of the store may fail, and then has no effect. The commits
are only recorded, never read. -/
namespace Optimistic

/-- What a call makes of the cell it reads is an answer, or a value to put there with the answer after it is written. -/
structure Program (τ ν κ ι ω : Type) where
  decide : κ → ι → τ → ω ⊕ (ν × ω)
  put : ν → τ
  write : τ → τ → ν → Option τ
  conflict : ω
  failed : ω

inductive Phase (τ ν ι ω : Type) where
  | waiting
  | writing (input : ι) (read : τ) (value : ν) (answer : ω)
  | answered (answer : ω)

structure Call (τ ν κ ι ω : Type) where
  request : κ
  phase : Phase τ ν ι ω

/-- A write, with the cell that it has replaced. -/
structure Commit (τ ν κ ι : Type) where
  call : Nat
  request : κ
  input : ι
  before : τ
  value : ν

/-- The newest commit first. -/
structure State (τ ν κ ι ω : Type) where
  cell : τ
  calls : List (Call τ ν κ ι ω)
  commits : List (Commit τ ν κ ι)

inductive Action (κ ι : Type) where
  | call (request : κ)
  | read (n : Nat) (input : ι)
  | write (n : Nat)
  | fail (n : Nat)

variable {τ ν κ ι ω : Type}

def State.initial (first : τ) : State τ ν κ ι ω := ⟨first,[],[]⟩

def State.setPhase (s : State τ ν κ ι ω) (n : Nat) (call : Call τ ν κ ι ω) (phase : Phase τ ν ι ω) : State τ ν κ ι ω :=
  { s with calls := s.calls.set n ⟨call.request,phase⟩ }

def step (P : Program τ ν κ ι ω) (s : State τ ν κ ι ω) : Action κ ι → Option (State τ ν κ ι ω)
  | .call request => some { s with calls := s.calls ++ [⟨request,.waiting⟩] }
  | .read n input => do
    let call ← s.calls[n]?
    match call.phase with
    | .waiting =>
      match P.decide call.request input s.cell with
      | .inl answer => some (s.setPhase n call (.answered answer))
      | .inr (value,answer) => some (s.setPhase n call (.writing input s.cell value answer))
    | _ => none
  | .write n => do
    let call ← s.calls[n]?
    match call.phase with
    | .writing input read value answer =>
      match P.write s.cell read value with
      | some cell =>
        some ⟨cell,(s.setPhase n call (.answered answer)).calls,⟨n,call.request,input,s.cell,value⟩::s.commits⟩
      | none => some (s.setPhase n call (.answered P.conflict))
    | _ => none
  | .fail n => do
    let call ← s.calls[n]?
    match call.phase with
    | .answered _ => none
    | _ => some (s.setPhase n call (.answered P.failed))

/-- The calls that are made are of the requests in question. -/
def Allowed (Valid : κ → Prop) (_ : State τ ν κ ι ω) : Action κ ι → Prop
  | .call request => Valid request
  | _ => True

abbrev Reachable (P : Program τ ν κ ι ω) (Valid : κ → Prop) (first : τ) : State τ ν κ ι ω → Prop :=
  Transition.ReachableUnder (step P) (Allowed Valid) (.initial first)

/-- Each commit is what its request decides on the cell that the commits before it have left. -/
inductive Serial (P : Program τ ν κ ι ω) (Valid : κ → Prop) (first : τ) : List (Commit τ ν κ ι) → τ → Prop
  | none : Serial P Valid first [] first
  | commit {log} {c : Commit τ ν κ ι} (earlier : Serial P Valid first log c.before) (valid : Valid c.request) (answer : ω)
      (decided : P.decide c.request c.input c.before = .inr (c.value,answer)) : Serial P Valid first (c::log) (P.put c.value)

section Serial
variable {P : Program τ ν κ ι ω} {Valid : κ → Prop} {first cell : τ} {log : List (Commit τ ν κ ι)}

/-- The rule for a whole history: what one commit keeps. -/
theorem Serial.invariant {I : List (Commit τ ν κ ι) → τ → Prop} (h : Serial P Valid first log cell) (initially : I [] first)
    (kept : ∀ log (c : Commit τ ν κ ι) answer, I log c.before → Valid c.request →
      P.decide c.request c.input c.before = .inr (c.value,answer) → I (c::log) (P.put c.value)) : I log cell := by
  induction h with
  | none => exact initially
  | commit _ valid answer decided ih => exact kept _ _ answer ih valid decided

theorem Serial.cells (h : Serial P Valid first log cell) : cell::log.map (·.before) = (log.map fun c => P.put c.value) ++ [first] :=
  Serial.invariant (I := fun log cell => cell::log.map (·.before) = (log.map fun c => P.put c.value) ++ [first]) h rfl fun log c _ before _ _ => by
    rw [List.map_cons,List.map_cons,before]
    rfl

end Serial

/-- A call has not written, or its one commit decided its answer. -/
def Accounted (P : Program τ ν κ ι ω) (commits : List (Commit τ ν κ ι)) (n : Nat) (request : κ) : Phase τ ν ι ω → Prop
  | .waiting => ∀ c ∈ commits, c.call ≠ n
  | .writing input read value answer => P.decide request input read = .inr (value,answer) ∧ ∀ c ∈ commits, c.call ≠ n
  | .answered answer =>
    ((answer = P.conflict ∨ answer = P.failed ∨ ∃ input cell, P.decide request input cell = .inl answer) ∧ ∀ c ∈ commits, c.call ≠ n) ∨
      ∃ c ∈ commits, c.call = n ∧ c.request = request ∧ P.decide request c.input c.before = .inr (c.value,answer)

structure Sound (P : Program τ ν κ ι ω) (Valid : κ → Prop) (first : τ) (s : State τ ν κ ι ω) : Prop where
  serial : Serial P Valid first s.commits s.cell
  accounted : ∀ n call, s.calls[n]? = some call → Valid call.request ∧ Accounted P s.commits n call.request call.phase
  once : (s.commits.map (·.call)).Nodup
  within : ∀ c ∈ s.commits, c.call < s.calls.length

section Sound
variable {P : Program τ ν κ ι ω} {Valid : κ → Prop} {first : τ} {s t : State τ ν κ ι ω} {a : Action κ ι}

theorem Accounted.other {commits : List (Commit τ ν κ ι)} {n : Nat} {request : κ} {phase : Phase τ ν ι ω} {c : Commit τ ν κ ι}
    (h : Accounted P commits n request phase) (other : c.call ≠ n) : Accounted P (c::commits) n request phase := by
  have more : (∀ c ∈ commits, c.call ≠ n) → ∀ d ∈ c::commits, d.call ≠ n := by
    intro none_ d mem
    rcases List.mem_cons.mp mem with rfl | mem
    · exact other
    · exact none_ d mem
  cases phase with
  | waiting => exact more h
  | writing input read value answer => exact ⟨h.1,more h.2⟩
  | answered answer =>
    rcases h with ⟨why,none_⟩ | ⟨d,mem,rest⟩
    · exact .inl ⟨why,more none_⟩
    · exact .inr ⟨d,List.mem_cons_of_mem _ mem,rest⟩

theorem Sound.setPhase {n : Nat} {call : Call τ ν κ ι ω} {phase : Phase τ ν ι ω} (h : Sound P Valid first s) (found : s.calls[n]? = some call)
    (moved : Accounted P s.commits n call.request phase) : Sound P Valid first (s.setPhase n call phase) := by
  refine ⟨h.serial,fun m other there => ?_,h.once,fun c mem => ?_⟩
  · rw [State.setPhase,List.getElem?_set] at there
    split at there
    · rename_i same
      subst same
      split at there
      · cases Option.some.inj there
        exact ⟨(h.accounted n call found).1,moved⟩
      · cases there
    · exact h.accounted m other there
  · rw [State.setPhase,List.length_set]
    exact h.within c mem

/-- A new call has not written: no commit has its number. -/
theorem Sound.call {request : κ} (h : Sound P Valid first s) (valid : Valid request) :
    Sound P Valid first { s with calls := s.calls ++ [⟨request,.waiting⟩] } := by
  refine ⟨h.serial,fun n call found => ?_,h.once,fun c mem => ?_⟩
  · rw [List.getElem?_append] at found
    split at found
    · exact h.accounted n call found
    · rename_i late
      obtain ⟨_,is⟩ := List.getElem?_eq_some_iff.mp found
      have new : call = ⟨request,.waiting⟩ := by
        rw [← is]
        exact List.mem_singleton.mp (List.getElem_mem _)
      subst new
      exact ⟨valid,fun c mem same => late (same ▸ h.within c mem)⟩
  · rw [List.length_append]
    exact Nat.lt_add_right _ (h.within c mem)

/-- A write replaces the cell that its value was decided on. -/
theorem Sound.commit {n : Nat} {call : Call τ ν κ ι ω} {input : ι} {value : ν} {answer : ω} (h : Sound P Valid first s)
    (found : s.calls[n]? = some call) (decided : P.decide call.request input s.cell = .inr (value,answer))
    (fresh : ∀ c ∈ s.commits, c.call ≠ n) :
    Sound P Valid first ⟨P.put value,(s.setPhase n call (.answered answer)).calls,⟨n,call.request,input,s.cell,value⟩::s.commits⟩ := by
  have valid := (h.accounted n call found).1
  have within : n < s.calls.length := (List.getElem?_eq_some_iff.mp found).1
  refine ⟨.commit h.serial valid answer decided,fun m other there => ?_,?_,fun c mem => ?_⟩
  · rw [State.setPhase,List.getElem?_set] at there
    split at there
    · rename_i own
      subst own
      cases Option.some.inj there
      exact ⟨valid,.inr ⟨_,List.mem_cons_self,rfl,rfl,decided⟩⟩
    · rename_i other_
      obtain ⟨valid',account⟩ := h.accounted m other there
      exact ⟨valid',account.other other_⟩
  · refine List.nodup_cons.mpr ⟨fun mem => ?_,h.once⟩
    obtain ⟨c,among,is⟩ := List.mem_map.mp mem
    exact fresh c among is
  · rw [State.setPhase,List.length_set]
    rcases List.mem_cons.mp mem with rfl | mem
    · exact within
    · exact h.within c mem

/-- A call that has not answered has not written. -/
theorem Accounted.unwritten {commits : List (Commit τ ν κ ι)} {n : Nat} {request : κ} {phase : Phase τ ν ι ω}
    (h : Accounted P commits n request phase) (under : ∀ answer, phase ≠ .answered answer) : ∀ c ∈ commits, c.call ≠ n := by
  cases phase with
  | waiting => exact h
  | writing => exact h.2
  | answered answer => exact absurd rfl (under answer)

theorem Sound.step (swaps : ∀ cell read value new, P.write cell read value = some new → cell = read ∧ new = P.put value)
    (h : Sound P Valid first s) (allowed : Allowed Valid s a) (taken : step P s a = some t) : Sound P Valid first t := by
  cases a with
  | call request =>
    cases Option.some.inj taken
    exact h.call allowed
  | read n input =>
    obtain ⟨call,found,moved⟩ := Option.bind_eq_some_iff.mp taken
    have account := (h.accounted n call found).2
    split at moved
    · rename_i waiting
      rw [waiting] at account
      split at moved
      · rename_i answer decided
        cases Option.some.inj moved
        exact h.setPhase found (.inl ⟨.inr (.inr ⟨input,s.cell,decided⟩),account⟩)
      · rename_i value answer decided
        cases Option.some.inj moved
        exact h.setPhase found ⟨decided,account⟩
    · contradiction
  | fail n =>
    obtain ⟨call,found,moved⟩ := Option.bind_eq_some_iff.mp taken
    have account := (h.accounted n call found).2
    split at moved
    · contradiction
    · rename_i under
      cases Option.some.inj moved
      exact h.setPhase found (.inl ⟨.inr (.inl rfl),account.unwritten under⟩)
  | write n =>
    obtain ⟨call,found,moved⟩ := Option.bind_eq_some_iff.mp taken
    have account := (h.accounted n call found).2
    split at moved
    · rename_i input read value answer writing
      rw [writing] at account
      obtain ⟨decided,fresh⟩ := account
      split at moved
      · rename_i cell written
        cases Option.some.inj moved
        obtain ⟨same,rfl⟩ := swaps _ _ _ _ written
        rw [← same] at decided
        exact h.commit found decided fresh
      · cases Option.some.inj moved
        exact h.setPhase found (.inl ⟨.inl rfl,fresh⟩)
    · contradiction

section Steps
variable {n : Nat} {request : κ} {input : ι} {read cell : τ} {value : ν} {answer : ω}

theorem readAnswered (found : s.calls[n]? = some ⟨request,.waiting⟩) (decided : P.decide request input s.cell = .inl answer) :
    step P s (.read n input) = some (s.setPhase n ⟨request,.waiting⟩ (.answered answer)) := by
  simp only [step,found,Option.bind_eq_bind,Option.bind_some,decided]

theorem readWriting (found : s.calls[n]? = some ⟨request,.waiting⟩) (decided : P.decide request input s.cell = .inr (value,answer)) :
    step P s (.read n input) = some (s.setPhase n ⟨request,.waiting⟩ (.writing input s.cell value answer)) := by
  simp only [step,found,Option.bind_eq_bind,Option.bind_some,decided]

theorem writeCommitted (found : s.calls[n]? = some ⟨request,.writing input read value answer⟩)
    (written : P.write s.cell read value = some cell) :
    step P s (.write n) =
      some ⟨cell,s.calls.set n ⟨request,.answered answer⟩,⟨n,request,input,s.cell,value⟩::s.commits⟩ := by
  simp only [step,found,Option.bind_eq_bind,Option.bind_some,written,State.setPhase]

theorem writeConflicts (found : s.calls[n]? = some ⟨request,.writing input read value answer⟩)
    (refused : P.write s.cell read value = none) :
    step P s (.write n) = some (s.setPhase n ⟨request,.writing input read value answer⟩ (.answered P.conflict)) := by
  simp only [step,found,Option.bind_eq_bind,Option.bind_some,refused]

theorem Reachable.calls (h : Reachable P Valid first s) (valid : Valid request) :
    Reachable P Valid first { s with calls := s.calls ++ [⟨request,.waiting⟩] } :=
  have allowed : Allowed Valid s (.call request : Action κ ι) := valid
  Transition.ReachableUnder.next h allowed rfl

theorem Reachable.reads (h : Reachable P Valid first s) (taken : step P s (.read n input) = some t) : Reachable P Valid first t :=
  have allowed : Allowed Valid s (.read n input) := trivial
  Transition.ReachableUnder.next h allowed taken

theorem Reachable.writes (h : Reachable P Valid first s) (taken : step P s (.write n) = some t) : Reachable P Valid first t :=
  have allowed : Allowed Valid s (.write n : Action κ ι) := trivial
  Transition.ReachableUnder.next h allowed taken

end Steps

/-- No update is lost, in any interleaving. -/
theorem sound (swaps : ∀ cell read value new, P.write cell read value = some new → cell = read ∧ new = P.put value)
    (h : Reachable P Valid first s) : Sound P Valid first s :=
  h.invariant ⟨.none,nofun,List.nodup_nil,nofun⟩ fun _ _ _ before allowed taken => before.step swaps allowed taken

end Sound

end Optimistic
