import Mathlib.Data.List.Destutter

/-! Runs of a partial step function: an action without a successor is not
enabled there. `ok` restricts which steps a run may take; unrestricted
reachability is the case where every step is allowed. -/
namespace Transition
variable {σ α β : Type*}

inductive ReachableUnder (step : σ → α → Option σ) (ok : σ → α → Prop) (initial : σ) : σ → Prop where
  | start : ReachableUnder step ok initial initial
  | next {s a t} (before : ReachableUnder step ok initial s) (allowed : ok s a)
      (taken : step s a = some t) : ReachableUnder step ok initial t

def Always (_ : σ) (_ : α) : Prop := True

abbrev Reachable (step : σ → α → Option σ) (initial : σ) : σ → Prop :=
  ReachableUnder step Always initial

theorem Reachable.step {step : σ → α → Option σ} {initial s a t}
    (before : Reachable step initial s) (taken : step s a = some t) : Reachable step initial t :=
  .next before trivial taken

theorem ReachableUnder.weaken {step : σ → α → Option σ} {strong weak : σ → α → Prop} {initial s}
    (h : ReachableUnder step strong initial s) (implies : ∀ s a, strong s a → weak s a) :
    ReachableUnder step weak initial s := by
  induction h with
  | start => exact .start
  | next _ allowed taken ih => exact .next ih (implies _ _ allowed) taken

theorem ReachableUnder.reachable {step : σ → α → Option σ} {ok : σ → α → Prop} {initial s}
    (h : ReachableUnder step ok initial s) : Reachable step initial s :=
  h.weaken fun _ _ _ => trivial

theorem ReachableUnder.trans {step : σ → α → Option σ} {ok : σ → α → Prop} {initial s t}
    (before : ReachableUnder step ok initial s) (later : ReachableUnder step ok s t) :
    ReachableUnder step ok initial t := by
  induction later with
  | start => exact before
  | next _ allowed taken ih => exact .next ih allowed taken

theorem Reachable.trans {step : σ → α → Option σ} {initial s t}
    (before : Reachable step initial s) (later : Reachable step s t) : Reachable step initial t :=
  ReachableUnder.trans before later

/-- The one induction behind every safety result: what holds initially and is
kept by each allowed step holds of each state reached. -/
theorem ReachableUnder.invariant {step : σ → α → Option σ} {ok : σ → α → Prop} {initial s}
    {I : σ → Prop} (h : ReachableUnder step ok initial s) (initially : I initial)
    (kept : ∀ s a t, I s → ok s a → step s a = some t → I t) : I s := by
  induction h with
  | start => exact initially
  | next _ allowed taken ih => exact kept _ _ _ ih allowed taken

theorem Reachable.invariant {step : σ → α → Option σ} {initial s} {I : σ → Prop}
    (h : Reachable step initial s) (initially : I initial)
    (kept : ∀ s a t, I s → step s a = some t → I t) : I s :=
  ReachableUnder.invariant h initially fun s a t hs _ => kept s a t hs

/-- The strengthened rule: the step may also use that its source is reachable. -/
theorem ReachableUnder.invariantWith {step : σ → α → Option σ} {ok : σ → α → Prop} {initial s}
    {I : σ → Prop} (h : ReachableUnder step ok initial s) (initially : I initial)
    (kept : ∀ s a t, ReachableUnder step ok initial s → I s → ok s a → step s a = some t → I t) :
    I s := by
  induction h with
  | start => exact initially
  | next before allowed taken ih => exact kept _ _ _ before ih allowed taken

def run (step : σ → α → Option σ) : σ → List α → Option σ
  | s,[] => some s
  | s,a::rest => do
      let t ← step s a
      run step t rest

theorem runAppend {step : σ → α → Option σ} {s : σ} {first later : List α} :
    run step s (first ++ later) = (run step s first).bind fun t => run step t later := by
  induction first generalizing s with
  | nil => rfl
  | cons a rest ih =>
    simp only [List.cons_append,run,bind,Option.bind_assoc]
    exact Option.bind_congr fun t _ => ih

/-- Each step the run takes is an allowed one. -/
def AllowedRun (step : σ → α → Option σ) (ok : σ → α → Prop) : σ → List α → Prop
  | _,[] => True
  | s,a::rest => ok s a ∧ ∀ t, step s a = some t → AllowedRun step ok t rest

instance AllowedRun.decidable {step : σ → α → Option σ} {ok : σ → α → Prop} [∀ s a, Decidable (ok s a)] :
    (s : σ) → (actions : List α) → Decidable (AllowedRun step ok s actions)
  | _,[] => .isTrue trivial
  | s,a::rest => match taken : step s a with
    | none => decidable_of_iff (ok s a) (by simp [AllowedRun,taken])
    | some t =>
      have : Decidable (AllowedRun step ok t rest) := AllowedRun.decidable t rest
      decidable_of_iff (ok s a ∧ AllowedRun step ok t rest) (by simp [AllowedRun,taken])

theorem runReachableUnder {step : σ → α → Option σ} {ok : σ → α → Prop} {initial s t actions}
    (before : ReachableUnder step ok initial s) (allowed : AllowedRun step ok s actions)
    (ran : run step s actions = some t) : ReachableUnder step ok initial t := by
  induction actions generalizing s with
  | nil => cases Option.some.inj ran; exact before
  | cons a rest ih =>
    simp only [run,bind,Option.bind_eq_some_iff] at ran
    obtain ⟨u,taken,later⟩ := ran
    exact ih (.next before allowed.1 taken) (allowed.2 u taken) later

theorem AllowedRun.ofActions {step : σ → α → Option σ} {ok : σ → α → Prop} {s : σ} {actions : List α}
    (h : ∀ a ∈ actions, ∀ s, ok s a) : AllowedRun step ok s actions := by
  induction actions generalizing s with
  | nil => trivial
  | cons a rest ih =>
    exact ⟨h a List.mem_cons_self s,fun _ _ => ih fun b mem => h b (List.mem_cons_of_mem a mem)⟩

theorem AllowedRun.append {step : σ → α → Option σ} {ok : σ → α → Prop} {s : σ} {first later : List α}
    (before : AllowedRun step ok s first)
    (after : ∀ t, run step s first = some t → AllowedRun step ok t later) :
    AllowedRun step ok s (first ++ later) := by
  induction first generalizing s with
  | nil => exact after s rfl
  | cons a rest ih =>
    refine ⟨before.1,fun t taken => ih (before.2 t taken) fun u ran => after u ?_⟩
    simpa [run,taken] using ran

theorem AllowedRun.always {step : σ → α → Option σ} {s : σ} {actions : List α} :
    AllowedRun step Always s actions := by
  induction actions generalizing s with
  | nil => trivial
  | cons a rest ih => exact ⟨trivial,fun _ _ => ih⟩

theorem runReachable {step : σ → α → Option σ} {initial s t actions}
    (before : Reachable step initial s) (ran : run step s actions = some t) :
    Reachable step initial t := runReachableUnder before .always ran

/-- All states a run visits, the first one included. -/
def visited (step : σ → α → Option σ) : σ → List α → Option (List σ)
  | s,[] => some [s]
  | s,a::rest => do
      let t ← step s a
      let later ← visited step t rest
      some (s::later)

theorem visitedHead {step : σ → α → Option σ} {s actions states}
    (ran : visited step s actions = some states) : ∃ later, states = s::later := by
  cases actions with
  | nil => cases Option.some.inj ran; exact ⟨[],rfl⟩
  | cons a rest =>
    simp only [visited,bind,Option.bind_eq_some_iff] at ran
    obtain ⟨_,_,later,_,last⟩ := ran
    cases Option.some.inj last
    exact ⟨later,rfl⟩

theorem visitedChain {step : σ → α → Option σ} {initial s actions states}
    (before : Reachable step initial s) (ran : visited step s actions = some states) :
    states.IsChain (fun s t => Reachable step initial s ∧ ∃ a, step s a = some t) := by
  induction actions generalizing s states with
  | nil => cases Option.some.inj ran; exact .singleton s
  | cons a rest ih =>
    simp only [visited,bind,Option.bind_eq_some_iff] at ran
    obtain ⟨t,taken,later,ht,last⟩ := ran
    cases Option.some.inj last
    obtain ⟨tail,rfl⟩ := visitedHead ht
    exact .cons_cons ⟨before,a,taken⟩ (ih (Reachable.step before taken) ht)

theorem visitedReachable {step : σ → α → Option σ} {initial s actions states}
    (before : Reachable step initial s) (ran : visited step s actions = some states) :
    ∀ t ∈ states, Reachable step initial t := by
  induction actions generalizing s states with
  | nil => cases Option.some.inj ran; simpa using before
  | cons a rest ih =>
    simp only [visited,bind,Option.bind_eq_some_iff] at ran
    obtain ⟨t,taken,later,ht,last⟩ := ran
    cases Option.some.inj last
    intro u mem
    rcases List.mem_cons.mp mem with rfl | mem
    · exact before
    · exact ih (Reachable.step before taken) ht u mem

/-! ### The history of one observed value -/

/-- The values `observe` takes along a run, with equal neighbours merged. -/
def history [DecidableEq β] (observe : σ → Option β) (states : List σ) : List β :=
  (states.filterMap observe).destutter (· ≠ ·)

theorem destutterChain [DecidableEq β] {Edge : β → β → Prop} {x : β} {values : List β}
    (h : (x::values).IsChain (fun a b => b = a ∨ Edge a b)) :
    (values.destutter' (· ≠ ·) x).IsChain Edge ∧
      ∃ later, values.destutter' (· ≠ ·) x = x::later := by
  induction values generalizing x with
  | nil => exact ⟨.singleton x,[],rfl⟩
  | cons y rest ih =>
    obtain ⟨move,tail⟩ := List.isChain_cons_cons.mp h
    by_cases same : x = y
    · subst y
      rw [List.destutter'_cons_neg _ (not_not.mpr rfl)]
      exact ih tail
    · rw [List.destutter'_cons_pos _ same]
      obtain ⟨chain,later,shape⟩ := ih tail
      refine ⟨?_,_,rfl⟩
      rw [shape] at chain ⊢
      exact .cons_cons (move.resolve_left fun h => same h.symm) chain

theorem pathEnds {Edge : β → β → Prop} {x : β} {later : List β} (path : (x::later).IsChain Edge)
    (never : ∀ y, ¬ Edge x y) : later = [] := by
  cases later with
  | nil => rfl
  | cons y rest => exact absurd (List.isChain_cons_cons.mp path).1 (never y)

variable {Next : σ → σ → Prop} {Edge : β → β → Prop} {observe : σ → Option β} {first : β}

theorem observedChain (moves : ∀ s t x, Next s t → observe s = some x →
      ∃ y, observe t = some y ∧ (y = x ∨ Edge x y))
    {s states x} (now : observe s = some x) (chain : (s::states).IsChain Next) :
    (x::states.filterMap observe).IsChain (fun a b => b = a ∨ Edge a b) := by
  induction states generalizing s x with
  | nil => exact .singleton x
  | cons t rest ih =>
    obtain ⟨next,tail⟩ := List.isChain_cons_cons.mp chain
    obtain ⟨y,hy,move⟩ := moves s t x next now
    rw [List.filterMap_cons_some hy]
    exact .cons_cons move (ih hy tail)

/-- When the value can only appear as `first` and then only moves along `Edge`,
its history is a path of `Edge` from `first`. -/
theorem historyPath [DecidableEq β]
    (born : ∀ s t, Next s t → observe s = none → observe t = none ∨ observe t = some first)
    (moves : ∀ s t x, Next s t → observe s = some x →
      ∃ y, observe t = some y ∧ (y = x ∨ Edge x y))
    {s states} (unborn : observe s = none) (chain : (s::states).IsChain Next) :
    (history observe (s::states)).IsChain Edge ∧
      (history observe (s::states) = [] ∨ ∃ later, history observe (s::states) = first::later) := by
  induction states generalizing s with
  | nil => simp [history,unborn]
  | cons t rest ih =>
    obtain ⟨next,tail⟩ := List.isChain_cons_cons.mp chain
    have skip : history observe (s::t::rest) = history observe (t::rest) := by
      simp [history,List.filterMap_cons_none unborn]
    rw [skip]
    rcases born s t next unborn with still | now
    · exact ih still tail
    · have path := destutterChain (observedChain moves now tail)
      rw [history,List.filterMap_cons_some now,List.destutter_cons']
      exact ⟨path.1,.inr path.2⟩

end Transition
