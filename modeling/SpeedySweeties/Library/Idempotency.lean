import SpeedySweeties.Library.Transition

/-! Requests under idempotency keys, and a receiver that keeps the first body of a key and takes
the key again with that body only. The requests of a run are what its steps put out; a property
of them that grows step by step holds at the end of a run exactly if each step may be taken. -/
namespace Idempotency
variable {κ β : Type}

structure Request (κ β : Type) where
  key : κ
  body : β
  deriving DecidableEq, Repr

/-- One body for each key. -/
def Identical (requests : List (Request κ β)) : Prop := ∀ p ∈ requests, ∀ q ∈ requests, p.key = q.key → p.body = q.body

theorem Identical.append {first later : List (Request κ β)} (apart : ∀ p ∈ first, ∀ q ∈ later, p.key ≠ q.key) :
    Identical (first ++ later) ↔ Identical first ∧ Identical later := by
  constructor
  · intro same
    exact ⟨fun p left q right => same p (List.mem_append_left _ left) q (List.mem_append_left _ right),
      fun p left q right => same p (List.mem_append_right _ left) q (List.mem_append_right _ right)⟩
  · rintro ⟨same,also⟩ p left q right key
    rcases List.mem_append.mp left with left | left <;> rcases List.mem_append.mp right with right | right
    · exact same p left q right key
    · exact absurd key (apart p left q right)
    · exact absurd key.symm (apart q right p left)
    · exact also p left q right key

section Receiver
variable [DecidableEq κ]

def receive (memory : κ → Option β) (r : Request κ β) : κ → Option β :=
  if (memory r.key).isSome then memory else Function.update memory r.key (some r.body)

def received (arrivals : List (Request κ β)) : κ → Option β := arrivals.foldl receive fun _ => none

def Recognised (memory : κ → Option β) (r : Request κ β) : Prop := ∀ body, memory r.key = some body → body = r.body

theorem receiveSource {memory : κ → Option β} {r : Request κ β} {key : κ} {body : β} (is : receive memory r key = some body) :
    memory key = some body ∨ (r.key = key ∧ r.body = body) := by
  unfold receive at is
  split at is
  · exact .inl is
  · by_cases mine : key = r.key
    · subst mine
      rw [Function.update_self] at is
      exact .inr ⟨rfl,Option.some.inj is⟩
    · rw [Function.update_of_ne mine] at is
      exact .inl is

theorem foldSource {arrivals : List (Request κ β)} {memory : κ → Option β} {key : κ} {body : β}
    (is : arrivals.foldl receive memory key = some body) : memory key = some body ∨ ∃ r ∈ arrivals, r.key = key ∧ r.body = body := by
  induction arrivals generalizing memory with
  | nil => exact .inl is
  | cons r arrivals ih =>
    rcases ih is with before | ⟨later,mem,found⟩
    · rcases receiveSource before with old | new
      · exact .inl old
      · exact .inr ⟨r,List.mem_cons_self,new⟩
    · exact .inr ⟨later,List.mem_cons_of_mem _ mem,found⟩

theorem identicalRecognised (requests : List (Request κ β)) :
    Identical requests ↔ ∀ arrivals, arrivals ⊆ requests → ∀ r ∈ requests, Recognised (received arrivals) r := by
  constructor
  · intro same arrivals within r mem body is
    obtain none_ | ⟨first,arrived,key,rfl⟩ := foldSource is
    · cases none_
    · exact same first (within arrived) r mem key
  · intro recognised p left q right key
    have first : received [p] q.key = some p.body := by
      rw [← key,received,List.foldl_cons,List.foldl_nil,receive,if_neg (by simp),Function.update_self]
    exact recognised [p] (by simpa using left) q right p.body first

end Receiver
end Idempotency

namespace Transition
variable {σ α β : Type*}

/-- What the steps of a run put out, the first first. -/
def outputs (step : σ → α → Option σ) (out : σ → α → List β) : σ → List α → List β
  | _,[] => []
  | s,a::rest => out s a ++ (step s a).elim [] fun t => outputs step out t rest

section Outputs
variable {step : σ → α → Option σ} {out : σ → α → List β} {J : σ → List β → Prop}

theorem outputsCons {s t : σ} {a : α} {rest : List α} (taken : step s a = some t) :
    outputs step out s (a::rest) = out s a ++ outputs step out t rest := by
  rw [outputs,taken,Option.elim_some]

theorem outputsInvariant (kept : ∀ s h a t, J s h → step s a = some t → J t (h ++ out s a)) {actions : List α} {s t : σ} {h : List β}
    (initially : J s h) (ran : run step s actions = some t) : J t (h ++ outputs step out s actions) := by
  induction actions generalizing s h with
  | nil =>
    cases Option.some.inj ran
    rw [outputs,List.append_nil]
    exact initially
  | cons a rest ih =>
    obtain ⟨u,taken,later⟩ := Option.bind_eq_some_iff.mp ran
    rw [outputsCons taken,← List.append_assoc]
    exact ih (kept s h a u initially taken) later

theorem outputsAllowed {ok : σ → α → Prop} {Q : List β → Prop} (kept : ∀ s h a t, J s h → step s a = some t → J t (h ++ out s a))
    (each : ∀ s h a t, J s h → step s a = some t → (Q (h ++ out s a) ↔ Q h ∧ ok s a)) {actions : List α} {s t : σ} {h : List β}
    (initially : J s h) (ran : run step s actions = some t) : Q (h ++ outputs step out s actions) ↔ Q h ∧ AllowedRun step ok s actions := by
  induction actions generalizing s h with
  | nil => simp [outputs,AllowedRun]
  | cons a rest ih =>
    obtain ⟨u,taken,later⟩ := Option.bind_eq_some_iff.mp ran
    rw [outputsCons taken,← List.append_assoc,ih (kept s h a u initially taken) later,each s h a u initially taken,and_assoc]
    refine and_congr_right' (and_congr_right' ⟨fun allowed t is => ?_,fun allowed => allowed u taken⟩)
    cases Option.some.inj (taken.symm.trans is)
    exact allowed

end Outputs
end Transition
