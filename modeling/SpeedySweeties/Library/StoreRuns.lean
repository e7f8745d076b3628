import SpeedySweeties.Library.StoreLogic

/-! Runs of many clients of an object store: the steps of one call leave what the others
meet, so in every state reached each call meets its own condition, and a call whose
requests are answered comes to an end. -/

section
variable {β ε μ : Type} {faults : Prop} {w : StoreWorld β}
open StoreWorld

namespace ClientSystem
variable {κ ρ : Type} {D : Discipline (Nat × κ) β} {c : Nat} {i : Caller (Nat × κ)}

def caller (c : Nat) (call : StoreCall κ β ε μ ρ) : Caller (Nat × κ) := ⟨c,call.process,call.invocation⟩

def world (s : ClientSystem κ β ε μ ρ) (call : StoreCall κ β ε μ ρ) : StoreWorld β := ⟨s.bucket,call.upload,call.listed⟩

/-- What the step of a call makes of the store and of the call. -/
inductive Moved (s : ClientSystem κ β ε μ ρ) (d : Nat) (x : StoreCall κ β ε μ ρ) :
    ClientAction κ → Bucket (Authored β) → StoreCall κ β ε μ ρ → Prop where
  | serve (slot limit) (client) (served : x.client.serve s.bucket slot limit = some client) :
    Moved s d x (.serve d slot limit) s.bucket
      { x with client := client, listed := if x.client.lists then some s.bucket else x.listed }
  | fail (slot fault) (client) (failed : x.client.fail slot fault = some client) :
    Moved s d x (.fail d slot fault) s.bucket { x with client := client }
  | resume (slot) (client) (m : μ) (woken : x.client.wake slot = some client) :
    Moved s d x (.resume d slot) s.bucket { x with client := (client.advance m).2 }
  | send (key body next) (waiting : x.client = .put key body next) (unsent : x.upload = .unsent) :
    Moved s d x (.send d) s.bucket { x with upload := .inFlight key body }
  | arrive (key body) (sent : x.upload = .inFlight key body) (absent : s.bucket.find key = none) :
    Moved s d x (.arrive d) (s.bucket.put key ⟨d,body⟩) { x with upload := .stored key body }
  | refuse (key body) (sent : x.upload = .inFlight key body) (present : s.bucket.find key ≠ none) :
    Moved s d x (.arrive d) s.bucket { x with upload := .refused key body }
  | created (key body next key' body') (m : μ) (waiting : x.client = .put key body next)
      (stored : x.upload = .stored key' body') :
    Moved s d x (.answer d) s.bucket { x with client := ((next .created).advance m).2 }
  | refused (key body next key' body') (m : μ) (waiting : x.client = .put key body next)
      (refused : x.upload = .refused key' body') :
    Moved s d x (.answer d) s.bucket { x with client := ((next .uncertain).advance m).2 }
  | deny (key body next key' body') (m : μ) (waiting : x.client = .put key body next)
      (sent : x.upload = .inFlight key' body') :
    Moved s d x (.deny d) s.bucket { x with upload := .denied, client := ((next .forbidden).advance m).2 }
  | lose (key body next) (m : μ) (waiting : x.client = .put key body next) :
    Moved s d x (.lose d) s.bucket { x with client := ((next .uncertain).advance m).2 }

variable {invoke : Nat → κ → StoreClient β ε μ ρ} {s t : ClientSystem κ β ε μ ρ} {a : ClientAction κ}

theorem stepCases (taken : step invoke s a = some t) :
    (∃ d process i m, a = .start d process i ∧ s.calls d = none ∧ t.bucket = s.bucket ∧
      t.calls = Function.update s.calls d (some ⟨process,i,((invoke process i).advance m).2,.unsent,none⟩)) ∨
    ∃ d x x', s.calls d = some x ∧ Moved s d x a t.bucket x' ∧ t.calls = Function.update s.calls d (some x') := by
  cases a with
  | start d process i =>
    simp only [step] at taken
    split at taken <;> cases taken
    rename_i fresh
    exact .inl ⟨d,process,i,_,rfl,fresh,rfl,rfl⟩
  | serve d slot limit =>
    simp only [step,Option.bind_eq_bind,Option.bind_eq_some_iff,Option.some.injEq] at taken
    obtain ⟨x,here,client,served,rfl⟩ := taken
    exact .inr ⟨d,x,_,here,.serve slot limit client served,rfl⟩
  | fail d slot fault =>
    simp only [step,Option.bind_eq_bind,Option.bind_eq_some_iff,Option.some.injEq] at taken
    obtain ⟨x,here,client,failed,rfl⟩ := taken
    exact .inr ⟨d,x,_,here,.fail slot fault client failed,rfl⟩
  | resume d slot =>
    simp only [step,Option.bind_eq_bind,Option.bind_eq_some_iff,Option.some.injEq] at taken
    obtain ⟨x,here,client,woken,rfl⟩ := taken
    exact .inr ⟨d,x,_,here,.resume slot client _ woken,rfl⟩
  | send d =>
    simp only [step,Option.bind_eq_bind,Option.bind_eq_some_iff] at taken
    obtain ⟨x,here,taken⟩ := taken
    split at taken <;> cases taken
    rename_i key body next waiting unsent
    exact .inr ⟨d,x,_,here,.send key body next waiting unsent,rfl⟩
  | arrive d =>
    simp only [step,Option.bind_eq_bind,Option.bind_eq_some_iff] at taken
    obtain ⟨x,here,taken⟩ := taken
    split at taken <;> try cases taken
    rename_i key body sent
    split at taken <;> cases taken
    · rename_i absent
      exact .inr ⟨d,x,_,here,.arrive key body sent absent,rfl⟩
    · rename_i present
      exact .inr ⟨d,x,_,here,.refuse key body sent (by simp [present]),rfl⟩
  | answer d =>
    simp only [step,Option.bind_eq_bind,Option.bind_eq_some_iff] at taken
    obtain ⟨x,here,taken⟩ := taken
    split at taken <;> cases taken
    · rename_i key body next key' body' waiting stored
      exact .inr ⟨d,x,_,here,.created key body next key' body' _ waiting stored,rfl⟩
    · rename_i key body next key' body' waiting refused
      exact .inr ⟨d,x,_,here,.refused key body next key' body' _ waiting refused,rfl⟩
  | deny d =>
    simp only [step,Option.bind_eq_bind,Option.bind_eq_some_iff] at taken
    obtain ⟨x,here,taken⟩ := taken
    split at taken <;> cases taken
    rename_i key body next key' body' waiting sent
    exact .inr ⟨d,x,_,here,.deny key body next key' body' _ waiting sent,rfl⟩
  | lose d =>
    simp only [step,Option.bind_eq_bind,Option.bind_eq_some_iff] at taken
    obtain ⟨x,here,taken⟩ := taken
    split at taken <;> cases taken
    rename_i key body next waiting
    exact .inr ⟨d,x,_,here,.lose key body next _ waiting,rfl⟩

/-- All but the named call's own faults. -/
def Spares (c : Nat) : ClientAction κ → Prop
  | .fail d _ _ => d ≠ c
  | .deny d => d ≠ c
  | .lose d => d ≠ c
  | _ => True

variable {x x' : StoreCall κ β ε μ ρ} {d : Nat} {B : Bucket (Authored β)} {Q : StoreWorld β → Except ε ρ → Prop}

theorem Moved.bucket (moved : Moved s d x a B x') (valid : (s.world x).Valid D (caller d x)) :
    B = s.bucket ∨ ∃ k b, s.bucket.find k = none ∧ D.permits (x.process,x.invocation) s.bucket k b ∧ B = s.bucket.put k ⟨d,b⟩ := by
  cases moved with
  | arrive key body sent absent =>
    have recorded : x.upload.Recorded D (caller d x) s.bucket := valid.upload
    rw [sent] at recorded
    exact .inr ⟨key,body,absent,recorded.2,rfl⟩
  | _ => exact .inl rfl

theorem Moved.kept (moved : Moved s d x a B x') : x'.process = x.process ∧ x'.invocation = x.invocation := by
  cases moved <;> exact ⟨rfl,rfl⟩

/-- Not about to read or write its memory. -/
def Waits (p : StoreClient β ε μ ρ) : Prop := ∀ m, p.advance m = (m,p)

theorem advanceWaits (m : μ) (p : StoreClient β ε μ ρ) : Waits (p.advance m).2 := by
  induction p generalizing m with
  | inspect next ih => exact ih m m
  | record m' next ih => exact ih m'
  | finish | fetch | list | put => exact fun _ => rfl

theorem Moved.waits (moved : Moved s d x a B x') (waits : Waits x.client) : Waits x'.client := by
  cases moved with
  | serve slot limit client served =>
    cases known : x.client <;> rw [known] at served <;> simp only [StoreClient.serve] at served
    case fetch => split at served <;> cases served; exact fun _ => rfl
    case list k size answer next => cases answer <;> cases served; exact fun _ => rfl
    all_goals cases served
  | fail slot fault client failed =>
    cases known : x.client <;> rw [known] at failed <;> simp only [StoreClient.fail] at failed
    case fetch => split at failed <;> cases failed; exact fun _ => rfl
    case list k size answer next => cases answer <;> cases failed; exact fun _ => rfl
    all_goals cases failed
  | send | arrive | refuse => exact waits
  | resume | created | refused | deny | lose => exact advanceWaits _ _

theorem putting {key : Nat} {body : β} {next : PutAnswer → StoreClient β ε μ ρ} (waiting : x.client = .put key body next)
    (met : x.client.Meets D i faults Q w) : w.upload.Putting key body ∧ D.permits i.role w.bucket key body ∧
      ∀ w', Attempts D i key body w w' →
        (w'.upload = .stored key body → (next .created).Meets D i faults Q w') ∧
        (w'.upload = .refused key body → (next .uncertain).Meets D i faults Q w') ∧
        (faults → (next .uncertain).Meets D i faults Q w' ∧
          (w'.upload = .inFlight key body → (next .forbidden).Meets D i faults Q { w' with upload := .denied })) := by
  rw [waiting] at met
  exact met

theorem attemptsSelf {k : Nat} {b : β} (valid : w.Valid D i) : Attempts D i k b w w := ⟨_,.inl rfl,valid.refl⟩

theorem Moved.meets (stable : StableUnder D (caller d x) Q) (holds : D.holds B) (moved : Moved s d x a B x') (spared : faults ∨ Spares d a)
    (valid : (s.world x).Valid D (caller d x)) (met : x.client.Meets D (caller d x) faults Q (s.world x)) :
    (StoreWorld.mk B x'.upload x'.listed).Valid D (caller d x) ∧
      x'.client.Meets D (caller d x) faults Q ⟨B,x'.upload,x'.listed⟩ := by
  have recorded : x.upload.Recorded D (caller d x) s.bucket := valid.upload
  cases moved with
  | serve slot limit client served =>
    refine ⟨?_,met.serve valid served⟩
    dsimp only
    split
    · exact valid.relisted valid.bucket (le_refl _)
    · exact valid
  | fail slot fault client failed => exact ⟨valid,met.fail (spared.resolve_right fun h => h rfl) failed⟩
  | resume slot client m woken => exact ⟨valid,(met.wake valid woken).advance m⟩
  | send key body next waiting unsent =>
    rw [unsent] at recorded
    obtain ⟨_,permits,rest⟩ := putting waiting met
    refine ⟨⟨valid.bucket,valid.listed,recorded,permits⟩,?_⟩
    dsimp only
    rw [waiting]
    refine ⟨.inFlight,permits,fun v attempt => rest v ?_⟩
    obtain ⟨u,kind,later⟩ := attempt
    obtain rfl : u = .inFlight key body := kind.elim id fun h => h.2
    exact ⟨_,.inr ⟨unsent,rfl⟩,later⟩
  | arrive key body sent absent =>
    have grown := Bucket.le_put (v := (⟨d,body⟩ : Authored β)) absent
    have evolves : Evolves D (caller d x) (s.world x) ⟨s.bucket.put key ⟨d,body⟩,.stored key body,x.listed⟩ := by
      rw [sent] at recorded
      refine ⟨grown,rfl,?_,⟨holds,fun C same => ?_,Bucket.find_put_self,D.grown grown recorded.2⟩⟩
      · rw [world,sent]; exact .stored key body
      · exact ⟨(valid.listed C same).1,(valid.listed C same).2.trans grown⟩
    exact ⟨evolves.valid,met.evolve stable evolves⟩
  | refuse key body sent present =>
    rw [sent] at recorded
    have evolves : Evolves D (caller d x) (s.world x) ⟨s.bucket,.refused key body,x.listed⟩ := by
      refine ⟨le_refl _,rfl,?_,⟨holds,valid.listed,recorded.1,present⟩⟩
      rw [world,sent]
      exact .refused key body
    exact ⟨evolves.valid,met.evolve stable evolves⟩
  | created key body next key' body' m waiting stored =>
    obtain ⟨kind,_,rest⟩ := putting waiting met
    exact ⟨valid,((rest _ (attemptsSelf valid)).1 (kind.ofStored stored)).advance m⟩
  | refused key body next key' body' m waiting refused =>
    obtain ⟨kind,_,rest⟩ := putting waiting met
    exact ⟨valid,((rest _ (attemptsSelf valid)).2.1 (kind.ofRefused refused)).advance m⟩
  | deny key body next key' body' m waiting sent =>
    rw [sent] at recorded
    obtain ⟨kind,_,rest⟩ := putting waiting met
    have faulty := spared.resolve_right fun h => h rfl
    exact ⟨⟨valid.bucket,valid.listed,recorded.1⟩,
      (((rest _ (attemptsSelf valid)).2.2 faulty).2 (kind.ofInFlight sent)).advance m⟩
  | lose key body next m waiting =>
    obtain ⟨_,_,rest⟩ := putting waiting met
    have faulty := spared.resolve_right fun h => h rfl
    exact ⟨valid,((rest _ (attemptsSelf valid)).2.2 faulty).1.advance m⟩

theorem Moved.others {y : StoreCall κ β ε μ ρ} (ne : d ≠ i.id) (holds : D.holds B) (moved : Moved s d x a B x')
    (valid : (s.world x).Valid D (caller d x)) (here : (s.world y).Valid D i) : Evolves D i (s.world y) ⟨B,y.upload,y.listed⟩ := by
  rcases moved.bucket valid with rfl | ⟨k,b,absent,_,rfl⟩
  · exact here.refl
  · have grown := Bucket.le_put (v := (⟨d,b⟩ : Authored β)) absent
    refine ⟨grown,rfl,.same _,holds,fun C same => ?_,Upload.Recorded.put ne absent here.upload⟩
    exact ⟨(here.listed C same).1,(here.listed C same).2.trans grown⟩

/-- What the calls of a system promise: puts that keep the store's property, and for
each invocation a condition that it ends in and that the other calls leave. -/
structure Contract (invoke : Nat → κ → StoreClient β ε μ ρ) where
  discipline : Discipline (Nat × κ) β
  ends : Caller (Nat × κ) → StoreWorld β → Except ε ρ → Prop
  stable : ∀ i, StableUnder discipline i (ends i)
  starts : ∀ i w, w.Valid discipline i → w.upload = .unsent →
    (invoke i.role.1 i.role.2).Meets discipline i True (ends i) w

structure Sound (C : Contract invoke) (s : ClientSystem κ β ε μ ρ) : Prop where
  bucket : C.discipline.holds s.bucket
  authors : ∀ k o, s.bucket.find k = some o → s.calls o.author ≠ none
  waits : ∀ c call, s.calls c = some call → Waits call.client
  calls : ∀ c call, s.calls c = some call → (s.world call).Valid C.discipline (caller c call) ∧
    call.client.Meets C.discipline (caller c call) True (C.ends (caller c call)) (s.world call)

variable {C : Contract invoke} {call : StoreCall κ β ε μ ρ}

theorem Moved.holds (sound : Sound C s) (here : s.calls d = some x) (moved : Moved s d x a B x') : C.discipline.holds B := by
  rcases moved.bucket (sound.calls d x here).1 with rfl | ⟨k,b,absent,permits,rfl⟩
  · exact sound.bucket
  · exact C.discipline.put d sound.bucket permits absent

/-- What a call meets, whether or not its requests can fail, a step of any call keeps. -/
theorem Sound.callStep (sound : Sound C s) (taken : step invoke s a = some t) (here : s.calls c = some call)
    (stable : StableUnder C.discipline (caller c call) Q) (spared : faults ∨ Spares c a)
    (met : call.client.Meets C.discipline (caller c call) faults Q (s.world call)) :
    ∃ call', t.calls c = some call' ∧ caller c call' = caller c call ∧
      (t.world call').Valid C.discipline (caller c call) ∧
      call'.client.Meets C.discipline (caller c call) faults Q (t.world call') := by
  have valid := (sound.calls c call here).1
  rcases stepCases taken with ⟨d,process,i,m,_,fresh,bucket,calls⟩ | ⟨d,x,x',found,moved,calls⟩
  · have ne : c ≠ d := by rintro rfl; rw [here] at fresh; cases fresh
    have same : t.world call = s.world call := by rw [world,world,bucket]
    exact ⟨call,by rw [calls,Function.update_of_ne ne,here],rfl,same ▸ valid,same ▸ met⟩
  · have holds := moved.holds sound found
    by_cases ne : d = c
    · subst ne
      obtain rfl := Option.some.inj (here.symm.trans found)
      obtain ⟨valid,met⟩ := moved.meets stable holds spared valid met
      exact ⟨x',by rw [calls,Function.update_self],by rw [caller,caller,moved.kept.1,moved.kept.2],valid,met⟩
    · have evolves := moved.others ne holds (sound.calls d x found).1 valid
      exact ⟨call,by rw [calls,Function.update_of_ne (Ne.symm ne),here],rfl,evolves.valid,met.evolve stable evolves⟩

theorem Sound.step (sound : Sound C s) (taken : step invoke s a = some t) : Sound C t where
  bucket := by
    rcases stepCases taken with ⟨_,_,_,_,_,_,bucket,_⟩ | ⟨d,x,x',found,moved,_⟩
    · exact bucket ▸ sound.bucket
    · exact moved.holds sound found
  authors := by
    intro k o found
    have known (listed : s.bucket.find k = some o) : t.calls o.author ≠ none := by
      obtain ⟨call,here⟩ := Option.ne_none_iff_exists'.mp (sound.authors k o listed)
      obtain ⟨call',there,_⟩ := sound.callStep taken here (C.stable _) (.inl trivial) (sound.calls _ _ here).2
      simp [there]
    rcases stepCases taken with ⟨_,_,_,_,_,_,bucket,_⟩ | ⟨d,x,x',here,moved,calls⟩
    · exact known (bucket ▸ found)
    · rcases moved.bucket (sound.calls d x here).1 with bucket | ⟨k',b,_,_,bucket⟩ <;> rw [bucket] at found
      · exact known found
      · by_cases same : k = k'
        · rw [same,Bucket.find_put_self] at found
          simp [← Option.some.inj found,calls]
        · exact known (Bucket.find_put_ne same ▸ found)
  waits := by
    intro c call there
    rcases stepCases taken with ⟨d,process,i,m,_,_,_,calls⟩ | ⟨d,x,x',here,moved,calls⟩ <;>
      by_cases same : c = d
    · rw [same,calls,Function.update_self] at there
      cases there
      exact advanceWaits _ _
    · rw [calls,Function.update_of_ne same] at there
      exact sound.waits c call there
    · rw [same,calls,Function.update_self] at there
      cases there
      exact moved.waits (sound.waits d x here)
    · rw [calls,Function.update_of_ne same] at there
      exact sound.waits c call there
  calls := by
    intro c call' there
    cases here : s.calls c with
    | some call =>
      obtain ⟨next,found,who,valid,met⟩ :=
        sound.callStep taken here (C.stable _) (.inl trivial) (sound.calls _ _ here).2
      obtain rfl := Option.some.inj (there.symm.trans found)
      exact who ▸ ⟨valid,met⟩
    | none =>
      rcases stepCases taken with ⟨d,process,i,m,_,_,bucket,calls⟩ | ⟨d,x,x',found,_,calls⟩
      · have same : c = d := by
          by_contra ne
          rw [calls,Function.update_of_ne ne,here] at there
          cases there
        rw [same,calls,Function.update_self] at there
        cases there
        have fresh : ∀ k o, t.bucket.find k = some o → o.author ≠ c := by
          intro k o found author
          rw [bucket] at found
          exact sound.authors k o found (author ▸ here)
        have valid : StoreWorld.Valid C.discipline ⟨c,process,i⟩ ⟨t.bucket,.unsent,none⟩ :=
          ⟨bucket ▸ sound.bucket,by simp,fresh⟩
        exact ⟨valid,(C.starts ⟨c,process,i⟩ _ valid rfl).advance m⟩
      · have ne : c ≠ d := by rintro rfl; rw [found] at here; cases here
        rw [calls,Function.update_of_ne ne,here] at there
        cases there

theorem Sound.run (sound : Sound C s) (later : Transition.Reachable (ClientSystem.step invoke) s t) : Sound C t :=
  later.invariant sound fun _ _ _ sound taken => sound.step taken

theorem soundInitially {memory : Nat → μ} : Sound C (initial memory) :=
  ⟨C.discipline.empty,by rintro k o ⟨⟩,by rintro c call ⟨⟩,by rintro c call ⟨⟩⟩

theorem stepGrows (sound : Sound C s) (taken : step invoke s a = some t) : s.bucket ≤ t.bucket := by
  rcases stepCases taken with ⟨_,_,_,_,_,_,bucket,_⟩ | ⟨d,x,x',here,moved,_⟩
  · rw [bucket]
  · rcases moved.bucket (sound.calls d x here).1 with bucket | ⟨k,b,absent,_,bucket⟩ <;> rw [bucket]
    exact Bucket.le_put absent

theorem runGrows (sound : Sound C s) (later : Transition.Reachable (ClientSystem.step invoke) s t) :
    s.bucket ≤ t.bucket := by
  induction later with
  | start => exact le_refl _
  | next before _ taken ih => exact ih.trans (stepGrows (sound.run before) taken)

/-! ### A call whose requests do not fail -/

structure Unhindered (C : Contract invoke) (Q : StoreWorld β → Except ε ρ → Prop) (i : Caller (Nat × κ))
    (s : ClientSystem κ β ε μ ρ) (call : StoreCall κ β ε μ ρ) : Prop where
  sound : Sound C s
  here : s.calls i.id = some call
  who : caller i.id call = i
  met : call.client.Meets C.discipline i False Q (s.world call)

/-- From here the call can end without a fault of its own. -/
def Finishes (C : Contract invoke) (Q : StoreWorld β → Except ε ρ → Prop) (i : Caller (Nat × κ))
    (s : ClientSystem κ β ε μ ρ) : Prop :=
  ∃ t call r, Transition.ReachableUnder (ClientSystem.step invoke) (fun _ a => Spares i.id a) s t ∧
    Unhindered C Q i t call ∧ call.client = .finish r

theorem Finishes.before (taken : ClientSystem.step invoke s a = some t) (spares : Spares i.id a)
    (h : Finishes C Q i t) : Finishes C Q i s := by
  obtain ⟨u,call,r,later,running,ended⟩ := h
  exact ⟨u,call,r,.trans (.next .start spares taken) later,running,ended⟩

section
variable (kept : StableUnder C.discipline i Q)
include kept

theorem Unhindered.step (h : Unhindered C Q i s call) (taken : ClientSystem.step invoke s a = some t)
    (spares : Spares i.id a) : ∃ call', Unhindered C Q i t call' := by
  obtain ⟨call',there,who,_,met⟩ := h.sound.callStep taken h.here (h.who ▸ kept) (.inr spares) (h.who ▸ h.met)
  exact ⟨call',h.sound.step taken,there,who.trans h.who,h.who ▸ met⟩

theorem Unhindered.run (h : Unhindered C Q i s call)
    (later : Transition.ReachableUnder (ClientSystem.step invoke) (fun _ a => Spares i.id a) s t) :
    ∃ call', Unhindered C Q i t call' := by
  induction later with
  | start => exact ⟨call,h⟩
  | next _ spares taken ih =>
    obtain ⟨middle,running⟩ := ih
    exact running.step kept taken spares

theorem Unhindered.goes {call' : StoreCall κ β ε μ ρ} (h : Unhindered C Q i s call)
    (taken : ClientSystem.step invoke s a = some t) (spares : Spares i.id a) (there : t.calls i.id = some call') :
    Unhindered C Q i t call' := by
  obtain ⟨next,running⟩ := h.step kept taken spares
  obtain rfl := Option.some.inj (there.symm.trans running.here)
  exact running

theorem Unhindered.served {settle : Nat → Except Fault (Option β) → Except ε (Option β)}
    {slots : List (Nat × Option (Except ε (Option β)))} {next : Except ε (List (Option β)) → StoreClient β ε μ ρ}
    (h : Unhindered C Q i s call) (waiting : call.client = .fetch settle slots next)
    (all : ∀ {s call slots}, Unhindered C Q i s call → call.client = .fetch settle slots next →
      (∀ slot ∈ slots, slot.2 ≠ none) → Finishes C Q i s) : Finishes C Q i s := by
  induction open_ : slots.countP (·.2.isNone) generalizing s call slots with
  | zero =>
    refine all h waiting fun slot listed unanswered => ?_
    exact absurd open_ (Nat.ne_of_gt (List.countP_pos_iff.mpr ⟨slot,listed,by simp [unanswered]⟩))
  | succ m ih =>
    obtain ⟨⟨k,answer⟩,listed,unanswered⟩ := List.countP_pos_iff.mp (Nat.lt_of_lt_of_eq m.succ_pos open_.symm)
    obtain rfl : answer = none := Option.isNone_iff_eq_none.mp unanswered
    obtain ⟨n,bound,at_⟩ := List.getElem_of_mem listed
    have asked : slots[n]? = some (k,none) := List.getElem?_eq_some_iff.mpr ⟨bound,at_⟩
    have taken : ClientSystem.step invoke s (.serve i.id n 0) = some (s.setCall i.id
        { call with
          client := .fetch settle (slots.set n (k,some (settle k (.ok ((s.bucket.find k).map (·.body)))))) next }) := by
      simp [ClientSystem.step,h.here,waiting,StoreClient.serve,asked,StoreClient.lists]
    refine Finishes.before taken trivial ?_
    refine ih (h.goes kept taken trivial (Function.update_self ..)) rfl ?_
    rw [List.countP_set bound,open_,at_]
    simp

theorem Unhindered.completesFrom (m : μ) (p : StoreClient β ε μ ρ) (h : Unhindered C Q i s call)
    (now : call.client = (p.advance m).2) : Finishes C Q i s := by
  induction p generalizing s call m with
  | finish r => exact ⟨s,call,r,.start,h,now⟩
  | inspect next ih => exact ih m m h now
  | record m' next ih => exact ih m' h now
  | fetch settle slots next ih =>
    refine h.served kept now fun {s call slots} h waiting answered => ?_
    obtain ⟨n,r,woken⟩ : ∃ n r, (StoreClient.fetch settle slots next).wake n = some (next r) := StoreClient.wakes answered
    have taken : ClientSystem.step invoke s (.resume i.id n) = some (s.proceed i.id call (next r)) := by
      simp [ClientSystem.step,h.here,waiting,woken]
    exact Finishes.before taken trivial
      (ih r _ (h.goes kept taken trivial (Function.update_self ..)) rfl)
  | list k size answer next ih =>
    have answered {s call r} (h : Unhindered C Q i s call) (waiting : call.client = .list k size (some r) next) :
        Finishes C Q i s := by
      have taken : ClientSystem.step invoke s (.resume i.id 0) = some (s.proceed i.id call (next r)) := by
        simp [ClientSystem.step,h.here,waiting,StoreClient.wake]
      exact Finishes.before taken trivial
        (ih r _ (h.goes kept taken trivial (Function.update_self ..)) rfl)
    cases answer with
    | some r => exact answered h now
    | none =>
      have taken : ClientSystem.step invoke s (.serve i.id 0 0) = some (s.setCall i.id
          { call with client := .list k size (some (.ok (s.bucket.page k (min size 1)))) next, listed := some s.bucket }) := by
        simp [ClientSystem.step,h.here,show call.client = .list k size none next from now,StoreClient.serve,
          StoreClient.lists]
      exact Finishes.before taken trivial
        (answered (h.goes kept taken trivial (Function.update_self ..)) rfl)
  | put key body next ih =>
    have replied {s call} (h : Unhindered C Q i s call) (waiting : call.client = .put key body next)
        (known : call.upload = .stored key body ∨ call.upload = .refused key body) : Finishes C Q i s := by
      rcases known with stored | refused
      · have taken : ClientSystem.step invoke s (.answer i.id) = some (s.proceed i.id call (next .created)) := by
          simp [ClientSystem.step,h.here,waiting,stored]
        exact Finishes.before taken trivial
          (ih .created _ (h.goes kept taken trivial (Function.update_self ..)) rfl)
      · have taken : ClientSystem.step invoke s (.answer i.id) = some (s.proceed i.id call (next .uncertain)) := by
          simp [ClientSystem.step,h.here,waiting,refused]
        exact Finishes.before taken trivial
          (ih .uncertain _ (h.goes kept taken trivial (Function.update_self ..)) rfl)
    have arrives {s call} (h : Unhindered C Q i s call) (waiting : call.client = .put key body next)
        (sent : call.upload = .inFlight key body) : Finishes C Q i s := by
      cases found : s.bucket.find key with
      | none =>
        have taken : ClientSystem.step invoke s (.arrive i.id) = some ({ s with
            bucket := s.bucket.put key ⟨i.id,body⟩ }.setCall i.id { call with upload := .stored key body }) := by
          simp [ClientSystem.step,h.here,sent,found]
        exact Finishes.before taken trivial
          (replied (h.goes kept taken trivial (Function.update_self ..)) waiting (.inl rfl))
      | some o =>
        have taken : ClientSystem.step invoke s (.arrive i.id) =
            some (s.setCall i.id { call with upload := .refused key body }) := by
          simp [ClientSystem.step,h.here,sent,found]
        exact Finishes.before taken trivial
          (replied (h.goes kept taken trivial (Function.update_self ..)) waiting (.inr rfl))
    have waiting : call.client = .put key body next := now
    obtain ⟨kind,_⟩ := putting waiting h.met
    generalize upload : (s.world call).upload = u at kind
    cases kind with
    | unsent =>
      have taken : ClientSystem.step invoke s (.send i.id) =
          some (s.setCall i.id { call with upload := .inFlight key body }) := by
        simp [ClientSystem.step,h.here,waiting,show call.upload = .unsent from upload]
      exact Finishes.before taken trivial
        (arrives (h.goes kept taken trivial (Function.update_self ..)) waiting rfl)
    | inFlight => exact arrives h waiting upload
    | stored => exact replied h waiting (.inl upload)
    | refused => exact replied h waiting (.inr upload)

theorem Unhindered.completes (h : Unhindered C Q i s call) : Finishes C Q i s :=
  h.completesFrom kept (s.memory 0) call.client (by rw [h.sound.waits _ _ h.here])
end

end ClientSystem
end
