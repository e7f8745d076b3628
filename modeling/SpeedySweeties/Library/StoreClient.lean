import SpeedySweeties.Library.ObjectStore
import SpeedySweeties.Library.Transition

/-! Clients of an object store as programs of requests. The store answers each request
at a moment of its own, a reply may be lost, and a put whose reply was lost may still
arrive at any later time. `author` and `listed` are only recorded, never read. -/

inductive Fault where | forbidden | unavailable deriving DecidableEq, Repr
inductive PutAnswer where | created | forbidden | uncertain deriving DecidableEq, Repr

structure Authored (β : Type) where
  author : Nat
  body : β

/-- `fetch` asks for several objects at once and goes on with the first error or with all
of them; `inspect` and `record` read and write the memory of the client's process. -/
inductive StoreClient (β ε μ α : Type) where
  | finish (result : Except ε α)
  | fetch (settle : Nat → Except Fault (Option β) → Except ε (Option β))
      (slots : List (Nat × Option (Except ε (Option β)))) (next : Except ε (List (Option β)) → StoreClient β ε μ α)
  | list (after size : Nat) (answer : Option (Except Fault Page)) (next : Except Fault Page → StoreClient β ε μ α)
  | put (key : Nat) (body : β) (next : PutAnswer → StoreClient β ε μ α)
  | inspect (next : μ → StoreClient β ε μ α)
  | record (memory : μ) (next : StoreClient β ε μ α)

/-- How far the one put of a call has come. -/
inductive Upload (β : Type) where
  | unsent
  | inFlight (key : Nat) (body : β)
  | stored (key : Nat) (body : β)
  | refused (key : Nat) (body : β)
  | denied

namespace StoreClient
variable {β ε μ α γ : Type}

/-- What follows the end of `p`, regular or not. -/
def andThen (p : StoreClient β ε μ α) (f : Except ε α → StoreClient β ε μ γ) : StoreClient β ε μ γ :=
  match p with
  | finish r => f r
  | fetch settle slots next => fetch settle slots fun r => (next r).andThen f
  | list k size answer next => list k size answer fun r => (next r).andThen f
  | put key body next => put key body fun r => (next r).andThen f
  | inspect next => inspect fun m => (next m).andThen f
  | record m next => record m (next.andThen f)

def bind (p : StoreClient β ε μ α) (f : α → StoreClient β ε μ γ) : StoreClient β ε μ γ :=
  p.andThen fun
    | .ok a => f a
    | .error e => finish (.error e)

def recover (p : StoreClient β ε μ α) (handle : ε → StoreClient β ε μ α) : StoreClient β ε μ α :=
  p.andThen fun
    | .ok a => finish (.ok a)
    | .error e => handle e

instance : Monad (StoreClient β ε μ) where
  pure a := finish (.ok a)
  bind := bind

instance : MonadExcept ε (StoreClient β ε μ) where
  throw e := finish (.error e)
  tryCatch := recover

/-- What runs without waiting. -/
def advance (m : μ) : StoreClient β ε μ α → μ × StoreClient β ε μ α
  | inspect next => advance m (next m)
  | record m' next => advance m' next
  | p => (m,p)

def serve (B : Bucket (Authored β)) (slot limit : Nat) : StoreClient β ε μ α → Option (StoreClient β ε μ α)
  | fetch settle slots next =>
    match slots[slot]? with
    | some (k,none) => some (fetch settle (slots.set slot (k,some (settle k (.ok ((B.find k).map (·.body)))))) next)
    | _ => none
  | list k size none next => some (list k size (some (.ok (B.page k (min size (limit + 1))))) next)
  | _ => none

def fail (slot : Nat) (fault : Fault) : StoreClient β ε μ α → Option (StoreClient β ε μ α)
  | fetch settle slots next =>
    match slots[slot]? with
    | some (k,none) => some (fetch settle (slots.set slot (k,some (settle k (.error fault)))) next)
    | _ => none
  | list k size none next => some (list k size (some (.error fault)) next)
  | _ => none

def values (slots : List (Nat × Option (Except ε (Option β)))) : Option (List (Option β)) :=
  slots.mapM fun slot => slot.2.bind Except.toOption

def wake (slot : Nat) : StoreClient β ε μ α → Option (StoreClient β ε μ α)
  | fetch _ slots next =>
    match slots[slot]?.bind (·.2) with
    | some (.error e) => some (next (.error e))
    | _ => (values slots).map fun found => next (.ok found)
  | list _ _ (some r) next => some (next r)
  | _ => none

def result : StoreClient β ε μ α → Option (Except ε α)
  | finish r => some r
  | _ => none

def lists : StoreClient β ε μ α → Bool
  | list .. => true
  | _ => false

end StoreClient

structure StoreCall (κ β ε μ ρ : Type) where
  process : Nat
  invocation : κ
  client : StoreClient β ε μ ρ
  upload : Upload β
  listed : Option (Bucket (Authored β))

structure ClientSystem (κ β ε μ ρ : Type) where
  bucket : Bucket (Authored β)
  memory : Nat → μ
  calls : Nat → Option (StoreCall κ β ε μ ρ)

inductive ClientAction (κ : Type) where
  | start (call process : Nat) (invocation : κ)
  | serve (call slot limit : Nat)
  | fail (call slot : Nat) (fault : Fault)
  | resume (call slot : Nat)
  | send (call : Nat)
  | arrive (call : Nat)
  | answer (call : Nat)
  | deny (call : Nat)
  | lose (call : Nat)
  deriving DecidableEq, Repr

namespace ClientSystem
variable {κ β ε μ ρ : Type}

def setCall (s : ClientSystem κ β ε μ ρ) (c : Nat) (call : StoreCall κ β ε μ ρ) : ClientSystem κ β ε μ ρ :=
  { s with calls := Function.update s.calls c (some call) }

/-- The client goes on until it waits again. -/
def proceed (s : ClientSystem κ β ε μ ρ) (c : Nat) (call : StoreCall κ β ε μ ρ) (client : StoreClient β ε μ ρ) :
    ClientSystem κ β ε μ ρ :=
  let ready := client.advance (s.memory call.process)
  { s with memory := Function.update s.memory call.process ready.1 }.setCall c { call with client := ready.2 }

def initial (memory : Nat → μ) : ClientSystem κ β ε μ ρ := ⟨.empty,memory,fun _ => none⟩

variable (invoke : Nat → κ → StoreClient β ε μ ρ)

def step (s : ClientSystem κ β ε μ ρ) : ClientAction κ → Option (ClientSystem κ β ε μ ρ)
  | .start c process invocation =>
    match s.calls c with
    | some _ => none
    | none =>
      let client := invoke process invocation
      some (s.proceed c ⟨process,invocation,client,.unsent,none⟩ client)
  | .serve c slot limit => do
    let call ← s.calls c
    let client ← call.client.serve s.bucket slot limit
    some (s.setCall c
      { call with client := client, listed := if call.client.lists then some s.bucket else call.listed })
  | .fail c slot fault => do
    let call ← s.calls c
    let client ← call.client.fail slot fault
    some (s.setCall c { call with client := client })
  | .resume c slot => do
    let call ← s.calls c
    let client ← call.client.wake slot
    some (s.proceed c call client)
  | .send c => do
    let call ← s.calls c
    match call.client, call.upload with
    | .put key body _, .unsent => some (s.setCall c { call with upload := .inFlight key body })
    | _, _ => none
  | .arrive c => do
    let call ← s.calls c
    match call.upload with
    | .inFlight key body =>
      match s.bucket.find key with
      | none =>
        some ({ s with bucket := s.bucket.put key ⟨c,body⟩ }.setCall c { call with upload := .stored key body })
      | some _ => some (s.setCall c { call with upload := .refused key body })
    | _ => none
  | .answer c => do
    let call ← s.calls c
    match call.client, call.upload with
    | .put _ _ next, .stored _ _ => some (s.proceed c call (next .created))
    | .put _ _ next, .refused _ _ => some (s.proceed c call (next .uncertain))
    | _, _ => none
  | .deny c => do
    let call ← s.calls c
    match call.client, call.upload with
    | .put _ _ next, .inFlight _ _ => some (s.proceed c { call with upload := .denied } (next .forbidden))
    | _, _ => none
  | .lose c => do
    let call ← s.calls c
    match call.client with
    | .put _ _ next => some (s.proceed c call (next .uncertain))
    | _ => none

end ClientSystem
