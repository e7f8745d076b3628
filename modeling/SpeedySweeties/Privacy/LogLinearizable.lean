import SpeedySweeties.Privacy.RecoveryLog

/-! The store of the journal as one log: whatever appenders and readers of a prefix do,
and whichever of their requests fail or lose their replies, an append takes effect with
its one put and a read with its last listing. -/
namespace SpeedySweeties
open S3Store StoreWorld

variable {ν : Type} {T : JsonText ν} {configs : Nat → RecoveryS3Config} {B C : Bucket (Authored (ProtectedEntry ν))}

theorem LogHolds.sequences (log : LogHolds B) : (bodies B).map (·.sequence) = List.range' 1 (bodies B).length := by
  have keyed : (bodies B).map (·.sequence) = B.keys := by
    simp only [bodies,Bucket.objects,Bucket.keys,List.map_map]
    exact List.map_congr_left fun row listed => log.numbered row.1 row.2 (Bucket.mem_rows.mp listed)
  rw [keyed,log.contiguous,bodies,List.length_map,Bucket.objects_length]

theorem LogHolds.body (log : LogHolds B) (n : Nat) : (bodies B)[n]? = (B.find (n + 1)).map (·.body) := by
  rw [bodies,List.getElem?_map,log.contiguous.object]

theorem LogHolds.grows (log : LogHolds B) (later : LogHolds C) (grown : B ≤ C) : bodies B <+: bodies C := by
  have matched : Matches C (bodies B) := by
    intro n e listed
    rw [log.body,Option.map_eq_some_iff] at listed
    obtain ⟨o,found,rfl⟩ := listed
    exact ⟨o,Bucket.find_mono grown found,rfl⟩
  refine List.prefix_iff_getElem?.mpr fun n bound => ?_
  obtain ⟨o,found,same⟩ := matched n _ (List.getElem?_eq_getElem bound)
  rw [later.body,found,← same]
  rfl

namespace S3System

abbrev Reaches (T : JsonText ν) (configs : Nat → RecoveryS3Config) : S3System ν → S3System ν → Prop :=
  Transition.Reachable (step T configs)

/-- Runs in which no request of the call fails or loses its reply. -/
abbrev ReachesSparing (T : JsonText ν) (configs : Nat → RecoveryS3Config) (c : Nat) : S3System ν → S3System ν → Prop :=
  Transition.ReachableUnder (step T configs) fun _ a => ClientSystem.Spares c a

def log (s : S3System ν) : List (ProtectedEntry ν) := bodies s.bucket

/-- How the call ended, if it did. -/
def ended (s : S3System ν) (c : Nat) : Option (Except RecoveryError (S3Result ν)) :=
  (s.calls c).bind (·.client.result)

def appends (s : S3System ν) (c : Nat) (expected : RecoveryHead) (e : ProtectedEntry ν) : Prop :=
  ∃ call, s.calls c = some call ∧ call.invocation = .append expected e

/-- The put of the call made an object, whatever the call learned of it. -/
def storedBy (s : S3System ν) (c : Nat) : Prop := ∃ k o, s.bucket.find k = some o ∧ o.author = c

structure Linearizable (T : JsonText ν) (configs : Nat → RecoveryS3Config) (s : S3System ν) : Prop where
  oneEach : s.log.map (·.sequence) = List.range' 1 s.log.length
  durable : ∀ t, Reaches T configs s t → s.log <+: t.log
  appended : ∀ c expected e r, s.appends c expected e → s.ended c = some (.ok r) →
    ∃ stored, s.log[expected.sequence]? = some stored ∧ stored.sequence = expected.sequence + 1 ∧
      stored.canonical T = e.canonical T
  refused : ∀ c expected e err, s.appends c expected e → s.ended c = some (.error err) →
    err.code ≠ "RECOVERY_WRITE_UNCERTAIN" → ¬ s.storedBy c
  repeated : ∀ c call expected e, s.calls c = some call → call.invocation = .append expected e → s.storedBy c →
    ∀ t, Reaches T configs s t → ∀ c' process u, configs process = configs call.process →
      step T configs t (.start c' process (.append expected e)) = some u →
      ∀ v, ReachesSparing T configs c' u v →
        ¬ v.storedBy c' ∧ (∀ r, v.ended c' = some r → r = .ok .appended) ∧
          ∃ x, ReachesSparing T configs c' v x ∧ x.ended c' = some (.ok .appended)
  complete : ∀ c head entries, s.ended c = some (.ok (.history head entries)) →
    ∃ call listed, s.calls c = some call ∧ call.listed = some listed ∧ bodies listed <+: s.log ∧
      entries = bodies listed ∧ head = lastHead entries

theorem endedIff {s : S3System ν} {c : Nat} {r : Except RecoveryError (S3Result ν)} :
    s.ended c = some r ↔ ∃ call, s.calls c = some call ∧ call.client = .finish r := by
  have finished (p : S3Client ν (S3Result ν)) : p.result = some r ↔ p = .finish r := by
    cases p <;> simp [StoreClient.result]
  simp [ended,Option.bind_eq_some_iff,finished]

abbrev SoundLog (T : JsonText ν) (configs : Nat → RecoveryS3Config) (s : S3System ν) : Prop :=
  ClientSystem.Sound (logContract T configs) s

variable {s t u : S3System ν} {c : Nat} {expected : RecoveryHead} {e : ProtectedEntry ν}

theorem soundReached (reached : Reaches T configs initial s) : SoundLog T configs s :=
  ClientSystem.soundInitially.run reached

theorem callEnds (sound : SoundLog T configs s) {call r} (here : s.calls c = some call) (finished : call.client = .finish r) :
    CallEnds T (ClientSystem.caller c call) (s.world call) r := by
  have met := (sound.calls c call here).2
  rw [finished] at met
  exact met

theorem storedSource (sound : SoundLog T configs s) {call} (here : s.calls c = some call)
    (append : call.invocation = .append expected e) (stored : s.storedBy c) :
    s.bucket.find (expected.sequence + 1) = some ⟨c,e.parsed T⟩ ∧ Checked T (configs call.process) expected e s.bucket := by
  obtain ⟨k,o,found,author⟩ := stored
  have recorded := (sound.calls c call here).1.upload
  cases upload : (s.world call).upload with
  | unsent | denied =>
    rw [upload] at recorded
    exact absurd author (recorded k o found)
  | inFlight | refused =>
    rw [upload] at recorded
    exact absurd author (recorded.1 k o found)
  | stored k' b =>
    rw [upload] at recorded
    obtain ⟨own,permits⟩ := recorded
    simp only [logContract,logDiscipline,LogPermits,ClientSystem.caller,append] at permits
    obtain ⟨rfl,rfl,checked⟩ := permits
    exact ⟨own,checked⟩

def RepeatEnds (w : StoreWorld (ProtectedEntry ν)) (r : Except RecoveryError (S3Result ν)) : Prop :=
  r = .ok .appended ∧ w.upload = .unsent

/-- A call that appends an entry the log has, none of whose requests fail. -/
abbrev Repeating (T : JsonText ν) (configs : Nat → RecoveryS3Config) (i : Caller (Nat × S3Invocation ν)) (s : S3System ν) :
    StoreCall (S3Invocation ν) (ProtectedEntry ν) RecoveryError RecoveryHead (S3Result ν) → Prop :=
  ClientSystem.Unhindered (logContract T configs) RepeatEnds i s

theorem repeatEndsStable {i : Caller (Nat × S3Invocation ν)} : StableUnder (logDiscipline T configs) i RepeatEnds :=
  fun _ _ _ moved ended => ⟨ended.1,moved.continues.unsent ended.2⟩

theorem Repeating.succeeds {i : Caller (Nat × S3Invocation ν)} {call r} (h : Repeating T configs i s call)
    (finished : call.client = .finish r) : r = .ok .appended := by
  have met := h.met
  rw [finished] at met
  exact met.1

theorem appendRepeated (sound : SoundLog T configs s) {call} (here : s.calls c = some call)
    (append : call.invocation = .append expected e) (stored : s.storedBy c) (later : Reaches T configs s t)
    {c' process : Nat} (same : configs process = configs call.process)
    (started : step T configs t (.start c' process (.append expected e)) = some u) :
    t.calls c' = none ∧ ∃ call', Repeating T configs ⟨c',process,.append expected e⟩ u call' := by
  obtain ⟨found,checked⟩ := storedSource sound here append stored
  have before := sound.run later
  have after := before.step started
  have grown := (ClientSystem.runGrows sound later).trans (ClientSystem.stepGrows before started)
  rcases ClientSystem.stepCases started with ⟨d,p,i,m,start,fresh,_,calls⟩ | ⟨d,x,x',_,moved,_⟩
  · cases start
    have there : u.calls c' = some ⟨process,.append expected e,((invoke T configs process (.append expected e)).advance m).2,.unsent,none⟩ := by
      rw [calls,Function.update_self]
    refine ⟨fresh,_,after,there,rfl,StoreClient.Meets.advance m (StoreClient.Meets.bind ?_)⟩
    refine (repeatMeets (after.calls c' _ there).1 rfl (same ▸ checked.grown grown) (Bucket.find_mono grown found) rfl).mono ?_
    rintro w r ⟨rfl,unsent⟩
    exact ⟨rfl,unsent⟩
  · cases moved

theorem linearizable (reached : Reaches T configs initial s) : Linearizable T configs s where
  oneEach := (soundReached reached).bucket.sequences
  durable t later := by
    have sound := soundReached reached
    exact sound.bucket.grows (sound.run later).bucket (ClientSystem.runGrows sound later)
  appended c expected e r appends ended := by
    have sound := soundReached reached
    obtain ⟨call,here,append⟩ := appends
    obtain ⟨call',here',finished⟩ := endedIff.mp ended
    obtain rfl := Option.some.inj (here.symm.trans here')
    have ends := callEnds sound here finished
    simp only [CallEnds,ClientSystem.caller,append] at ends
    obtain ⟨_,o,found,same⟩ := ends
    exact ⟨o.body,by rw [log,sound.bucket.body,show s.bucket.find (expected.sequence + 1) = some o from found]; rfl,
      sound.bucket.numbered _ o found,same⟩
  refused c expected e err appends ended certain := by
    have sound := soundReached reached
    obtain ⟨call,here,append⟩ := appends
    obtain ⟨call',here',finished⟩ := endedIff.mp ended
    obtain rfl := Option.some.inj (here.symm.trans here')
    have ends := callEnds sound here finished
    simp only [CallEnds,ClientSystem.caller,append] at ends
    rintro ⟨k,o,found,author⟩
    exact NeverStored.absent (sound.calls c call here).1.upload rfl (ends.2 certain) k o found author
  repeated c call expected e here append stored t later c' process u same started v spared := by
    have sound := soundReached reached
    obtain ⟨fresh,_,running⟩ := appendRepeated sound here append stored later same started
    obtain ⟨call',now⟩ := running.run repeatEndsStable spared
    refine ⟨fun own => ?_,fun r finished => ?_,?_⟩
    · have append' : call'.invocation = .append expected e := congrArg (·.role.2) now.who
      have found := (storedSource now.sound now.here append' own).1
      have first := (storedSource sound here append stored).1
      have grown := (ClientSystem.runGrows sound later).trans ((ClientSystem.stepGrows (sound.run later) started).trans
        (ClientSystem.runGrows running.sound spared.reachable))
      have same := (Bucket.find_mono grown first).symm.trans found
      have author : c = c' := congrArg (·.author) (Option.some.inj same)
      exact (sound.run later).authors _ _ (Bucket.find_mono (ClientSystem.runGrows sound later) first) (author ▸ fresh)
    · obtain ⟨call,found,finished⟩ := endedIff.mp finished
      obtain rfl := Option.some.inj (found.symm.trans now.here)
      exact Repeating.succeeds now finished
    · obtain ⟨x,call,r,last,done,finished⟩ := now.completes repeatEndsStable
      exact ⟨x,last,endedIff.mpr ⟨call,done.here,Repeating.succeeds done finished ▸ finished⟩⟩
  complete c head entries ended := by
    have sound := soundReached reached
    obtain ⟨call,here,finished⟩ := endedIff.mp ended
    have ends := callEnds sound here finished
    have valid := (sound.calls c call here).1
    unfold CallEnds at ends
    cases invocation : (ClientSystem.caller c call).role.2 with
    | append expected e =>
      rw [invocation] at ends
      exact absurd rfl (ends.1 head entries)
    | read =>
      rw [invocation] at ends
      obtain ⟨B,listed,whole,last⟩ := ends head entries rfl
      exact ⟨call,B,here,listed,(valid.listed B listed).1.grows sound.bucket (valid.listed B listed).2,whole,last⟩

/-! ### A lost acknowledgement -/

def sampleText : JsonText Nat where
  numberText n := some (toString n)
  toISOString n := toString n
  count := id
  counted _ := rfl
  reorder fields := fields
  reordered _ := .refl _

def sampleEnrollment : RecoveryS3Config := ⟨"production",.enrollment⟩

def sampleGenesis : ProtectedEntry Nat where
  sequence := 1
  hash := String.ofList (List.replicate 64 'a')
  previous := ""
  scope := "production"
  kind := .genesis
  operation := "coverage"
  payload := .object [("format",.number 1),("emptyDecisionBaseline",.bool true)]
  distinct := by simp [Json.Distinct,Json.DistinctFields]

/-- The put arrives, its reply and the reply to the listing after it do not. -/
def lostSteps : List (ClientAction (S3Invocation Nat)) :=
  [.start 0 0 (.append ⟨0,""⟩ sampleGenesis),.serve 0 0 0,.resume 0 0,.send 0,.arrive 0,.lose 0,.fail 0 0 .unavailable,
    .resume 0 0]

/-- The same append by another process, once the entry is there. -/
def repeatSteps : List (ClientAction (S3Invocation Nat)) :=
  [.start 1 1 (.append ⟨0,""⟩ sampleGenesis),.serve 1 0 0,.resume 1 0,.serve 1 0 0,.resume 1 0]

def endCode (s : S3System Nat) (c : Nat) : Option String :=
  (s.ended c).map fun r =>
    match r with
    | .ok _ => "done"
    | .error err => err.code

theorem lostRunLinearizable : ∃ s : S3System Nat, endCode s 0 = some "RECOVERY_WRITE_UNCERTAIN" ∧ endCode s 1 = some "done" ∧
    s.log.length = 1 ∧ Linearizable sampleText (fun _ => sampleEnrollment) s := by
  have ends : (Transition.run (step sampleText fun _ => sampleEnrollment) initial (lostSteps ++ repeatSteps)).map
      (fun s => (endCode s 0,endCode s 1,s.log.length)) = some (some "RECOVERY_WRITE_UNCERTAIN",some "done",1) := by
    decide +kernel
  obtain ⟨s,ran,last⟩ := Option.map_eq_some_iff.mp ends
  simp only [Prod.mk.injEq] at last
  exact ⟨s,last.1,last.2.1,last.2.2,linearizable (Transition.runReachable .start ran)⟩

end S3System
end SpeedySweeties
