import SpeedySweeties.Privacy.RecoveryS3

/-! The log that the appenders of one prefix build: an append stores its entry only after
the entry before it, and knows afterwards whether it did unless it says so; a read returns
the log of its last listing. -/
namespace SpeedySweeties
open S3Store StoreWorld

variable {ν : Type} {T : JsonText ν} {config : RecoveryS3Config} {B C : Bucket (Authored (ProtectedEntry ν))}
  {expected : RecoveryHead} {e : ProtectedEntry ν} {k : Nat}

def bodies (B : Bucket (Authored (ProtectedEntry ν))) : List (ProtectedEntry ν) := B.objects.map (·.body)

/-- The object under the key is readable and has the hash. -/
def Held (T : JsonText ν) (config : RecoveryS3Config) (B : Bucket (Authored (ProtectedEntry ν))) (k : Nat)
    (hash : String) : Prop :=
  ∃ o, B.find k = some o ∧ received T config k (.ok (some o.body)) = .ok (some o.body) ∧ o.body.hash = hash

/-- What an append has checked when it puts its entry. -/
structure Checked (T : JsonText ν) (config : RecoveryS3Config) (expected : RecoveryHead) (e : ProtectedEntry ν)
    (B : Bucket (Authored (ProtectedEntry ν))) : Prop where
  valid : appendInvalid config expected e = false
  adds : config.mode.adds e.kind = true
  size : e.bytes T ≤ maxEntryBytes
  genesis : ∀ hash, config.mode = .active hash → Held T config B 1 hash
  prior : expected.sequence ≠ 0 → Held T config B expected.sequence expected.hash

theorem Held.grown {hash : String} (grown : B ≤ C) (h : Held T config B k hash) : Held T config C k hash := by
  obtain ⟨o,found,readable,same⟩ := h
  exact ⟨o,Bucket.find_mono grown found,readable,same⟩

theorem Checked.grown (grown : B ≤ C) (h : Checked T config expected e B) : Checked T config expected e C :=
  ⟨h.valid,h.adds,h.size,fun hash mode => (h.genesis hash mode).grown grown,fun later => (h.prior later).grown grown⟩

theorem Checked.entryValid (h : Checked T config expected e B) : config.valid e (expected.sequence + 1) = true := by
  have valid := h.valid
  simp only [appendInvalid,Bool.or_eq_false_iff,Bool.not_eq_false'] at valid
  exact valid.1.1.2

theorem validSequence {k : Nat} (h : config.valid e k = true) : e.sequence = k := by
  simp only [RecoveryS3Config.valid,Bool.and_eq_true,decide_eq_true_eq] at h
  exact h.1.1.1.1.1

/-- Entries stand under their numbers, which are the first ones. -/
structure LogHolds (B : Bucket (Authored (ProtectedEntry ν))) : Prop where
  contiguous : B.Contiguous
  numbered : ∀ k o, B.find k = some o → o.body.sequence = k

def LogPermits (T : JsonText ν) (config : Nat → RecoveryS3Config) (i : Nat × S3Invocation ν) (B : Bucket (Authored (ProtectedEntry ν)))
    (k : Nat) (b : ProtectedEntry ν) : Prop :=
  match i.2 with
  | .append expected e => k = expected.sequence + 1 ∧ b = e.parsed T ∧ Checked T (config i.1) expected e B
  | .read => False

theorem LogHolds.empty : LogHolds (.empty : Bucket (Authored (ProtectedEntry ν))) := ⟨Bucket.emptyContiguous,by rintro k o ⟨⟩⟩

theorem LogPermits.put (T : JsonText ν) (config : Nat → RecoveryS3Config) {i : Nat × S3Invocation ν}
    {B : Bucket (Authored (ProtectedEntry ν))} {k : Nat} {b : ProtectedEntry ν} (author : Nat) (holds : LogHolds B)
    (permits : LogPermits T config i B k b) (absent : B.find k = none) : LogHolds (B.put k ⟨author,b⟩) := by
  obtain ⟨process,invocation⟩ := i
  obtain ⟨contiguous,numbered⟩ := holds
  cases invocation with
  | read => cases permits
  | append expected e =>
    obtain ⟨rfl,rfl,checked⟩ := permits
    have follows : expected.sequence + 1 = 1 ∨ 1 < expected.sequence + 1 ∧ expected.sequence + 1 - 1 ∈ B.keys := by
      by_cases first : expected.sequence = 0
      · exact .inl (by omega)
      · obtain ⟨o,found,_⟩ := checked.prior first
        exact .inr ⟨by omega,Bucket.mem_keys.mpr ⟨o,found⟩⟩
    refine ⟨contiguous.put absent follows,fun k o found => ?_⟩
    by_cases same : k = expected.sequence + 1
    · rw [same,Bucket.find_put_self] at found
      cases found
      exact same ▸ validSequence checked.entryValid
    · exact numbered k o (Bucket.find_put_ne same ▸ found)

theorem LogPermits.grown (T : JsonText ν) (config : Nat → RecoveryS3Config) {i : Nat × S3Invocation ν}
    {B C : Bucket (Authored (ProtectedEntry ν))} {k : Nat} {b : ProtectedEntry ν} (grown : B ≤ C) (permits : LogPermits T config i B k b) :
    LogPermits T config i C k b := by
  obtain ⟨process,invocation⟩ := i
  cases invocation with
  | read => exact permits
  | append expected e => exact ⟨permits.1,permits.2.1,permits.2.2.grown grown⟩

def logDiscipline (T : JsonText ν) (config : Nat → RecoveryS3Config) :
    Discipline (Nat × S3Invocation ν) (ProtectedEntry ν) where
  holds := LogHolds
  permits := LogPermits T config
  empty := LogHolds.empty
  put := @LogPermits.put ν T config
  grown := @LogPermits.grown ν T config

/-! ### Requests -/

theorem receivedOk {found v : Option (ProtectedEntry ν)} (h : received T config k (.ok found) = .ok v) : v = found := by
  cases found with
  | none => cases h; rfl
  | some e =>
    simp only [received] at h
    split at h
    · cases h
    · split at h <;> cases h
      rfl

variable {configs : Nat → RecoveryS3Config} {i : Caller (Nat × S3Invocation ν)} {faults : Prop}
  {w : StoreWorld (ProtectedEntry ν)} {o : Authored (ProtectedEntry ν)}

theorem givesOk {v : Option (ProtectedEntry ν)}
    (given : Gives (logDiscipline T configs) faults B C (received T config) (k,none) (.ok v)) :
    ∃ E, B ≤ E ∧ E ≤ C ∧ v = (E.find k).map (·.body) ∧ received T config k (.ok v) = .ok v := by
  rcases given with ⟨E,low,high,_,answer⟩ | ⟨_,fault,answer⟩
  · obtain rfl := receivedOk answer.symm
    exact ⟨E,low,high,rfl,answer.symm⟩
  · cases answer

theorem givesHeld {answer : Except RecoveryError (Option (ProtectedEntry ν))} (found : B.find k = some o)
    (readable : received T config k (.ok (some o.body)) = .ok (some o.body))
    (given : Gives (logDiscipline T configs) faults B C (received T config) (k,none) answer) :
    faults ∨ answer = .ok (some o.body) := by
  rcases given with ⟨E,low,_,_,answer⟩ | ⟨faulty,_⟩
  · rw [Bucket.find_mono low found] at answer
    exact .inr (answer.trans readable)
  · exact .inl faulty

variable {Q : StoreWorld (ProtectedEntry ν) → Except RecoveryError (Option (ProtectedEntry ν)) → Prop}

theorem getMeets (good : ∀ w' v, Continues (logDiscipline T configs) i w w' →
      Gives (logDiscipline T configs) faults w.bucket w'.bucket (received T config) (k,none) (.ok v) → Q w' (.ok v))
    (bad : ∀ w' err, Continues (logDiscipline T configs) i w w' →
      Gives (logDiscipline T configs) faults w.bucket w'.bucket (received T config) (k,none) (.error err) → Q w' (.error err)) :
    (get T config k).Meets (logDiscipline T configs) i faults Q w := by
  refine StoreClient.Meets.bind (StoreClient.Meets.ask (fun w' found on given => ?_) fun w' k' err on asked given => ?_)
  · cases given with
    | cons first rest =>
      cases rest
      exact good w' _ on first
  · obtain rfl : k' = k := by simpa using asked
    exact bad w' err on given

theorem listKeysMeets {size : Nat} {Q : StoreWorld (ProtectedEntry ν) → Except RecoveryError Page → Prop}
    (good : ∀ w' C limit, Continues (logDiscipline T configs) i w w' → w'.listed = some C → w.bucket ≤ C →
      C ≤ w'.bucket → LogHolds C → Q w' (.ok (C.page k (min size (limit + 1)))))
    (bad : faults → ∀ w' err, Continues (logDiscipline T configs) i w w' → Q w' (.error err)) :
    (listKeys k size).Meets (logDiscipline T configs) i faults Q w :=
  StoreClient.Meets.lists good fun faulty w' _ on => bad faulty w' _ on

theorem pageOne (log : LogHolds B) : (B.page k 1).keys = if k < B.rows.length then [k + 1] else [] := by
  change (B.keysAfter k).take 1 = _
  rw [log.contiguous.keysAfter]
  split
  · rename_i more
    rw [show B.rows.length - k = B.rows.length - k - 1 + 1 by omega,List.range'_succ]
    rfl
  · rename_i last
    rw [show B.rows.length - k = 0 by omega]
    rfl

theorem pageEmpty (log : LogHolds B) (last : B.rows.length ≤ k) : (B.page k 1).truncated = false := by
  simp [Bucket.page,log.contiguous.keysAfter,show B.rows.length - k = 0 by omega]

/-- Nothing after the number, or the object there; a fault or an unreadable object otherwise. -/
theorem successorMeets
    (last : ∀ w' C, Continues (logDiscipline T configs) i w w' → w'.listed = some C → w.bucket ≤ C → LogHolds C →
      C.rows.length ≤ k → Q w' (.ok none))
    (next : ∀ w' o, Continues (logDiscipline T configs) i w w' → w'.bucket.find (k + 1) = some o → Q w' (.ok (some o.body)))
    (bad : ∀ w' err, Continues (logDiscipline T configs) i w w' →
      (faults ∨ ∃ o, w'.bucket.find (k + 1) = some o ∧
        received T config (k + 1) (.ok (some o.body)) ≠ .ok (some o.body)) → Q w' (.error err)) :
    (successor T config k).Meets (logDiscipline T configs) i faults Q w := by
  refine StoreClient.Meets.bind (listKeysMeets (fun w' C limit on listed low high log => ?_) fun faulty w' err on => ?_)
  · dsimp only
    rw [show min 1 (limit + 1) = 1 by omega,pageOne log]
    by_cases more : k < C.rows.length
    · rw [if_pos more]
      obtain ⟨o,found⟩ := Bucket.mem_keys.mp (log.contiguous.mem.mpr ⟨by omega,more⟩ : k + 1 ∈ C.keys)
      have here := Bucket.find_mono high found
      simp only [ne_eq,not_true_eq_false,if_false]
      refine StoreClient.Meets.bind (getMeets (fun w'' v on' given => ?_) fun w'' err on' given => ?_)
      · obtain ⟨E,low',high',rfl,_⟩ := givesOk given
        rw [Bucket.find_mono low' here]
        exact next w'' o (on.trans on') (Bucket.find_mono high' (Bucket.find_mono low' here))
      · refine bad w'' err (on.trans on') ?_
        by_cases readable : received T config (k + 1) (.ok (some o.body)) = .ok (some o.body)
        · exact .inl ((givesHeld here readable given).resolve_right nofun)
        · exact .inr ⟨o,Bucket.find_mono on'.bucket here,readable⟩
    · rw [if_neg more]
      dsimp only
      rw [pageEmpty log (by omega)]
      exact last w' C on listed low log (by omega)
  · exact bad w' err on (.inl faulty)

/-! ### append -/

/-- The call's entry is in no object, nor will it be. -/
def NeverStored (id : Nat) (w : StoreWorld (ProtectedEntry ν)) : Prop :=
  match w.upload with
  | .stored _ _ => False
  | .inFlight k _ => ∃ o, w.bucket.find k = some o ∧ o.author ≠ id
  | _ => True

def AppendEnds (T : JsonText ν) (expected : RecoveryHead) (e : ProtectedEntry ν) (id : Nat)
    (w : StoreWorld (ProtectedEntry ν)) : Except RecoveryError Unit → Prop
  | .ok _ => ∃ o, w.bucket.find (expected.sequence + 1) = some o ∧ o.body.canonical T = e.canonical T
  | .error err => err.code ≠ "RECOVERY_WRITE_UNCERTAIN" → NeverStored id w

theorem NeverStored.unsent {id : Nat} (unsent : w.upload = .unsent) : NeverStored id w := by
  rw [NeverStored,unsent]
  trivial

theorem NeverStored.evolves {w' : StoreWorld (ProtectedEntry ν)} (moved : Evolves (logDiscipline T configs) i w w')
    (h : NeverStored i.id w) : NeverStored i.id w' := by
  have recorded := moved.valid.upload
  have arrives := moved.upload
  unfold NeverStored at h ⊢
  generalize w.upload = u at h arrives
  generalize w'.upload = u' at recorded arrives ⊢
  cases arrives with
  | same =>
    cases u with
    | inFlight k b =>
      obtain ⟨o,found,other⟩ := h
      exact ⟨o,Bucket.find_mono moved.bucket found,other⟩
    | unsent | stored | refused | denied => exact h
  | stored k b =>
    obtain ⟨o,found,other⟩ := h
    have same := (Bucket.find_mono moved.bucket found).symm.trans recorded.1
    cases Option.some.inj same
    exact other rfl
  | refused k b => trivial

theorem NeverStored.absent {id : Nat} (recorded : w.upload.Recorded (logDiscipline T configs) i w.bucket)
    (same : i.id = id) (h : NeverStored id w) : ∀ k o, w.bucket.find k = some o → o.author ≠ id := by
  subst same
  unfold NeverStored at h
  cases upload : w.upload with
  | stored k b => rw [upload] at h; cases h
  | unsent | denied => rw [upload] at recorded; exact recorded
  | inFlight k b | refused k b => rw [upload] at recorded; exact recorded.1

section
variable {Q : StoreWorld (ProtectedEntry ν) → Except RecoveryError Unit → Prop}

theorem hashMeets {hash code : String} (good : ∀ w', Continues (logDiscipline T configs) i w w' →
      Held T config w'.bucket k hash → Q w' (.ok ()))
    (bad : ∀ w' err, Continues (logDiscipline T configs) i w w' → (faults ∨ ¬ Held T config w.bucket k hash) →
      Q w' (.error err)) :
    (do let found ← get T config k
        if found.map (·.hash) ≠ some hash then fail code else pure () : S3Client ν Unit).Meets
      (logDiscipline T configs) i faults Q w := by
  have missed {w' : StoreWorld (ProtectedEntry ν)} {answer}
      (given : Gives (logDiscipline T configs) faults w.bucket w'.bucket (received T config) (k,none) answer)
      (other : ∀ o : Authored (ProtectedEntry ν), o.body.hash = hash → answer ≠ .ok (some o.body)) :
      faults ∨ ¬ Held T config w.bucket k hash := by
    by_cases held : Held T config w.bucket k hash
    · obtain ⟨o,found,readable,same⟩ := held
      exact .inl ((givesHeld found readable given).resolve_right (other o same))
    · exact .inr held
  refine StoreClient.Meets.bind (getMeets (fun w' v on given => ?_) fun w' err on given => ?_)
  · dsimp only
    split
    · rename_i differs
      exact bad w' _ on (missed given fun o same answer => differs (by cases answer; simp [same]))
    · rename_i same
      obtain ⟨E,_,high,shown,readable⟩ := givesOk given
      obtain ⟨e,rfl,hash⟩ := Option.map_eq_some_iff.mp (not_not.mp same)
      obtain ⟨o,found,rfl⟩ := Option.map_eq_some_iff.mp shown.symm
      exact good w' on ⟨o,Bucket.find_mono high found,readable,hash⟩
  · exact bad w' err on (missed given fun o same answer => by cases answer)

theorem checkGenesisMeets (valid : w.Valid (logDiscipline T configs) i)
    (good : ∀ w', Continues (logDiscipline T configs) i w w' →
      (∀ hash, config.mode = .active hash → Held T config w'.bucket 1 hash) → Q w' (.ok ()))
    (bad : ∀ w' err, Continues (logDiscipline T configs) i w w' →
      (faults ∨ ∃ hash, config.mode = .active hash ∧ ¬ Held T config w.bucket 1 hash) → Q w' (.error err)) :
    (checkGenesis T config).Meets (logDiscipline T configs) i faults Q w := by
  unfold checkGenesis
  split
  · rename_i hash mode
    refine hashMeets (fun w' on held => good w' on fun hash' mode' => ?_) fun w' err on missed =>
      bad w' err on (missed.imp_right fun missing => ⟨hash,mode,missing⟩)
    cases mode.symm.trans mode'
    exact held
  · rename_i inactive
    exact good w valid.continues fun hash mode => absurd mode (inactive hash)

theorem checkPriorMeets (valid : w.Valid (logDiscipline T configs) i)
    (good : ∀ w', Continues (logDiscipline T configs) i w w' →
      (expected.sequence ≠ 0 → Held T config w'.bucket expected.sequence expected.hash) → Q w' (.ok ()))
    (bad : ∀ w' err, Continues (logDiscipline T configs) i w w' →
      (faults ∨ expected.sequence ≠ 0 ∧ ¬ Held T config w.bucket expected.sequence expected.hash) → Q w' (.error err)) :
    (checkPrior T config expected).Meets (logDiscipline T configs) i faults Q w := by
  unfold checkPrior
  split
  · rename_i first
    exact good w valid.continues fun later => absurd first later
  · rename_i later
    exact hashMeets (fun w' on held => good w' on fun _ => held) fun w' err on missed =>
      bad w' err on (missed.imp_right fun missing => ⟨later,missing⟩)

theorem rememberAppendedMeets (ends : Q w (.ok ())) :
    (rememberAppended e).Meets (logDiscipline T configs) i faults Q w := by
  intro observed
  dsimp only
  split
  · rename_i newer
    rw [remember,if_neg (by dsimp only; omega)]
    exact ends
  · exact ends

theorem resolvePutMeets {answer : PutAnswer} (valid : w.Valid (logDiscipline T configs) i)
    (role : i.role.2 = .append expected e) (created : answer = .created → ∃ k b, w.upload = .stored k b)
    (forbidden : answer = .forbidden → w.upload = .denied) :
    (resolvePut T config expected e answer).Meets (logDiscipline T configs) i faults (AppendEnds T expected e i.id) w := by
  have stored {w : StoreWorld (ProtectedEntry ν)} {k b} (valid : w.Valid (logDiscipline T configs) i)
      (upload : w.upload = .stored k b) :
      k = expected.sequence + 1 ∧ b = e.parsed T ∧ w.bucket.find k = some ⟨i.id,b⟩ := by
    have recorded := valid.upload
    rw [upload] at recorded
    obtain ⟨found,permits⟩ := recorded
    simp only [logDiscipline,LogPermits,role] at permits
    exact ⟨permits.1,permits.2.1,found⟩
  cases answer with
  | created =>
    obtain ⟨k,b,upload⟩ := created rfl
    obtain ⟨rfl,rfl,found⟩ := stored valid upload
    exact rememberAppendedMeets ⟨_,found,ProtectedEntry.canonical_parsed T e⟩
  | forbidden =>
    intro _
    rw [NeverStored,forbidden rfl]
    trivial
  | uncertain =>
    refine StoreClient.Meets.bind (StoreClient.Meets.recover (successorMeets ?_ ?_ ?_))
    · intro w' C on listed low log last certain
      exact absurd rfl certain
    · intro w' o on found
      dsimp only
      split
      · rename_i differs
        intro _
        unfold NeverStored
        have recorded := on.valid.upload
        cases upload : w'.upload with
        | stored k b =>
          obtain ⟨rfl,rfl,own⟩ := stored on.valid upload
          rw [own] at found
          cases found
          exact differs (ProtectedEntry.canonical_parsed T e)
        | inFlight k b =>
          rw [upload] at recorded
          obtain ⟨others,permits⟩ := recorded
          simp only [logDiscipline,LogPermits,role] at permits
          exact ⟨o,permits.1 ▸ found,others _ o found⟩
        | unsent | refused | denied => trivial
      · rename_i same
        exact rememberAppendedMeets ⟨o,found,not_not.mp same⟩
    · intro w' err on _ certain
      exact absurd rfl certain

theorem appendMeets {process : Nat} (valid : w.Valid (logDiscipline T configs) i) (unsent : w.upload = .unsent)
    (role : i.role = (process,.append expected e)) :
    (append T (configs process) expected e).Meets (logDiscipline T configs) i True (AppendEnds T expected e i.id) w := by
  have refused {w' : StoreWorld (ProtectedEntry ν)} (err : RecoveryError) (on : Continues (logDiscipline T configs) i w w') :
      AppendEnds T expected e i.id w' (.error err) := fun _ => NeverStored.unsent (on.unsent unsent)
  rw [append]
  by_cases wellFormed : appendInvalid (configs process) expected e
  · rw [if_pos wellFormed]
    exact refused _ valid.continues
  rw [if_neg wellFormed]
  by_cases adds : !(configs process).mode.adds e.kind
  · rw [if_pos adds]
    exact refused _ valid.continues
  rw [if_neg adds]
  by_cases size : maxEntryBytes < e.bytes T
  · rw [if_pos size]
    exact refused _ valid.continues
  rw [if_neg size]
  refine StoreClient.Meets.bind (checkGenesisMeets valid (fun w₁ on₁ genesis => ?_) fun w' err on _ => refused err on)
  refine StoreClient.Meets.bind (checkPriorMeets on₁.valid (fun w₂ step₂ prior => ?_) fun w' err on _ => refused err (on₁.trans on))
  have on₂ := on₁.trans step₂
  refine StoreClient.Meets.bind (successorMeets (fun w₃ C step₃ _ _ _ _ => ?_) (fun w₃ o step₃ found => ?_)
    fun w' err on _ => refused err (on₂.trans on))
  · have on₃ := on₂.trans step₃
    have checked : Checked T (configs process) expected e w₃.bucket :=
      ⟨Bool.eq_false_of_not_eq_true wellFormed,by simpa using adds,Nat.le_of_not_lt size,
        fun hash mode => (genesis hash mode).grown (step₂.trans step₃).bucket,fun later => (prior later).grown step₃.bucket⟩
    have permits : (logDiscipline T configs).permits i.role w₃.bucket e.sequence (e.parsed T) := by
      rw [role]
      exact ⟨validSequence checked.entryValid,rfl,checked⟩
    have upload := on₃.unsent unsent
    have appends : i.role.2 = .append expected e := by rw [role]
    refine ⟨upload ▸ .unsent,permits,fun v attempt => ?_⟩
    obtain ⟨u,_,moved⟩ := attempt
    refine ⟨fun stored => ?_,fun _ => ?_,fun _ => ⟨?_,fun sent => ?_⟩⟩
    · exact resolvePutMeets moved.valid appends (fun _ => ⟨_,_,stored⟩) nofun
    · exact resolvePutMeets moved.valid appends nofun nofun
    · exact resolvePutMeets moved.valid appends nofun nofun
    · have recorded := moved.valid.upload
      rw [sent] at recorded
      exact resolvePutMeets ⟨moved.valid.bucket,moved.valid.listed,recorded.1⟩ appends nofun fun _ => rfl
  · dsimp only
    split
    · rename_i same
      exact ⟨o,found,same⟩
    · exact refused _ (on₂.trans step₃)

theorem Checked.readable (h : Checked T config expected e B) :
    received T config (expected.sequence + 1) (.ok (some (e.parsed T))) = .ok (some (e.parsed T)) := by
  have valid : config.valid (e.parsed T) (expected.sequence + 1) = true := h.entryValid
  have positive := e.bytes_pos T
  have size := h.size
  rw [received,ProtectedEntry.bytes_parsed,if_neg (by omega),if_pos valid]

/-- Over its own entry an append changes nothing and, with its requests answered, succeeds. -/
theorem repeatMeets {process : Nat} (valid : w.Valid (logDiscipline T configs) i) (unsent : w.upload = .unsent)
    (checked : Checked T (configs process) expected e w.bucket) (found : w.bucket.find (expected.sequence + 1) = some o)
    (same : o.body = e.parsed T) :
    (append T (configs process) expected e).Meets (logDiscipline T configs) i False
      (fun w r => r = .ok () ∧ w.upload = .unsent) w := by
  have adds : ¬ (!(configs process).mode.adds e.kind) = true := by rw [checked.adds]; decide
  rw [append,if_neg (Bool.eq_false_iff.mp checked.valid),if_neg adds,if_neg (Nat.not_lt.mpr checked.size)]
  refine StoreClient.Meets.bind (checkGenesisMeets valid (fun w₁ on₁ _ => ?_) fun w' err on missed => ?_)
  · have checked₁ := checked.grown on₁.bucket
    refine StoreClient.Meets.bind (checkPriorMeets on₁.valid (fun w₂ step₂ _ => ?_) fun w' err on missed => ?_)
    · have on₂ := on₁.trans step₂
      have stored := Bucket.find_mono on₂.bucket found
      refine StoreClient.Meets.bind (successorMeets (fun w₃ C step₃ _ low log last => ?_)
        (fun w₃ o' step₃ found' => ?_) fun w' err step missed => ?_)
      · have listed := log.contiguous.mem.mp (Bucket.mem_keys.mpr ⟨o,Bucket.find_mono low stored⟩)
        omega
      · have here := (Bucket.find_mono step₃.bucket stored).symm.trans found'
        cases Option.some.inj here
        have text : o.body.canonical T = e.canonical T := by rw [same,ProtectedEntry.canonical_parsed]
        dsimp only
        rw [if_pos text]
        exact ⟨rfl,(on₂.trans step₃).unsent unsent⟩
      · obtain ⟨o',found',unreadable⟩ := missed.resolve_left id
        have here := (Bucket.find_mono step.bucket stored).symm.trans found'
        cases Option.some.inj here
        exact absurd (same ▸ checked.readable) unreadable
    · obtain ⟨later,missing⟩ := missed.resolve_left id
      exact absurd (checked₁.prior later) missing
  · obtain ⟨hash,mode,missing⟩ := missed.resolve_left id
    exact absurd (checked.genesis hash mode) missing

end

/-! ### read -/

/-- The entries are the first ones of the log. -/
def Matches (B : Bucket (Authored (ProtectedEntry ν))) (entries : List (ProtectedEntry ν)) : Prop :=
  ∀ n e, entries[n]? = some e → ∃ o, B.find (n + 1) = some o ∧ o.body = e

theorem Matches.grown {entries : List (ProtectedEntry ν)} (grown : B ≤ C) (h : Matches B entries) : Matches C entries := by
  intro n e listed
  obtain ⟨o,found,same⟩ := h n e listed
  exact ⟨o,Bucket.find_mono grown found,same⟩

theorem Matches.whole {entries : List (ProtectedEntry ν)} (log : LogHolds B) (h : Matches B entries)
    (last : B.rows.length ≤ entries.length) : entries = bodies B := by
  refine List.ext_getElem? fun n => ?_
  rw [bodies,List.getElem?_map,log.contiguous.object]
  cases listed : entries[n]? with
  | some e =>
    obtain ⟨o,found,rfl⟩ := h n e listed
    rw [found]
    rfl
  | none =>
    have past := List.getElem?_eq_none_iff.mp listed
    have outside : B.find (n + 1) = none := Bucket.find_none.mpr fun inside => by
      have := log.contiguous.mem.mp inside
      omega
    rw [outside]
    rfl

theorem numberedOk {keys items all : List Nat} (h : numbered keys items = .ok all) : all = keys ++ items := by
  induction items generalizing keys with
  | nil => cases h; simp
  | cons item items ih =>
    simp only [numbered] at h
    split at h
    · cases h
    · split at h
      · cases h
      · simp [ih h]

theorem chainedOk {entries : List (ProtectedEntry ν)} {bytes : Nat} {batch : List (Option (ProtectedEntry ν))}
    {r : List (ProtectedEntry ν) × Nat} (h : chained T entries bytes batch = .ok r) :
    ∃ es : List (ProtectedEntry ν), batch = es.map some ∧ r.1 = entries ++ es := by
  induction batch generalizing entries bytes with
  | nil => cases h; exact ⟨[],rfl,by simp⟩
  | cons found batch ih =>
    cases found with
    | none => cases h
    | some e =>
      simp only [chained] at h
      split at h
      · cases h
      · split at h
        · cases h
        · obtain ⟨es,rfl,all⟩ := ih h
          exact ⟨e::es,rfl,by simp [all]⟩

theorem pageKeys (log : LogHolds B) (size : Nat) :
    (B.page k size).keys = List.range' (k + 1) (min size (B.rows.length - k)) := by
  change (B.keysAfter k).take size = _
  rw [log.contiguous.keysAfter]
  rcases Nat.le_total size (B.rows.length - k) with short | long
  · rw [List.take_range'_of_length_ge short,Nat.min_eq_left short]
  · rw [List.take_range'_of_length_le long,Nat.min_eq_right long]

theorem pageNext (log : LogHolds B) {size : Nat} (more : (B.page k size).truncated = true) (positive : 0 < size) :
    (B.page k size).next = some (k + min size (B.rows.length - k)) := by
  have rest : size < B.rows.length - k := by simpa [Bucket.page,log.contiguous.keysAfter] using more
  have next : (B.page k size).next = (B.page k size).keys.getLast? := by
    simp [Bucket.page,log.contiguous.keysAfter,rest]
  rw [next,pageKeys log,List.getLast?_range',if_neg (by omega)]
  congr 1
  omega

theorem pagesMeets {Q : StoreWorld (ProtectedEntry ν) → Except RecoveryError (List Nat) → Prop} {fuel m : Nat}
    {tokens : List Nat} {continuation : Option Nat} (valid : w.Valid (logDiscipline T configs) i)
    (here : continuation.getD 0 = m) (within : m ≤ w.bucket.rows.length)
    (good : ∀ w' n, Continues (logDiscipline T configs) i w w' → n ≤ w'.bucket.rows.length → Q w' (.ok (List.range' 1 n)))
    (bad : ∀ w' err, Continues (logDiscipline T configs) i w w' → Q w' (.error err)) :
    (pages fuel (List.range' 1 m) tokens continuation).Meets (logDiscipline T configs) i faults Q w := by
  induction fuel generalizing w m tokens continuation with
  | zero => exact bad w _ valid.continues
  | succ fuel ih =>
    rw [pages,here]
    refine StoreClient.Meets.bind (listKeysMeets (fun w' C limit on _ low high log => ?_) fun _ w' err on => bad w' err on)
    generalize size : min 1000 (limit + 1) = n
    have reached := Bucket.length_mono (low.trans high)
    have past := Bucket.length_mono low
    have inside := Bucket.length_mono high
    refine StoreClient.Meets.bind ?_
    cases taken : numbered (List.range' 1 m) (C.page m n).keys with
    | error err => exact bad w' err on
    | ok all =>
      have keys : all = List.range' 1 (m + min n (C.rows.length - m)) := by
        rw [numberedOk taken,pageKeys log,Nat.add_comm m 1,List.range'_append_1]
      subst keys
      dsimp only [StoreClient.Meets]
      split
      · exact bad w' _ on
      · split
        · rename_i token next
          split at next
          · rename_i more
            have token := (pageNext log more (by omega)).symm.trans next
            cases token
            exact ih on.valid rfl (by omega) (fun v n on' => good v n (on.trans on')) fun v err on' => bad v err (on.trans on')
          · cases next
        · exact good w' _ on (by omega)

theorem batchMatches {entries es : List (ProtectedEntry ν)} {start count : Nat} (before : Matches C entries)
    (aligned : es ≠ [] → entries.length = start)
    (given : List.Forall₂ (fun k v => Gives (logDiscipline T configs) faults B C (received T config) (k,none) (.ok v))
      (List.range' (start + 1) count) (es.map some)) : Matches C (entries ++ es) := by
  intro n e listed
  rcases Nat.lt_or_ge n entries.length with old | new
  · exact before n e (by rwa [List.getElem?_append_left old] at listed)
  · rw [List.getElem?_append_right new] at listed
    have nonempty : es ≠ [] := by rintro rfl; simp at listed
    obtain ⟨bound,rfl⟩ := List.getElem?_eq_some_iff.mp listed
    have lengths := given.length_eq
    simp only [List.length_range',List.length_map] at lengths
    have asked := List.forall₂_iff_get.mp given |>.2 (n - entries.length) (by simp; omega) (by simpa using bound)
    obtain ⟨E,_,high,shown,_⟩ := givesOk asked
    simp only [List.get_eq_getElem,List.getElem_map,List.getElem_range'] at shown
    obtain ⟨o,found,same⟩ := Option.map_eq_some_iff.mp shown.symm
    rw [show start + 1 + 1 * (n - entries.length) = n + 1 by have := aligned nonempty; omega] at found
    exact ⟨o,Bucket.find_mono high found,same⟩

theorem batchesMeets {Q : StoreWorld (ProtectedEntry ν) → Except RecoveryError (List (ProtectedEntry ν)) → Prop}
    {total left start bytes : Nat} {entries : List (ProtectedEntry ν)} (valid : w.Valid (logDiscipline T configs) i)
    (before : Matches w.bucket entries) (length : entries.length = min start total) (enough : total ≤ start + 8 * left)
    (good : ∀ w' entries', Continues (logDiscipline T configs) i w w' → Matches w'.bucket entries' → Q w' (.ok entries'))
    (bad : ∀ w' err, Continues (logDiscipline T configs) i w w' → Q w' (.error err)) :
    (batches T config total left start entries bytes).Meets (logDiscipline T configs) i faults Q w := by
  induction left generalizing w start entries bytes with
  | zero => exact good w entries valid.continues before
  | succ left ih =>
    rw [batches]
    refine StoreClient.Meets.bind (StoreClient.Meets.ask (fun w' found on given => ?_) fun w' k err on _ _ => bad w' err on)
    refine StoreClient.Meets.bind ?_
    cases taken : chained T entries bytes found with
    | error err => exact bad w' err on
    | ok r =>
      obtain ⟨es,rfl,all⟩ := chainedOk taken
      have count := given.length_eq
      simp only [List.length_range',List.length_map] at count
      have aligned : es ≠ [] → entries.length = start := fun some => by
        have := List.length_pos_iff.mpr some
        omega
      have after := batchMatches (before.grown on.bucket) aligned given
      rw [← all] at after
      refine ih on.valid after ?_ (by omega) (fun v entries' on' => good v entries' (on.trans on'))
        fun v err on' => bad v err (on.trans on')
      rw [all,List.length_append,length]
      omega

def ReadEnds (w : StoreWorld (ProtectedEntry ν)) : Except RecoveryError (RecoveryHead × List (ProtectedEntry ν)) → Prop
  | .ok (head,entries) => ∃ B, w.listed = some B ∧ entries = bodies B ∧ head = lastHead entries
  | .error _ => True

theorem readMeets (valid : w.Valid (logDiscipline T configs) i) :
    (read T config).Meets (logDiscipline T configs) i faults ReadEnds w := by
  refine StoreClient.Meets.bind (pagesMeets (m := 0) valid rfl (Nat.zero_le _) (fun w₁ n on₁ within => ?_) fun _ _ _ => trivial)
  dsimp only
  split
  · trivial
  · have start : Matches w₁.bucket ([] : List (ProtectedEntry ν)) := by rintro n e ⟨⟩
    refine StoreClient.Meets.bind (batchesMeets on₁.valid start (by simp) (by omega)
      (fun w₂ entries on₂ known => ?_) fun _ _ _ => trivial)
    refine StoreClient.Meets.bind (successorMeets (fun w₃ C on₃ listed low log last => ?_)
      (fun w₃ o on₃ found => ?_) fun _ _ _ _ => trivial)
    · have whole := (known.grown low).whole log last
      dsimp only
      rw [if_neg (by simp)]
      split
      · trivial
      · refine StoreClient.Meets.bind fun observed => ?_
        dsimp only
        cases remember (lastHead entries) observed with
        | error err => trivial
        | ok head => exact ⟨C,listed,whole,rfl⟩
    · trivial

/-! ### All calls -/

def CallEnds (T : JsonText ν) (i : Caller (Nat × S3Invocation ν)) (w : StoreWorld (ProtectedEntry ν))
    (r : Except RecoveryError (S3Result ν)) : Prop :=
  match i.role.2 with
  | .append expected e => (∀ head entries, r ≠ .ok (.history head entries)) ∧
    AppendEnds T expected e i.id w (r.map fun _ => ())
  | .read => ∀ head entries, r = .ok (.history head entries) → ReadEnds w (.ok (head,entries))

theorem callEndsStable : StableUnder (logDiscipline T configs) i (CallEnds T i) := by
  intro w w' r moved
  unfold CallEnds
  cases i.role.2 with
  | read =>
    intro h head entries same
    obtain ⟨B,listed,whole⟩ := h head entries same
    exact ⟨B,moved.listed.trans listed,whole⟩
  | append expected e =>
    refine And.imp_right ?_
    cases r with
    | ok r =>
      rintro ⟨o,found,same⟩
      exact ⟨o,Bucket.find_mono moved.bucket found,same⟩
    | error err => exact fun h certain => (h certain).evolves moved

/-- Every append and every read of one prefix, whatever its store's configuration. -/
def logContract (T : JsonText ν) (configs : Nat → RecoveryS3Config) :
    ClientSystem.Contract (S3System.invoke T configs) where
  discipline := logDiscipline T configs
  ends := CallEnds T
  stable i := callEndsStable
  starts := by
    rintro ⟨id,process,invocation⟩ w valid unsent
    cases invocation with
    | append expected e =>
      exact StoreClient.Meets.bind ((appendMeets valid unsent rfl).mono fun w r ends => by
        cases r <;> exact ⟨nofun,ends⟩)
    | read =>
      refine StoreClient.Meets.bind ((readMeets valid).mono fun w r ends => ?_)
      cases r with
      | error err => exact nofun
      | ok found =>
        intro head entries same
        cases same
        exact ends

end SpeedySweeties
