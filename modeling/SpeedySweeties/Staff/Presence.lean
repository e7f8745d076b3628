import SpeedySweeties.Staff.Revocation

/-! A presence request is authenticated, reads the account and updates it by id. Nothing in
the update compares what the request was authenticated for, so a revocation that commits in
between is written over. -/
namespace SpeedySweeties
open JsText Table

/-- The updates after which the account shows online. -/
def AccountWrite.bringsOnline : AccountWrite → Bool
  | .signIn .. => true
  | .presence kind _ => kind.showsOnline
  | _ => false

theorem onlineAfter (w : AccountWrite) (user : User) (quiet : w.bringsOnline = false) :
    (w.apply user).isOnline = false ∨ w.signsOut = false ∧ (w.apply user).isOnline = user.isOnline := by
  cases w with
  | signIn driver now => contradiction
  | presence kind now =>
    cases kind with
    | offline => exact .inl rfl
    | online => contradiction
    | heartbeat body => contradiction
  | staff change =>
    simp only [AccountWrite.apply,StaffChange.apply,revokesStaff]
    split
    · exact .inl rfl
    · rename_i kept
      refine .inr ⟨?_,by cases change <;> rfl⟩
      cases out : (AccountWrite.staff change).signsOut with
      | false => rfl
      | true => exact absurd (signsOutRevokes out) kept
  | clearInvalidToken token =>
    refine .inr ⟨rfl,?_⟩
    simp only [AccountWrite.apply]
    split <;> rfl
  | unhide => exact .inr ⟨rfl,rfl⟩
  | profile firstName lastName => exact .inr ⟨rfl,rfl⟩
  | _ => exact .inl rfl

theorem tokenAfter (w : AccountWrite) (user : User) (quiet : w.bringsOnline = false) :
    (w.apply user).driverFcmToken = none ∨
      w ≠ .staff (.status false) ∧ (w.apply user).driverFcmToken = user.driverFcmToken := by
  cases w with
  | signIn driver now => contradiction
  | presence kind now =>
    cases kind with
    | offline => exact .inr ⟨by simp,rfl⟩
    | online => contradiction
    | heartbeat body => contradiction
  | staff change =>
    simp only [AccountWrite.apply,StaffChange.apply,revokesStaff]
    split
    · exact .inl rfl
    · rename_i kept
      refine .inr ⟨?_,by cases change <;> rfl⟩
      rintro ⟨⟩
      exact kept (by simp [AccountWrite.revokes])
  | clearInvalidToken token =>
    simp only [AccountWrite.apply]
    split
    · exact .inl rfl
    · exact .inr ⟨by simp,rfl⟩
  | changePassword authVersion passwordHash => exact .inl rfl
  | _ => exact .inr ⟨by simp,rfl⟩

theorem sinceSignIn_cons {w other : AccountWrite} {writes : List AccountWrite}
    (mem : other ∈ sinceSignIn (w::writes)) : other = w ∨ other ∈ sinceSignIn writes := by
  simp only [sinceSignIn,List.takeWhile_cons] at mem
  split at mem
  · exact List.mem_cons.mp mem
  · contradiction

namespace StaffSystem
variable {T : StaffService} {s t : StaffSystem} {a : StaffAction} {id : UserId} {user : User} {seen : Nat}

/-- From a deactivation, hiding or forced logout to the next sign-in the driver is offline,
and after a deactivation without a push token. -/
def RevokedOffline (s : StaffSystem) : Prop :=
  ∀ id user, s.users.find id = some user →
    ((∃ w ∈ sinceSignIn (writesOf s.log id), w.signsOut = true) → user.isOnline = false) ∧
    (.staff (.status false) ∈ sinceSignIn (writesOf s.log id) → user.driverFcmToken = none)

/-- An update that shows a driver online is of a request since whose authentication the
account has not been revoked, or the driver has signed in again. -/
def PresenceCurrent (s : StaffSystem) : StaffAction → Prop
  | .writeVisit request _ => ∀ id kind seen, s.requests request = some (.visiting id (.presence kind) seen) →
      kind.showsOnline = true → seen = revocations (writesOf s.log id) ∨ SignedIn (writesOf s.log id)
  | _ => True

/-- The request was authenticated for an account that had `seen` revocations. -/
structure Seen (s : StaffSystem) (id : UserId) (seen : Nat) : Prop where
  row : ∃ user, s.users.find id = some user
  behind : seen ≤ revocations (writesOf s.log id)
  current : seen = revocations (writesOf s.log id) → SignedIn (writesOf s.log id)

def RequestsSeen (s : StaffSystem) : Prop := ∀ request,
  (∀ payload visit seen, s.requests request = some (.authenticated payload visit seen) → s.Seen payload.userId seen) ∧
  ∀ id visit seen, s.requests request = some (.visiting id visit seen) → s.Seen id seen

theorem rowStays (taken : AccountStep s a t) (row : ∃ user, s.users.find id = some user) :
    ∃ user, t.users.find id = some user := by
  obtain ⟨user,found⟩ := row
  have kept (x : User) : ∃ user, (s.users.put x).find id = some user := by
    rw [find_put]
    split
    · exact ⟨x,rfl⟩
    · exact ⟨user,found⟩
  cases taken with
  | same users => exact ⟨user,users ▸ found⟩
  | registered x _ users => exact users ▸ kept x
  | written _ w x _ users => exact users ▸ kept (w.apply x)

theorem writesStep (taken : AccountStep s a t) (id : UserId) :
    writesOf t.log id = writesOf s.log id ∨ ∃ w, writesOf t.log id = w::writesOf s.log id := by
  cases taken with
  | same _ log => exact .inl (by rw [log])
  | registered _ _ _ log => exact .inl (by rw [log])
  | written other w _ _ _ log =>
    rw [log,writesOf_cons]
    split
    · exact .inr ⟨w,rfl⟩
    · exact .inl rfl

theorem revocations_cons (w : AccountWrite) (writes : List AccountWrite) :
    revocations (w::writes) = revocations writes + if w.signsOut then 1 else 0 := List.countP_cons

theorem seenStep (taken : AccountStep s a t) (h : s.Seen id seen) : t.Seen id seen := by
  have behind := h.behind
  rcases writesStep taken id with same | ⟨w,next⟩
  · exact ⟨rowStays taken h.row,same ▸ behind,same ▸ h.current⟩
  refine ⟨rowStays taken h.row,?_,fun current => ?_⟩
  · rw [next,revocations_cons]
    omega
  · rw [next,revocations_cons] at current
    rw [next]
    cases out : w.signsOut with
    | false => exact signedInWrite out (h.current (by simpa [out] using current))
    | true =>
      rw [if_pos out] at current
      omega

theorem requestsSeenStep (taken : StaffStep s a t) (sound : s.CredentialSound) (h : s.RequestsSeen) :
    t.RequestsSeen := by
  refine fun request => ⟨fun payload visit seen held => ?_,fun id visit seen held => ?_⟩
  all_goals refine seenStep taken.account ?_
  · rcases taken.requests request _ held with old | source
    · exact (h request).1 payload visit seen old
    · cases source with
      | authenticated payload token visit user issued row current mine =>
        have usable := (sound.tokens token issued).current row current
        exact ⟨⟨user,mine ▸ row⟩,Nat.le_refl _,fun _ => mine ▸ usable.2⟩
  · rcases taken.requests request _ held with old | source
    · exact (h request).2 id visit seen old
    · cases source with
      | visiting request payload visit seen came => exact (h request).1 payload visit seen came

theorem onlineWriteSignedIn {w : AccountWrite} (source : UpdateSource s a id user w) (h : s.RequestsSeen)
    (allowed : PresenceCurrent s a) (online : w.bringsOnline = true) : SignedIn (w::writesOf s.log id) := by
  cases source with
  | signedIn => exact signedInSignIn
  | visited request id visit seen user now came =>
    cases visit with
    | profile firstName lastName => contradiction
    | presence kind =>
      refine signedInWrite rfl ((allowed id kind seen came online).elim ?_ fun signedIn => signedIn)
      exact ((h request).2 id _ seen came).current
  | driver request id change => cases change <;> contradiction
  | _ => contradiction

theorem revokedOfflineStep (taken : AccountStep s a t) (seen : s.RequestsSeen) (allowed : PresenceCurrent s a)
    (h : s.RevokedOffline) : t.RevokedOffline := by
  intro id user found
  cases taken with
  | same users log => rw [log]; exact h id user (users ▸ found)
  | registered x fresh users log offline silent =>
    rw [log]
    rw [users,find_put] at found
    split at found
    · cases found
      exact ⟨fun _ => offline,fun _ => silent⟩
    · exact h id user found
  | written other w x row users log source =>
    rw [users,find_put,AccountWrite.applyId,find_key row] at found
    rw [log,writesOf_cons]
    split at found
    case isFalse differ => rw [if_neg differ]; exact h id user found
    rename_i same
    subst same
    cases found
    rw [if_pos rfl]
    cases online : w.bringsOnline with
    | true =>
      have signedIn := onlineWriteSignedIn source seen allowed online
      refine ⟨?_,fun mem => Bool.noConfusion (signedIn _ mem)⟩
      rintro ⟨w,mem,out⟩
      rw [signedIn w mem] at out
      contradiction
    | false =>
      refine ⟨?_,fun mem => ?_⟩
      · rintro ⟨w',mem,out⟩
        rcases onlineAfter w x online with off | ⟨kept,same⟩
        · exact off
        · rw [same]
          refine (h other x row).1 ⟨w',(sinceSignIn_cons mem).resolve_left ?_,out⟩
          rintro rfl
          rw [kept] at out
          contradiction
      · rcases tokenAfter w x online with cleared | ⟨kept,same⟩
        · exact cleared
        · rw [same]
          exact (h other x row).2 ((sinceSignIn_cons mem).resolve_left kept.symm)

theorem reachableSeen {users : Table User User.id} (reached : Reachable T users s) : s.RequestsSeen :=
  Transition.ReachableUnder.invariantWith reached (fun _ => ⟨nofun,nofun⟩)
    fun _ _ _ before h _ taken => requestsSeenStep (staffStep taken) (reachableSound before) h

/-- An online update that breaks the condition shows a revoked driver online. -/
theorem staleUpdateOnline {users : Table User User.id} (reached : Reachable T users s) (taken : s.step T a = some t)
    (stale : ¬ PresenceCurrent s a) : ¬ t.RevokedOffline := by
  intro offline
  cases a with
  | writeVisit request now =>
    simp only [PresenceCurrent,not_forall,not_or] at stale
    obtain ⟨id,kind,seen,came,online,_,signedOut⟩ := stale
    obtain ⟨user,row⟩ := ((reachableSeen reached request).2 id _ seen came).row
    simp only [step,came,writeRow row,Option.some.injEq] at taken
    subst taken
    simp only [SignedIn,not_forall,Bool.not_eq_false] at signedOut
    obtain ⟨w,mem,out⟩ := signedOut
    have shown : ((AccountWrite.presence kind now).apply user).isOnline = true := by
      cases kind with
      | offline => contradiction
      | _ => rfl
    have mine : ((AccountWrite.presence kind now).apply user).id = id :=
      (AccountWrite.applyId _ user).trans (find_key row)
    have hidden := (offline id ((AccountWrite.presence kind now).apply user) (by
      simp only [close,Visit.write,find_put,if_pos mine])).1 ⟨w,by
        simp only [close,Visit.write,writesOf_cons]
        exact List.mem_cons_of_mem _ mem,out⟩
    rw [shown] at hidden
    contradiction
  | _ => exact stale trivial

theorem revokedDriverOffline (T : StaffService) (users : Table User User.id) :
    (∀ s, Transition.ReachableUnder (step T) PresenceCurrent (initial users) s → s.RevokedOffline) ∧
    ∀ s a t, Reachable T users s → s.step T a = some t → ¬ PresenceCurrent s a → ¬ t.RevokedOffline := by
  refine ⟨fun s reached => ?_,fun s a t reached taken => staleUpdateOnline reached taken⟩
  refine Transition.ReachableUnder.invariantWith reached (fun _ _ _ => ⟨nofun,nofun⟩) ?_
  intro s a t before h allowed taken
  exact revokedOfflineStep (staffStep taken).account (reachableSeen before.reachable) allowed h

def sampleHeartbeat : Visit := .presence (.heartbeat ⟨none,some "foreground",some "push"⟩)

def heartbeatRun : List StaffAction :=
  signInRun ++ [.authenticate 1 ⟨"driver","driver@speedy.test",.driver,0,604800⟩ sampleHeartbeat 1000,.readVisit 1]

def deactivation : StaffAction := .changeStaff "admin" "driver" 0 (.status false) 0

/-- The driver's heartbeat is written and the account is deactivated afterwards. -/
theorem heartbeatThenDeactivated : ∃ (s : StaffSystem) (user : User),
    Transition.ReachableUnder (step sampleStaff) PresenceCurrent (initial Table.empty) s ∧
    s.users.find "driver" = some user ∧ user.isOnline = false ∧ user.driverFcmToken = none := by
  have reads : (Transition.run (step sampleStaff) (initial Table.empty) heartbeatRun).map (fun s =>
      (s.requests 1,decide (SignedIn (writesOf s.log "driver")))) =
      some (some (.visiting "driver" sampleHeartbeat 0),true) := by decide +kernel
  have allowed : Transition.AllowedRun (step sampleStaff) PresenceCurrent (initial Table.empty)
      (heartbeatRun ++ [.writeVisit 1 2000,deactivation]) := by
    refine .append ?_ fun s ran => ⟨?_,fun t _ => ⟨trivial,fun _ _ => trivial⟩⟩
    · refine .ofActions fun a mem s => ?_
      simp only [heartbeatRun,signInRun,List.cons_append,List.nil_append,List.mem_cons,List.not_mem_nil,
        or_false] at mem
      rcases mem with rfl | rfl | rfl | rfl | rfl | rfl | rfl <;> trivial
    · intro id kind seen came _
      simp only [ran,Option.map_some,Option.some.injEq,Prod.mk.injEq,came,StaffRequest.visiting.injEq,
        decide_eq_true_eq] at reads
      exact .inr (reads.1.1 ▸ reads.2)
  have ends : (Transition.run (step sampleStaff) (initial Table.empty)
      (heartbeatRun ++ [.writeVisit 1 2000,deactivation])).bind (fun s => (s.users.find "driver").map fun _ =>
        sinceSignIn (writesOf s.log "driver")) =
      some [.staff (.status false),sampleHeartbeat.write 2000] := by decide +kernel
  obtain ⟨s,ran,found⟩ := Option.bind_eq_some_iff.mp ends
  obtain ⟨user,row,writes⟩ := Option.map_eq_some_iff.mp found
  have reached := Transition.runReachableUnder .start allowed ran
  obtain ⟨offline,silent⟩ := (revokedDriverOffline sampleStaff Table.empty).1 s reached "driver" user row
  exact ⟨s,user,reached,row,offline ⟨_,by rw [writes]; exact List.mem_cons_self,rfl⟩,
    silent (by rw [writes]; exact List.mem_cons_self)⟩

/-- The deactivation commits between the heartbeat's read and its update. -/
theorem deactivatedDriverOnline : ¬ ∀ (T : StaffService) (users : Table User User.id) (s : StaffSystem),
    Reachable T users s → s.RevokedOffline := by
  intro always
  have ends : (Transition.run (step sampleStaff) (initial Table.empty)
      (heartbeatRun ++ [deactivation,.writeVisit 1 2000])).bind (fun s => (s.users.find "driver").map fun user =>
        (sinceSignIn (writesOf s.log "driver"),user.isActive,user.isOnline,user.driverFcmToken)) =
      some ([sampleHeartbeat.write 2000,.staff (.status false)],false,true,some "push") := by decide +kernel
  obtain ⟨s,ran,found⟩ := Option.bind_eq_some_iff.mp ends
  obtain ⟨user,row,same⟩ := Option.map_eq_some_iff.mp found
  simp only [Prod.mk.injEq] at same
  obtain ⟨writes,_,online,_⟩ := same
  have offline := (always sampleStaff Table.empty s (Transition.runReachable .start ran) "driver" user row).1
    ⟨.staff (.status false),by rw [writes]; exact List.mem_cons_of_mem _ List.mem_cons_self,rfl⟩
  rw [online] at offline
  exact Bool.noConfusion offline

end StaffSystem
end SpeedySweeties
