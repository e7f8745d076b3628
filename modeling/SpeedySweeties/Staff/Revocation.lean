import SpeedySweeties.Library.Fence
import SpeedySweeties.Library.Transition
import SpeedySweeties.Staff.Sessions

/-! Every access change takes the account to its next version and every holder of a
credential is fenced by that version. A login in flight carries the version it read, so
its update fails after a change; what it saw of the account is as good as the row. -/
namespace SpeedySweeties
open JsText Table

/-- No deactivation, hiding or forced logout since the last sign-in. -/
def SignedIn (writes : List AccountWrite) : Prop := ∀ w ∈ sinceSignIn writes, w.signsOut = false

instance (writes : List AccountWrite) : Decidable (SignedIn writes) := by unfold SignedIn; infer_instance

theorem signedInSignIn {driver : Bool} {now : Time} {writes : List AccountWrite} :
    SignedIn (.signIn driver now::writes) := by
  simp [SignedIn,sinceSignIn,AccountWrite.isSignIn]

theorem signedInWrite {w : AccountWrite} {writes : List AccountWrite} (kept : w.signsOut = false)
    (signedIn : SignedIn writes) : SignedIn (w::writes) := by
  intro other mem
  simp only [sinceSignIn,List.takeWhile_cons] at mem
  split at mem
  · rcases List.mem_cons.mp mem with rfl | mem
    · exact kept
    · exact signedIn other mem
  · contradiction

theorem signsOutRevokes {w : AccountWrite} {user : User} (out : w.signsOut = true) : w.revokes user = true := by
  cases w with
  | forceLogout now => rfl
  | hide now => rfl
  | staff change =>
    cases change with
    | status isActive => cases isActive with
      | false => simp [AccountWrite.revokes]
      | true => contradiction
    | _ => contradiction
  | _ => contradiction

/-- The password change with a credential of version `v`. -/
def AccountWrite.changesPassword (v : Nat) : AccountWrite → Bool
  | .changePassword authVersion _ => authVersion = v
  | _ => false

namespace StaffSystem

/-- A holder of version `v`; `P` may also look at the updates of the account. -/
def Holds (s : StaffSystem) (id : UserId) (v : Nat) (P : List AccountWrite → User → Prop) : Prop :=
  Fenced User.authVersion s.users id v (P (writesOf s.log id))

/-- What no update short of a revocation takes away. -/
def Lasting (P : List AccountWrite → User → Prop) : Prop :=
  ∀ w writes user, w.revokes user = false → P writes user → P (w::writes) (w.apply user)

def Shown (_ : List AccountWrite) (user : User) : Prop := ¬ user.HiddenDriver

def Usable (writes : List AccountWrite) (user : User) : Prop := ¬ user.HiddenDriver ∧ SignedIn writes

/-- The account is hidden only where the snapshot is. -/
def AsRead (read : User) (_ : List AccountWrite) (user : User) : Prop := user.HiddenDriver → read.HiddenDriver

def Issued (_ : List AccountWrite) (_ : User) : Prop := True

def Outdated (_ : List AccountWrite) (_ : User) : Prop := False

theorem lastingShown : Lasting Shown := fun _ _ _ kept shown hidden => shown (unrevokedHidden kept hidden)

theorem lastingUsable : Lasting Usable := by
  intro w writes user kept ⟨shown,signedIn⟩
  refine ⟨lastingShown w writes user kept shown,signedInWrite ?_ signedIn⟩
  cases out : w.signsOut with
  | false => rfl
  | true => rw [signsOutRevokes out] at kept; contradiction

theorem lastingAsRead (read : User) : Lasting (AsRead read) :=
  fun _ _ _ kept asRead hidden => asRead (unrevokedHidden kept hidden)

theorem lastingIssued : Lasting Issued := fun _ _ _ _ h => h

theorem lastingOutdated : Lasting Outdated := fun _ _ _ _ h => h

variable {T : StaffService} {s t u : StaffSystem} {a : StaffAction} {id : UserId} {v : Nat} {user : User}
  {P : List AccountWrite → User → Prop}

theorem writesOf_cons (log : List (UserId × AccountWrite)) (other id : UserId) (w : AccountWrite) :
    writesOf ((other,w)::log) id = if other = id then w::writesOf log id else writesOf log id := by
  simp only [writesOf,List.filter_cons,decide_eq_true_eq]
  split <;> rfl

theorem Holds.step (taken : AccountStep s a t) (lasting : Lasting P) (held : s.Holds id v P) : t.Holds id v P := by
  cases taken with
  | same users log => rwa [Holds,users,log]
  | registered user fresh users log => rw [Holds,users,log]; exact Fenced.insert held fresh
  | written other w user row users log =>
    have mine : (w.apply user).id = other := (AccountWrite.applyId w user).trans (find_key row)
    have version := writeVersion w user
    rw [Holds,users,log]
    refine Fenced.put held (mine.symm ▸ row) (by rw [version]; split <;> omega) (fun same kept before => ?_)
      (fun differ _ before => by rwa [writesOf_cons,if_neg (mine ▸ differ)])
    have quiet : w.revokes user = false := by
      cases revokes : w.revokes user with
      | false => rfl
      | true => rw [version,revokes,if_pos rfl] at kept; omega
    rw [writesOf_cons,if_pos (mine ▸ same)]
    exact lasting w _ user quiet before

/-! ### Logins in flight and the credentials they end in -/

structure CredentialSound (s : StaffSystem) : Prop where
  login : ∀ request read, s.requests request = some (.login (some read)) →
    s.Holds read.id read.authVersion (AsRead read)
  signingIn : ∀ request read, s.requests request = some (.signingIn read) → s.Holds read.id read.authVersion Shown
  signedIn : ∀ request read, s.requests request = some (.signedIn read) → s.Holds read.id read.authVersion Usable
  tokens : ∀ token ∈ s.tokens, s.Holds token.userId token.authVersion Usable
  passwordTokens : ∀ token ∈ s.passwordTokens, s.Holds token.sub token.authVersion Issued

theorem Holds.mono {Q : List AccountWrite → User → Prop} (held : s.Holds id v P)
    (weaker : ∀ writes user, P writes user → Q writes user) : s.Holds id v Q :=
  Fenced.mono held fun user _ => weaker _ user

theorem Holds.current (held : s.Holds id v P) (row : s.users.find id = some user) (same : v = user.authVersion) :
    P (writesOf s.log id) user :=
  Fenced.current held row same

theorem loginSound (taken : StaffStep s a t) (sound : s.CredentialSound) (request : RequestId) (read : User)
    (held : t.requests request = some (.login (some read))) : t.Holds read.id read.authVersion (AsRead read) := by
  refine Holds.step taken.account (lastingAsRead read) ?_
  rcases taken.requests request _ held with old | source
  · exact sound.login request read old
  · cases source with
    | login _ found => exact Fenced.of_find (find_of_mem (found read rfl)) id

theorem signingInSound (taken : StaffStep s a t) (sound : s.CredentialSound) (request : RequestId) (read : User)
    (held : t.requests request = some (.signingIn read)) : t.Holds read.id read.authVersion Shown := by
  refine Holds.step taken.account lastingShown ?_
  rcases taken.requests request _ held with old | source
  · exact sound.signingIn request read old
  · cases source with
    | signingIn request _ came shown =>
      exact (sound.login request read came).mono fun _ _ asRead hidden => shown (asRead hidden)

/-- The update that signs in has compared the version: what was known of the account at
that version holds of the row it found. -/
theorem signedInSound (taken : StaffStep s a t) (sound : s.CredentialSound) (request : RequestId) (read : User)
    (held : t.requests request = some (.signedIn read)) : t.Holds read.id read.authVersion Usable := by
  rcases taken.requests request _ held with old | source
  · exact (sound.signedIn request read old).step taken.account lastingUsable
  · cases source with
    | signedIn request read user now came row same users log =>
      have shown : ¬ user.HiddenDriver := (sound.signingIn request read came).current row same.2.1.symm
      have quiet : AccountWrite.revokes user (.signIn (read.role = .driver) now) = false := rfl
      have mine := AccountWrite.applyId (.signIn (read.role = .driver) now) user
      have version := writeVersion (.signIn (read.role = .driver) now) user
      rw [quiet] at version
      refine ⟨_,by rw [users,find_put,if_pos (mine.trans (find_key row))],?_,fun _ => ⟨?_,?_⟩⟩
      · exact (same.2.1.symm.trans version.symm).le
      · exact fun hidden => shown (unrevokedHidden quiet hidden)
      · rw [log,writesOf_cons,if_pos rfl]
        exact signedInSignIn

theorem credentialSoundStep (taken : StaffStep s a t) (sound : s.CredentialSound) : t.CredentialSound where
  login := loginSound taken sound
  signingIn := signingInSound taken sound
  signedIn := signedInSound taken sound
  tokens := by
    intro token issued
    refine Holds.step taken.account lastingUsable ?_
    rcases taken.tokens token issued with old | ⟨request,read,now,came,rfl⟩
    · exact sound.tokens token old
    · exact sound.signedIn request read came
  passwordTokens := by
    intro token issued
    refine Holds.step taken.account lastingIssued ?_
    rcases taken.passwordTokens token issued with old | ⟨request,read,now,came,rfl⟩
    · exact sound.passwordTokens token old
    · exact (sound.login request read came).mono fun _ _ _ => trivial

theorem reachableSound {users : Table User User.id} (h : Reachable T users s) : s.CredentialSound := by
  refine h.invariant ⟨?_,?_,?_,?_,?_⟩ fun s a t sound taken => credentialSoundStep (staffStep taken) sound
  all_goals simp [initial]

/-! ### What the session middleware and the password change accept -/

def Rejects (s : StaffSystem) (token : AuthToken) : Prop :=
  ∃ reply, requireAuth (s.users.find token.userId) token = .error reply

theorem rejectsUnless {token : AuthToken} (h : ∀ user, s.users.find token.userId = some user →
      user.isActive = true → token.authVersion = user.authVersion → False) : s.Rejects token := by
  cases decided : requireAuth (s.users.find token.userId) token with
  | error reply => exact ⟨reply,decided⟩
  | ok accepted =>
    obtain ⟨user,row,active,current,_⟩ := requireAuthAccepts decided
    exact (h user row active current).elim

theorem outdatedLater (gone : s.Holds id v Outdated) (later : Transition.Reachable (step T) s u) :
    u.Holds id v Outdated :=
  later.invariant (I := fun s => s.Holds id v Outdated) gone fun _ _ _ held taken => held.step (staffStep taken).account lastingOutdated

theorem outdatedRejected (gone : s.Holds id v Outdated) (token : AuthToken) (mine : token.userId = id)
    (old : token.authVersion ≤ v) : s.Rejects token := by
  obtain ⟨row,found,behind⟩ := Fenced.outdated.mp gone
  refine rejectsUnless fun user here _ current => ?_
  cases Option.some.inj (found.symm.trans (mine ▸ here))
  omega

theorem revokedOutdated {w : AccountWrite} (taken : AccountStep s a t) (log : t.log = (id,w)::s.log)
    (row : s.users.find id = some user) (revokes : w.revokes user = true) :
    t.Holds id user.authVersion Outdated := by
  refine Fenced.outdated.mpr ?_
  cases taken with
  | same _ same => simp [same] at log
  | registered _ _ _ same => simp [same] at log
  | written other x found here users same =>
    obtain ⟨⟨rfl,rfl⟩,_⟩ := List.cons.inj (same.symm.trans log) |>.imp_left Prod.mk.inj
    cases Option.some.inj (row.symm.trans here)
    refine ⟨x.apply user,by rw [users,find_put,if_pos ((AccountWrite.applyId x user).trans (find_key row))],?_⟩
    rw [writeVersion,if_pos revokes]
    exact Nat.lt_succ_self _

/-- A password change is for the version it was asked for and takes the account past it. -/
def PasswordsSpent (s : StaffSystem) : Prop :=
  ∀ id v, (writesOf s.log id).countP (·.changesPassword v) = 0 ∨
    (writesOf s.log id).countP (·.changesPassword v) = 1 ∧ s.Holds id v Outdated

theorem passwordCurrent {w : AccountWrite} (source : UpdateSource s a id user w)
    (changes : w.changesPassword v = true) : user.authVersion = v ∧ w.revokes user = true := by
  cases source with
  | password request id token user passwordHash current =>
    exact ⟨current.trans (by simpa [AccountWrite.changesPassword] using changes),rfl⟩
  | visited request id visit => cases visit <;> contradiction
  | driver request id change => cases change <;> contradiction
  | _ => contradiction

theorem passwordsSpentStep (taken : AccountStep s a t) (spent : s.PasswordsSpent) : t.PasswordsSpent := by
  intro id v
  have later (held : s.Holds id v Outdated) : t.Holds id v Outdated := held.step taken lastingOutdated
  cases taken with
  | same users log => rw [log]; exact (spent id v).imp_right fun h => ⟨h.1,later h.2⟩
  | registered user fresh users log => rw [log]; exact (spent id v).imp_right fun h => ⟨h.1,later h.2⟩
  | written other w user row users log source =>
    rw [log,writesOf_cons]
    split
    case isFalse => exact (spent id v).imp_right fun h => ⟨h.1,later h.2⟩
    rename_i same
    subst same
    rw [List.countP_cons]
    cases changes : w.changesPassword v with
    | false => simpa using (spent other v).imp_right fun h => ⟨h.1,later h.2⟩
    | true =>
      obtain ⟨current,revokes⟩ := passwordCurrent source changes
      have gone := revokedOutdated (.written other w user row users log source) log row revokes
      have unspent : (writesOf s.log other).countP (·.changesPassword v) = 0 :=
        (spent other v).resolve_right fun h => h.2.current row current.symm
      exact .inr ⟨by simp [unspent],current ▸ gone⟩

theorem reachableSpent {users : Table User User.id} (h : Reachable T users s) : s.PasswordsSpent :=
  h.invariant (fun _ _ => .inl rfl) fun _ _ _ spent taken => passwordsSpentStep (staffStep taken).account spent

theorem changesLater {v' : Nat} {passwordHash : String} (gone : s.Holds id v Outdated) (taken : s.step T a = some t)
    (log : t.log = (id,.changePassword v' passwordHash)::s.log) : v < v' := by
  cases (staffStep taken).account with
  | same _ same => simp [same] at log
  | registered _ _ _ same => simp [same] at log
  | written other w user row users same source =>
    obtain ⟨⟨rfl,rfl⟩,_⟩ := List.cons.inj (same.symm.trans log) |>.imp_left Prod.mk.inj
    obtain ⟨found,here,behind⟩ := Fenced.outdated.mp gone
    cases Option.some.inj (row.symm.trans here)
    exact (passwordCurrent source (v := v') (by simp [AccountWrite.changesPassword])).1 ▸ behind

/-- Credentials end with the version they were issued for: after an access change those of
the version it found, and of any before, open no session and change no password; a
deactivated account and a hidden driver have none that opens a session; and no two password
changes use credentials of one version. -/
theorem staffTokensRevoked (T : StaffService) (users : Table User User.id) :
    (∀ s a t id w user, Reachable T users s → s.step T a = some t → t.log = (id,w)::s.log →
      s.users.find id = some user → w.revokes user = true →
        (∀ token ∈ s.tokens, token.userId = id → token.authVersion ≤ user.authVersion) ∧
        (∀ token ∈ s.passwordTokens, token.sub = id → token.authVersion ≤ user.authVersion) ∧
        ∀ u, Transition.Reachable (step T) t u →
          (∀ token : AuthToken, token.userId = id → token.authVersion ≤ user.authVersion → u.Rejects token) ∧
          ∀ b u' v passwordHash, u.step T b = some u' →
            u'.log = (id,.changePassword v passwordHash)::u.log → user.authVersion < v) ∧
    ∀ s, Reachable T users s →
      (∀ token ∈ s.tokens, ∀ user, s.users.find token.userId = some user →
        user.isActive = false ∨ user.HiddenDriver → s.Rejects token) ∧
      ∀ id v, (writesOf s.log id).countP (·.changesPassword v) ≤ 1 := by
  refine ⟨?_,fun s reached => ⟨?_,?_⟩⟩
  · intro s a t id w user reached taken log row revokes
    have sound := reachableSound reached
    have behind {v : Nat} {P : List AccountWrite → User → Prop} (held : s.Holds id v P) :
        v ≤ user.authVersion := by
      obtain ⟨found,here,behind,_⟩ := held
      cases Option.some.inj (row.symm.trans here)
      exact behind
    refine ⟨fun token issued mine => behind (mine ▸ sound.tokens token issued),
      fun token issued mine => behind (mine ▸ sound.passwordTokens token issued),fun u later => ?_⟩
    have gone := outdatedLater (revokedOutdated (staffStep taken).account log row revokes) later
    exact ⟨outdatedRejected gone,fun b u' v passwordHash taken log => changesLater gone taken log⟩
  · intro token issued user row closed
    refine rejectsUnless fun found here active current => ?_
    cases Option.some.inj (row.symm.trans here)
    have usable := ((reachableSound reached).tokens token issued).current row current
    rcases closed with inactive | hidden
    · rw [inactive] at active; contradiction
    · exact usable.1 hidden
  · intro id v
    rcases reachableSpent reached id v with none | ⟨one,_⟩ <;> omega

/-- A driver signs in; dispatch hides the account and shows it again. -/
def signInRun : List StaffAction :=
  [.register "driver" "driver@speedy.test" "hash:secret" .driver none none,.readLogin 0 "Driver@speedy.test",
    .verifyPassword 0 "secret" false 0,.signIn 0 0,.issueToken 0 0]

theorem hiddenDriverSignedOut : ∃ (s u : StaffSystem) (token : AuthToken),
    Reachable sampleStaff Table.empty s ∧ token ∈ s.tokens ∧ ¬ s.Rejects token ∧
    Transition.Reachable (step sampleStaff) s u ∧ u.Rejects token := by
  have ends : (Transition.run (step sampleStaff) (initial Table.empty)
      (signInRun ++ [.readDriver 1 "driver" .hide])).bind (fun s =>
        (s.users.find "driver").bind fun user => s.tokens.head?.bind fun token =>
        (s.step sampleStaff (.changeDriver 1 1000)).bind fun t =>
        (Transition.run (step sampleStaff) t [.readDriver 2 "driver" .show,.changeDriver 2 2000]).map fun _ =>
          (decide (t.log = ("driver",.hide 1000)::s.log),token.userId,
            (requireAuth (s.users.find token.userId) token).toBool)) = some (true,"driver",true) := by
    decide +kernel
  obtain ⟨s,ran,found⟩ := Option.bind_eq_some_iff.mp ends
  obtain ⟨user,row,found⟩ := Option.bind_eq_some_iff.mp found
  obtain ⟨token,issued,found⟩ := Option.bind_eq_some_iff.mp found
  obtain ⟨t,taken,found⟩ := Option.bind_eq_some_iff.mp found
  obtain ⟨u,later,same⟩ := Option.map_eq_some_iff.mp found
  simp only [Prod.mk.injEq,decide_eq_true_eq] at same
  obtain ⟨log,mine,accepted⟩ := same
  have reached := Transition.runReachable .start ran
  have shownAgain := Transition.runReachable .start later
  have circulates : token ∈ s.tokens := List.mem_of_head? issued
  obtain ⟨versions,_,rejected⟩ :=
    (staffTokensRevoked sampleStaff Table.empty).1 s _ t "driver" (.hide 1000) user reached taken log row rfl
  refine ⟨s,u,token,reached,circulates,?_,Transition.Reachable.trans (.step .start taken) shownAgain,
    (rejected u shownAgain).1 token mine (versions token circulates mine)⟩
  rintro ⟨reply,decided⟩
  rw [decided] at accepted
  exact Bool.noConfusion accepted

end StaffSystem
end SpeedySweeties
