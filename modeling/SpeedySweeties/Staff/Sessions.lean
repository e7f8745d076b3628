import SpeedySweeties.Library.Table
import SpeedySweeties.Order.System
import SpeedySweeties.Staff.Account

/-! Staff accounts under concurrent requests. A handler's reads, its slow work and its
update are separate steps, so an account can change between any two of them; `changeStaff`
holds the row lock from its read to its commit and is one step. The log of committed
updates, newest first, is for the statements about runs. -/
namespace SpeedySweeties
open JsText

inductive Visit where
  | presence (kind : Presence)
  | profile (firstName lastName : Option String)
  deriving DecidableEq, Repr

/-- How far a request has come; `seen` counts the revocations of the account that had
committed when the request was authenticated. -/
inductive StaffRequest where
  | login (user : Option User)
  | signingIn (user : User)
  | signedIn (user : User)
  | authenticated (payload : AuthToken) (visit : Visit) (seen : Nat)
  | visiting (userId : UserId) (visit : Visit) (seen : Nat)
  | changingDriver (id : UserId) (change : DriverChange)
  | changingPassword (id : UserId) (token : PasswordChangeToken)
  deriving DecidableEq, Repr

structure StaffSystem where
  users : Table User User.id
  requests : RequestId → Option StaffRequest
  tokens : List AuthToken
  passwordTokens : List PasswordChangeToken
  log : List (UserId × AccountWrite)

inductive StaffAction where
  | register (user : UserId) (email passwordHash : String) (role : UserRole) (firstName lastName : Option String)
  | readLogin (request : RequestId) (email : String)
  | verifyPassword (request : RequestId) (password : String) (passwordChangeOnly : Bool) (now : Time)
  | signIn (request : RequestId) (now : Time)
  | issueToken (request : RequestId) (now : Time)
  | authenticate (request : RequestId) (token : AuthToken) (visit : Visit) (now : Time)
  | readVisit (request : RequestId)
  | writeVisit (request : RequestId) (now : Time)
  | changeStaff (actorId id : UserId) (staffRevision : Nat) (change : StaffChange) (unfinished : Nat)
  | forceLogoutDispatcher (id : UserId) (now : Time)
  | readDriver (request : RequestId) (id : UserId) (change : DriverChange)
  | changeDriver (request : RequestId) (now : Time)
  | readPasswordChange (request : RequestId) (token : PasswordChangeToken) (password : String) (now : Time)
  | changePassword (request : RequestId) (passwordHash : String)
  | clearInvalidToken (id : UserId) (token : String)
  | abandon (request : RequestId)
  deriving DecidableEq, Repr

def Visit.write (visit : Visit) (now : Time) : AccountWrite :=
  match visit with
  | .presence kind => .presence kind now
  | .profile firstName lastName =>
    .profile (firstName.map fun name => if trim name = "" then none else some (trim name))
      (lastName.map fun name => if trim name = "" then none else some (trim name))

def Visit.check (visit : Visit) (user : Option User) : Except Reply User :=
  match visit with
  | .presence kind => presenceUser kind user
  | .profile .. => match user with
    | none => .error ⟨404,none,"User not found"⟩
    | some user => .ok user

def DriverChange.write (change : DriverChange) (now : Time) : AccountWrite :=
  match change with
  | .show => .unhide
  | .hide => .hide now
  | .forceLogout => .forceLogout now

/-- Deactivation, hiding and forced logout. -/
def AccountWrite.signsOut : AccountWrite → Bool
  | .hide _ | .forceLogout _ | .staff (.status false) => true
  | _ => false

def AccountWrite.isSignIn : AccountWrite → Bool
  | .signIn .. => true
  | _ => false

def writesOf (log : List (UserId × AccountWrite)) (id : UserId) : List AccountWrite :=
  (log.filter (·.1 = id)).map (·.2)

/-- The updates of an account after its last sign-in, newest first. -/
def sinceSignIn (writes : List AccountWrite) : List AccountWrite := writes.takeWhile (!·.isSignIn)

def revocations (writes : List AccountWrite) : Nat := writes.countP (·.signsOut)

namespace StaffSystem

def initial (users : Table User User.id) : StaffSystem := ⟨users,fun _ => none,[],[],[]⟩

/-- One update of an account; without a row it changes nothing. -/
def write (s : StaffSystem) (id : UserId) (w : AccountWrite) : StaffSystem :=
  match s.users.find id with
  | none => s
  | some user => { s with users := s.users.put (w.apply user), log := (id,w)::s.log }

def close (s : StaffSystem) (request : RequestId) : StaffSystem :=
  { s with requests := Function.update s.requests request none }

def await (s : StaffSystem) (request : RequestId) (r : StaffRequest) : StaffSystem :=
  { s with requests := Function.update s.requests request (some r) }

def emailTaken (s : StaffSystem) (id : UserId) : StaffChange → Bool
  | .profile _ _ email _ => s.users.rows.any fun user => user.id ≠ id ∧ user.email = email
  | _ => false

variable (T : StaffService)

def verifyPassword (s : StaffSystem) (request : RequestId) (user : Option User) (password : String)
    (passwordChangeOnly : Bool) (now : Time) : StaffSystem :=
  match loginDecision user (fun user => T.comparePassword password user.passwordHash) passwordChangeOnly with
  | .reply _ => s.close request
  | .passwordChange user =>
    { s.close request with passwordTokens := signPasswordChangeToken user now::s.passwordTokens }
  | .signIn user => s.await request (.signingIn user)

/-- The update and the count of the rows it matched. -/
def signIn (s : StaffSystem) (request : RequestId) (read : User) (now : Time) : StaffSystem :=
  match s.users.find read.id with
  | none => s.close request
  | some user =>
    if SignInMatches read user then
      (s.write read.id (.signIn (read.role = .driver) now)).await request (.signedIn read)
    else s.close request

def authenticate (s : StaffSystem) (request : RequestId) (token : AuthToken) (visit : Visit) (now : Time) :
    Option StaffSystem :=
  if token ∈ s.tokens ∧ now / 1000 < token.expiresAt ∧ (s.requests request).isNone then
    match requireAuth (s.users.find token.userId) token with
    | .error _ => none
    | .ok payload =>
      some (s.await request (.authenticated payload visit (revocations (writesOf s.log token.userId))))
  else none

def changeStaff (s : StaffSystem) (actorId id : UserId) (staffRevision : Nat) (change : StaffChange)
    (unfinished : Nat) : Option StaffSystem :=
  match SpeedySweeties.changeStaff actorId (s.users.find id) staffRevision change unfinished with
  | .error _ => none
  | .ok _ => if s.emailTaken id change then none else some (s.write id (.staff change))

def step (s : StaffSystem) : StaffAction → Option StaffSystem
  | .register id email passwordHash role firstName lastName =>
    if (s.users.find id).isSome ∨ s.users.rows.any (·.email = T.toLowerCase (trim email)) then none
    else
      let user := registeredUser id (T.toLowerCase (trim email)) passwordHash role firstName lastName
      some { s with users := s.users.put user }
  | .readLogin request email =>
    if (s.requests request).isSome then none
    else some (s.await request (.login (s.users.rows.find? (·.email = T.toLowerCase (trim email)))))
  | .verifyPassword request password passwordChangeOnly now =>
    match s.requests request with
    | some (.login user) => some (s.verifyPassword T request user password passwordChangeOnly now)
    | _ => none
  | .signIn request now =>
    match s.requests request with
    | some (.signingIn read) => some (s.signIn request read now)
    | _ => none
  | .issueToken request now =>
    match s.requests request with
    | some (.signedIn read) => some { s.close request with tokens := signAuthToken read now::s.tokens }
    | _ => none
  | .authenticate request token visit now => s.authenticate request token visit now
  | .readVisit request =>
    match s.requests request with
    | some (.authenticated payload visit seen) =>
      match visit.check (s.users.find payload.userId) with
      | .error _ => some (s.close request)
      | .ok _ => some (s.await request (.visiting payload.userId visit seen))
    | _ => none
  | .writeVisit request now =>
    match s.requests request with
    | some (.visiting userId visit _) => some ((s.write userId (visit.write now)).close request)
    | _ => none
  | .changeStaff actorId id staffRevision change unfinished =>
    s.changeStaff actorId id staffRevision change unfinished
  | .forceLogoutDispatcher id now =>
    match s.users.find id with
    | none => none
    | some user => if user.role = .dispatcher then some (s.write id (.forceLogout now)) else none
  | .readDriver request id change =>
    if (s.requests request).isSome then none
    else match driverForChange (s.users.find id) with
    | .error _ => none
    | .ok _ => some (s.await request (.changingDriver id change))
  | .changeDriver request now =>
    match s.requests request with
    | some (.changingDriver id change) => some ((s.write id (change.write now)).close request)
    | _ => none
  | .readPasswordChange request token password now =>
    if token ∈ s.passwordTokens ∧ now / 1000 < token.expiresAt ∧ (s.requests request).isNone then
      match passwordChangeUser T.comparePassword (s.users.find token.sub) token password with
      | .error _ => none
      | .ok user => some (s.await request (.changingPassword user.id token))
    else none
  | .changePassword request passwordHash =>
    match s.requests request with
    | some (.changingPassword id token) =>
      match s.users.find id with
      | none => some (s.close request)
      | some user =>
        if user.isActive ∧ user.authVersion = token.authVersion then
          some ((s.write id (.changePassword token.authVersion passwordHash)).close request)
        else some (s.close request)
    | _ => none
  | .clearInvalidToken id token => some (s.write id (.clearInvalidToken token))
  | .abandon request => some (s.close request)

abbrev Reachable (users : Table User User.id) : StaffSystem → Prop :=
  Transition.Reachable (step T) (initial users)

/-! ### What one step does -/

/-- What is known of a request that has come further by a step from `s` to `t`. -/
inductive RequestSource (s t : StaffSystem) : StaffRequest → Prop where
  | login (user : Option User) (read : ∀ u, user = some u → u ∈ s.users.rows) : RequestSource s t (.login user)
  | signingIn (request : RequestId) (user : User) (read : s.requests request = some (.login (some user)))
      (shown : ¬ user.HiddenDriver) : RequestSource s t (.signingIn user)
  | signedIn (request : RequestId) (read user : User) (now : Time)
      (verified : s.requests request = some (.signingIn read))
      (row : s.users.find read.id = some user) (same : SignInMatches read user)
      (users : t.users = s.users.put ((AccountWrite.signIn (read.role = .driver) now).apply user))
      (log : t.log = (read.id,.signIn (read.role = .driver) now)::s.log) : RequestSource s t (.signedIn read)
  | authenticated (payload token : AuthToken) (visit : Visit) (user : User) (issued : token ∈ s.tokens)
      (row : s.users.find token.userId = some user) (current : token.authVersion = user.authVersion)
      (mine : payload.userId = token.userId) :
      RequestSource s t (.authenticated payload visit (revocations (writesOf s.log payload.userId)))
  | visiting (request : RequestId) (payload : AuthToken) (visit : Visit) (seen : Nat)
      (came : s.requests request = some (.authenticated payload visit seen)) :
      RequestSource s t (.visiting payload.userId visit seen)
  | changingDriver (id : UserId) (change : DriverChange) : RequestSource s t (.changingDriver id change)
  | changingPassword (id : UserId) (token : PasswordChangeToken) : RequestSource s t (.changingPassword id token)

/-- The updates of a step, with the row their statement has found. -/
inductive UpdateSource (s : StaffSystem) : StaffAction → UserId → User → AccountWrite → Prop where
  | signedIn (request : RequestId) (read user : User) (now : Time)
      (verified : s.requests request = some (.signingIn read)) (same : SignInMatches read user) :
      UpdateSource s (.signIn request now) read.id user (.signIn (read.role = .driver) now)
  | visited (request : RequestId) (id : UserId) (visit : Visit) (seen : Nat) (user : User) (now : Time)
      (came : s.requests request = some (.visiting id visit seen)) :
      UpdateSource s (.writeVisit request now) id user (visit.write now)
  | staff (actorId id : UserId) (staffRevision : Nat) (change : StaffChange) (unfinished : Nat) (user : User) :
      UpdateSource s (.changeStaff actorId id staffRevision change unfinished) id user (.staff change)
  | dispatcher (id : UserId) (user : User) (now : Time) :
      UpdateSource s (.forceLogoutDispatcher id now) id user (.forceLogout now)
  | driver (request : RequestId) (id : UserId) (change : DriverChange) (user : User) (now : Time) :
      UpdateSource s (.changeDriver request now) id user (change.write now)
  | password (request : RequestId) (id : UserId) (token : PasswordChangeToken) (user : User) (passwordHash : String)
      (current : user.authVersion = token.authVersion) :
      UpdateSource s (.changePassword request passwordHash) id user (.changePassword token.authVersion passwordHash)
  | cleared (id : UserId) (token : String) (user : User) :
      UpdateSource s (.clearInvalidToken id token) id user (.clearInvalidToken token)

inductive AccountStep (s : StaffSystem) (a : StaffAction) (t : StaffSystem) : Prop where
  | same (users : t.users = s.users) (log : t.log = s.log)
  | registered (user : User) (fresh : s.users.find user.id = none) (users : t.users = s.users.put user)
      (log : t.log = s.log) (offline : user.isOnline = false) (silent : user.driverFcmToken = none)
  | written (id : UserId) (w : AccountWrite) (user : User) (row : s.users.find id = some user)
      (users : t.users = s.users.put (w.apply user)) (log : t.log = (id,w)::s.log)
      (source : UpdateSource s a id user w)

structure StaffStep (s : StaffSystem) (a : StaffAction) (t : StaffSystem) : Prop where
  account : AccountStep s a t
  requests : ∀ request x, t.requests request = some x → s.requests request = some x ∨ RequestSource s t x
  tokens : ∀ token ∈ t.tokens, token ∈ s.tokens ∨
    ∃ request read now, s.requests request = some (.signedIn read) ∧ token = signAuthToken read now
  passwordTokens : ∀ token ∈ t.passwordTokens, token ∈ s.passwordTokens ∨
    ∃ request read now, s.requests request = some (.login (some read)) ∧ token = signPasswordChangeToken read now

variable {T} {s t u : StaffSystem} {a : StaffAction} {id : UserId} {user : User} {w : AccountWrite}
  {request : RequestId}

theorem closedRequests (other : RequestId) {x : StaffRequest} (held : (s.close request).requests other = some x) :
    s.requests other = some x := by
  simp only [close,Function.update_apply] at held
  split at held
  · contradiction
  · exact held

theorem awaitedRequests {next : StaffRequest} (other : RequestId) {x : StaffRequest}
    (held : (s.await request next).requests other = some x) : s.requests other = some x ∨ x = next := by
  simp only [await,Function.update_apply] at held
  split at held
  · exact .inr (Option.some.inj held).symm
  · exact .inl held

theorem writeRequests (s : StaffSystem) (id : UserId) (w : AccountWrite) :
    (s.write id w).requests = s.requests ∧ (s.write id w).tokens = s.tokens ∧
      (s.write id w).passwordTokens = s.passwordTokens := by
  unfold write
  split <;> exact ⟨rfl,rfl,rfl⟩

theorem writeRow (row : s.users.find id = some user) :
    s.write id w = { s with users := s.users.put (w.apply user), log := (id,w)::s.log } := by
  simp only [write,row]

theorem writeAccount (source : ∀ user, s.users.find id = some user → UpdateSource s a id user w)
    (users : t.users = (s.write id w).users) (log : t.log = (s.write id w).log) : AccountStep s a t := by
  cases row : s.users.find id with
  | none =>
    simp only [write,row] at users log
    exact .same users log
  | some user =>
    rw [writeRow row] at users log
    exact .written id w user row users log (source user row)

theorem StaffStep.plain (account : AccountStep s a t)
    (requests : ∀ other x, t.requests other = some x → s.requests other = some x ∨ RequestSource s t x)
    (tokens : t.tokens = s.tokens) (passwordTokens : t.passwordTokens = s.passwordTokens) : StaffStep s a t :=
  ⟨account,requests,fun _ issued => .inl (tokens ▸ issued),fun _ issued => .inl (passwordTokens ▸ issued)⟩

theorem StaffStep.closed (account : AccountStep s a t) (requests : t.requests = (s.close request).requests)
    (tokens : t.tokens = s.tokens) (passwordTokens : t.passwordTokens = s.passwordTokens) : StaffStep s a t :=
  .plain account (fun other _ held => .inl (closedRequests other (requests ▸ held))) tokens passwordTokens

theorem StaffStep.awaits {next : StaffRequest} (account : AccountStep s a t) (source : RequestSource s t next)
    (requests : t.requests = (s.await request next).requests) (tokens : t.tokens = s.tokens)
    (passwordTokens : t.passwordTokens = s.passwordTokens) : StaffStep s a t := by
  refine .plain account (fun other x held => ?_) tokens passwordTokens
  rcases awaitedRequests other (requests ▸ held) with old | rfl
  · exact .inl old
  · exact .inr source

theorem StaffStep.still (account : AccountStep s a t) (requests : t.requests = s.requests)
    (tokens : t.tokens = s.tokens) (passwordTokens : t.passwordTokens = s.passwordTokens) : StaffStep s a t :=
  .plain account (fun _ _ held => .inl (requests ▸ held)) tokens passwordTokens

theorem StaffStep.writeCloses (source : ∀ user, s.users.find id = some user → UpdateSource s a id user w) :
    StaffStep s a ((s.write id w).close request) := by
  obtain ⟨requests,tokens,passwordTokens⟩ := writeRequests s id w
  have closed : ((s.write id w).close request).requests = (s.close request).requests := by
    simp only [close,requests]
  exact .closed (writeAccount source rfl rfl) closed tokens passwordTokens

theorem StaffStep.writes (source : ∀ user, s.users.find id = some user → UpdateSource s a id user w) :
    StaffStep s a (s.write id w) :=
  have ⟨requests,tokens,passwordTokens⟩ := writeRequests s id w
  .still (writeAccount source rfl rfl) requests tokens passwordTokens

theorem loginSignsIn {read : Option User} {isValid : User → Bool} {passwordChangeOnly : Bool}
    (decided : loginDecision read isValid passwordChangeOnly = .signIn user) :
    read = some user ∧ ¬ user.HiddenDriver := by
  cases read with
  | none => contradiction
  | some found =>
    simp only [loginDecision] at decided
    split at decided
    · contradiction
    split at decided
    · contradiction
    split at decided
    · contradiction
    split at decided
    · contradiction
    · rename_i shown
      cases decided
      exact ⟨rfl,by simpa [User.HiddenDriver] using shown⟩

theorem loginChangesPassword {read : Option User} {isValid : User → Bool} {passwordChangeOnly : Bool}
    (decided : loginDecision read isValid passwordChangeOnly = .passwordChange user) : read = some user := by
  cases read with
  | none => contradiction
  | some found =>
    simp only [loginDecision] at decided
    split at decided
    · contradiction
    split at decided
    · contradiction
    split at decided
    · cases decided
      rfl
    split at decided <;> contradiction

theorem verifyPasswordStep {read : Option User} {password : String} {passwordChangeOnly : Bool} {now : Time}
    (came : s.requests request = some (.login read)) :
    StaffStep s a (s.verifyPassword T request read password passwordChangeOnly now) := by
  unfold verifyPassword
  split
  · exact .closed (.same rfl rfl) rfl rfl rfl
  · rename_i user decided
    refine ⟨.same rfl rfl,fun other _ held => .inl (closedRequests other held),fun _ issued => .inl issued,
      fun token issued => ?_⟩
    rcases List.mem_cons.mp issued with rfl | old
    · exact .inr ⟨request,user,now,loginChangesPassword decided ▸ came,rfl⟩
    · exact .inl old
  · rename_i user decided
    obtain ⟨rfl,shown⟩ := loginSignsIn decided
    exact .awaits (.same rfl rfl) (.signingIn request user came shown) rfl rfl rfl

theorem signInStep {read : User} {now : Time} (came : s.requests request = some (.signingIn read)) :
    StaffStep s (.signIn request now) (s.signIn request read now) := by
  unfold signIn
  split
  · exact .closed (.same rfl rfl) rfl rfl rfl
  · rename_i user row
    split
    · rename_i same
      rw [writeRow row]
      exact .awaits (.written _ _ user row rfl rfl (.signedIn request read user now came same))
        (.signedIn request read user now came row same rfl rfl) rfl rfl rfl
    · exact .closed (.same rfl rfl) rfl rfl rfl

theorem requireAuthAccepts {user : Option User} {payload accepted : AuthToken}
    (h : requireAuth user payload = .ok accepted) :
    ∃ row, user = some row ∧ row.isActive = true ∧ payload.authVersion = row.authVersion ∧
      row.forceLogoutAt = none ∧ accepted.userId = payload.userId := by
  cases user with
  | none => contradiction
  | some row =>
    simp only [requireAuth] at h
    split at h
    · contradiction
    rename_i active
    split at h
    · contradiction
    rename_i current
    split at h
    · contradiction
    rename_i kept
    cases h
    simp only [not_or,not_not] at current
    exact ⟨row,rfl,by simpa using active,current.2,by simpa using kept,rfl⟩

theorem authenticateStep {token : AuthToken} {visit : Visit} {now : Time}
    (h : s.authenticate request token visit now = some t) : StaffStep s a t := by
  unfold authenticate at h
  split at h
  case isFalse => contradiction
  rename_i valid
  split at h
  · contradiction
  rename_i payload accepted
  cases h
  obtain ⟨row,found,_,current,_,mine⟩ := requireAuthAccepts accepted
  rw [← mine]
  exact .awaits (.same rfl rfl) (.authenticated payload token visit row valid.1 found current mine) rfl rfl rfl

theorem changeStaffStep {actorId : UserId} {staffRevision : Nat} {change : StaffChange} {unfinished : Nat}
    (h : s.changeStaff actorId id staffRevision change unfinished = some t) :
    StaffStep s (.changeStaff actorId id staffRevision change unfinished) t := by
  unfold changeStaff at h
  split at h
  · contradiction
  split at h
  · contradiction
  cases h
  exact .writes fun user _ => .staff actorId id staffRevision change unfinished user

theorem readPasswordChangeStep {token : PasswordChangeToken} {password : String} {now : Time}
    (h : s.step T (.readPasswordChange request token password now) = some t) : StaffStep s a t := by
  simp only [step] at h
  split at h
  case isFalse => contradiction
  split at h
  · contradiction
  · cases h
    exact .awaits (.same rfl rfl) (.changingPassword _ token) rfl rfl rfl

theorem changePasswordStep {passwordHash : String} (h : s.step T (.changePassword request passwordHash) = some t) :
    StaffStep s (.changePassword request passwordHash) t := by
  simp only [step] at h
  split at h
  case h_2 => contradiction
  rename_i id token came
  split at h
  · cases h
    exact .closed (.same rfl rfl) rfl rfl rfl
  · rename_i user row
    split at h
    · rename_i current
      cases h
      refine .writeCloses fun found here => ?_
      cases Option.some.inj (row.symm.trans here)
      exact .password request id token user passwordHash current.2
    · cases h
      exact .closed (.same rfl rfl) rfl rfl rfl

theorem staffStep (taken : s.step T a = some t) : StaffStep s a t := by
  cases a with
  | register id email passwordHash role firstName lastName =>
    simp only [step] at taken
    split at taken
    · contradiction
    · rename_i fresh
      cases taken
      exact .still (.registered (registeredUser id _ passwordHash role firstName lastName)
        (Option.not_isSome_iff_eq_none.mp (not_or.mp fresh).1)
        rfl rfl rfl rfl) rfl rfl rfl
  | readLogin request email =>
    simp only [step] at taken
    split at taken
    · contradiction
    · cases taken
      exact .awaits (.same rfl rfl) (.login _ fun u found => List.mem_of_find?_eq_some found) rfl rfl rfl
  | verifyPassword request password passwordChangeOnly now =>
    simp only [step] at taken
    split at taken
    · rename_i read came
      cases taken
      exact verifyPasswordStep came
    · contradiction
  | signIn request now =>
    simp only [step] at taken
    split at taken
    · rename_i read came
      cases taken
      exact signInStep came
    · contradiction
  | issueToken request now =>
    simp only [step] at taken
    split at taken
    · rename_i read came
      cases taken
      refine ⟨.same rfl rfl,fun other _ held => .inl (closedRequests other held),fun token issued => ?_,
        fun _ issued => .inl issued⟩
      rcases List.mem_cons.mp issued with rfl | old
      · exact .inr ⟨request,read,now,came,rfl⟩
      · exact .inl old
    · contradiction
  | authenticate request token visit now => exact authenticateStep taken
  | readVisit request =>
    simp only [step] at taken
    split at taken
    · rename_i payload visit seen came
      split at taken <;> cases taken
      · exact .closed (.same rfl rfl) rfl rfl rfl
      · exact .awaits (.same rfl rfl) (.visiting request payload visit seen came) rfl rfl rfl
    · contradiction
  | writeVisit request now =>
    simp only [step] at taken
    split at taken
    · rename_i id visit seen came
      cases taken
      exact .writeCloses fun user _ => .visited request id visit seen user now came
    · contradiction
  | changeStaff actorId id staffRevision change unfinished => exact changeStaffStep taken
  | forceLogoutDispatcher id now =>
    simp only [step] at taken
    split at taken
    · contradiction
    · split at taken
      · cases taken
        exact .writes fun user _ => .dispatcher id user now
      · contradiction
  | readDriver request id change =>
    simp only [step] at taken
    split at taken
    · contradiction
    · split at taken
      · contradiction
      · cases taken
        exact .awaits (.same rfl rfl) (.changingDriver id change) rfl rfl rfl
  | changeDriver request now =>
    simp only [step] at taken
    split at taken
    · rename_i id change came
      cases taken
      exact .writeCloses fun user _ => .driver request id change user now
    · contradiction
  | readPasswordChange request token password now => exact readPasswordChangeStep taken
  | changePassword request passwordHash => exact changePasswordStep taken
  | clearInvalidToken id token =>
    cases taken
    exact .writes fun user _ => .cleared id token user
  | abandon request =>
    cases taken
    exact .closed (.same rfl rfl) rfl rfl rfl

end StaffSystem
end SpeedySweeties
