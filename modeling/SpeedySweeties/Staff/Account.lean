import SpeedySweeties.Library.JsText
import SpeedySweeties.Order.Handlers

/-! Staff accounts: what the session middleware and the handlers of sign-in, presence and
staff management decide on an account row, and what they write to it. Of a driver's location
its position and time are kept. -/
namespace SpeedySweeties
open JsText

inductive DriverAppState where | foreground | background deriving DecidableEq, Repr

structure DriverLocation where
  latitude : Option Int
  longitude : Option Int
  locationUpdatedAt : Option Time
  deriving DecidableEq, Repr

structure User extends DriverLocation where
  id : UserId
  email : String
  passwordHash : String
  staffRevision : Nat
  authVersion : Nat
  passwordChangeRequired : Bool
  role : UserRole
  firstName : Option String
  lastName : Option String
  isActive : Bool
  isVisibleInDispatch : Bool
  isOnline : Bool
  lastSeenAt : Option Time
  driverFcmToken : Option String
  driverAppState : Option DriverAppState
  driverAppStateUpdatedAt : Option Time
  forceLogoutAt : Option Time
  deriving DecidableEq, Repr

/-- Library functions on texts and password hashes. -/
structure StaffService where
  toLowerCase : String → String
  comparePassword : String → String → Bool

def sampleStaff : StaffService where
  toLowerCase text := String.ofList (text.toList.map Char.toLower)
  comparePassword password passwordHash := passwordHash = "hash:" ++ password

/-! ### jwt.ts -/

/-- Expiry is in seconds. -/
structure AuthToken where
  userId : UserId
  email : String
  role : UserRole
  authVersion : Nat
  expiresAt : Nat
  deriving DecidableEq, Repr

structure PasswordChangeToken where
  sub : UserId
  authVersion : Nat
  expiresAt : Nat
  deriving DecidableEq, Repr

def signAuthToken (user : User) (now : Time) : AuthToken :=
  ⟨user.id,user.email,user.role,user.authVersion,now / 1000 + 7*24*60*60⟩

def signPasswordChangeToken (user : User) (now : Time) : PasswordChangeToken :=
  ⟨user.id,user.authVersion,now / 1000 + 10*60⟩

/-! ### auth.middleware.ts -/

/-- The request's user, of the account as it is now, or the rejection. -/
def requireAuth (user : Option User) (payload : AuthToken) : Except Reply AuthToken :=
  match user with
  | none => .error ⟨401,none,"User not found"⟩
  | some user =>
    if ¬ user.isActive then .error unauthorized
    else if user.passwordChangeRequired ∨ payload.authVersion ≠ user.authVersion then
      .error ⟨401,none,"Your sign-in has expired. Please sign in again."⟩
    else if user.forceLogoutAt.isSome then .error ⟨401,none,"FORCE_LOGOUT"⟩
    else .ok { payload with email := user.email, role := user.role }

/-! ### auth.controller.ts -/

def registeredUser (id : UserId) (email passwordHash : String) (role : UserRole)
    (firstName lastName : Option String) : User where
  id := id
  email := email
  passwordHash := passwordHash
  staffRevision := 0
  authVersion := 0
  passwordChangeRequired := false
  role := role
  firstName := (firstName.map trim).filter (· ≠ "")
  lastName := (lastName.map trim).filter (· ≠ "")
  isActive := true
  isVisibleInDispatch := true
  isOnline := false
  lastSeenAt := none
  latitude := none
  longitude := none
  locationUpdatedAt := none
  driverFcmToken := none
  driverAppState := some .foreground
  driverAppStateUpdatedAt := none
  forceLogoutAt := none

inductive LoginDecision where
  | reply (reply : Reply)
  | passwordChange (user : User)
  | signIn (user : User)

def loginDecision (user : Option User) (isValid : User → Bool) (passwordChangeOnly : Bool) : LoginDecision :=
  match user with
  | none => .reply ⟨401,none,"Invalid email or password"⟩
  | some user =>
    if ¬ isValid user then .reply ⟨401,none,"Invalid email or password"⟩
    else if ¬ user.isActive then
      .reply ⟨403,none,"This staff account is deactivated. Contact your administrator."⟩
    else if user.passwordChangeRequired ∨ passwordChangeOnly then .passwordChange user
    else if user.role = .driver ∧ ¬ user.isVisibleInDispatch then
      .reply ⟨403,none,"This driver is currently hidden from dispatch. Contact dispatch for access."⟩
    else .signIn user

/-- The `where` of the update that signs in the account as it was read. -/
def SignInMatches (read user : User) : Prop :=
  user.isActive = true ∧ user.authVersion = read.authVersion ∧ user.passwordHash = read.passwordHash ∧
    user.passwordChangeRequired = false

instance (read user : User) : Decidable (SignInMatches read user) := by unfold SignInMatches; infer_instance

/-! ### staff.controller.ts -/

inductive StaffChange where
  | profile (firstName lastName email : String) (role : UserRole)
  | status (isActive : Bool)
  | password (passwordHash : String)
  deriving DecidableEq, Repr

def StaffChange.accessChanges (change : StaffChange) (user : User) : Bool :=
  match change with
  | .password _ => true
  | .status isActive => !isActive
  | .profile _ _ email role => role ≠ user.role ∨ email ≠ user.email

def StaffChange.revokeSessions (change : StaffChange) (user : User) : Bool :=
  change.accessChanges user || match change with
    | .status isActive => isActive ≠ user.isActive
    | _ => false

def StaffChange.isPassword : StaffChange → Bool
  | .password _ => true
  | _ => false

def unfinishedMessage (unfinished : Nat) : String :=
  "This driver has " ++ toString unfinished ++ " unfinished " ++
    (if unfinished = 1 then "delivery" else "deliveries") ++
    ". Finish or reassign them in Live Orders before changing their access."

/-- The checks of `changeStaff` on the locked account; `unfinished` counts its orders. -/
def changeStaff (actorId : UserId) (user : Option User) (staffRevision : Nat) (change : StaffChange)
    (unfinished : Nat) : Except Reply User :=
  match user with
  | none => .error ⟨404,none,"Staff member not found."⟩
  | some user =>
    if user.role = .admin ∨ user.id = actorId then
      .error ⟨403,none,"Administrator accounts cannot be changed from staff management."⟩
    else if user.staffRevision ≠ staffRevision then
      .error ⟨409,none,"This profile changed. Cancel this edit, refresh the staff list, then try again."⟩
    else if change.accessChanges user ∧ user.role = .driver ∧ 0 < unfinished then
      .error ⟨409,none,unfinishedMessage unfinished⟩
    else if change.isPassword ∧ ¬ user.isActive then
      .error ⟨409,none,"Reactivate this staff member before resetting their password."⟩
    else .ok user

def StaffChange.changed (change : StaffChange) (user : User) : User :=
  match change with
  | .profile firstName lastName email role => { user with
      firstName := some firstName, lastName := some lastName, email, role, staffRevision := user.staffRevision + 1 }
  | .status isActive => { user with isActive, staffRevision := user.staffRevision + 1 }
  | .password passwordHash => { user with
      passwordHash, passwordChangeRequired := true, staffRevision := user.staffRevision + 1 }

def User.endSessions (user : User) : User := { user with
  authVersion := user.authVersion + 1, isOnline := false, forceLogoutAt := none, driverFcmToken := none
  latitude := none, longitude := none, locationUpdatedAt := none }

def StaffChange.apply (change : StaffChange) (user : User) : User :=
  if change.revokeSessions user then (change.changed user).endSessions else change.changed user

/-- The account that may change its password with the token. -/
def passwordChangeUser (comparePassword : String → String → Bool) (user : Option User) (token : PasswordChangeToken)
    (password : String) : Except Reply User :=
  match user with
  | none => .error ⟨401,none,"Password change session expired. Sign in again."⟩
  | some user =>
    if ¬ user.isActive ∨ user.authVersion ≠ token.authVersion then
      .error ⟨401,none,"Password change session expired. Sign in again."⟩
    else if comparePassword password user.passwordHash then
      .error ⟨400,none,"Choose a different password from your temporary or current password."⟩
    else .ok user

/-! ### driverPresence.controller.ts -/

structure HeartbeatBody where
  location : Option (Int × Int)
  appState : Option String
  driverFcmToken : Option String
  deriving DecidableEq, Repr

/-- Coordinates are micro-degrees. -/
def validLocation (location : Option (Int × Int)) : Option (Int × Int) :=
  location.filter fun (latitude,longitude) =>
    -90000000 ≤ latitude ∧ latitude ≤ 90000000 ∧ -180000000 ≤ longitude ∧ longitude ≤ 180000000

def validAppState (appState : Option String) : Option DriverAppState := do
  let cleaned := String.ofList ((trim (← appState)).toList.map Char.toUpper)
  if cleaned = "FOREGROUND" then some .foreground else if cleaned = "BACKGROUND" then some .background else none

def validDriverFcmToken (token : Option String) : Option String := (token.map trim).filter (· ≠ "")

inductive Presence where
  | online
  | offline
  | heartbeat (body : HeartbeatBody)
  deriving DecidableEq, Repr

def Presence.showsOnline : Presence → Bool
  | .offline => false
  | _ => true

def presenceUser (presence : Presence) (user : Option User) : Except Reply User :=
  match user with
  | none => .error ⟨404,none,"Driver not found"⟩
  | some user =>
    if presence.showsOnline ∧ (¬ user.isActive ∨ ¬ user.isVisibleInDispatch) then
      .error ⟨403,none,"This driver is not available in dispatch"⟩
    else .ok user

def Presence.apply (presence : Presence) (now : Time) (user : User) : User :=
  match presence with
  | .online => { user with
      isOnline := true, lastSeenAt := some now, driverAppState := some .foreground
      driverAppStateUpdatedAt := some now }
  | .offline => { user with
      isOnline := false, lastSeenAt := some now, driverAppState := some .background
      driverAppStateUpdatedAt := some now }
  | .heartbeat body => { user with
      toDriverLocation := match validLocation body.location with
        | some (latitude,longitude) => ⟨some latitude,some longitude,some now⟩
        | none => user.toDriverLocation
      isOnline := true, lastSeenAt := some now
      driverAppState := validAppState body.appState <|> user.driverAppState
      driverAppStateUpdatedAt := if (validAppState body.appState).isSome then some now
        else user.driverAppStateUpdatedAt
      driverFcmToken := validDriverFcmToken body.driverFcmToken <|> user.driverFcmToken }

/-! ### adminDriver.controller.ts -/

inductive DriverChange where | show | hide | forceLogout deriving DecidableEq, Repr

def driverForChange (driver : Option User) : Except Reply User :=
  match driver with
  | none => .error ⟨404,none,"Driver not found"⟩
  | some driver => if driver.role ≠ .driver then .error ⟨404,none,"Driver not found"⟩ else .ok driver

/-! ### The committed updates of an account -/

inductive AccountWrite where
  | signIn (driver : Bool) (now : Time)
  | forceLogout (now : Time)
  | hide (now : Time)
  | unhide
  | staff (change : StaffChange)
  | changePassword (authVersion : Nat) (passwordHash : String)
  | profile (firstName lastName : Option (Option String))
  | presence (presence : Presence) (now : Time)
  | clearInvalidToken (token : String)
  deriving DecidableEq, Repr

def AccountWrite.apply (user : User) : AccountWrite → User
  | .signIn driver now =>
    if driver then { user with forceLogoutAt := none, isOnline := true, lastSeenAt := some now }
    else { user with forceLogoutAt := none }
  | .forceLogout now => { user with
      isOnline := false, authVersion := user.authVersion + 1, staffRevision := user.staffRevision + 1
      lastSeenAt := some now, forceLogoutAt := some now }
  | .hide now => { user with
      isVisibleInDispatch := false, authVersion := user.authVersion + 1, staffRevision := user.staffRevision + 1
      isOnline := false, lastSeenAt := some now, forceLogoutAt := some now }
  | .unhide => { user with isVisibleInDispatch := true, staffRevision := user.staffRevision + 1 }
  | .staff change => change.apply user
  | .changePassword _ passwordHash => { user with
      passwordHash, passwordChangeRequired := false, staffRevision := user.staffRevision + 1
      authVersion := user.authVersion + 1, isOnline := false, forceLogoutAt := none, driverFcmToken := none }
  | .profile firstName lastName => { user with
      staffRevision := user.staffRevision + 1, firstName := firstName.getD user.firstName
      lastName := lastName.getD user.lastName }
  | .presence kind now => kind.apply now user
  | .clearInvalidToken token =>
    if user.driverFcmToken = some token then { user with driverFcmToken := none } else user

/-- Password changes and resets, forced logouts, hiding a driver, deactivation and
reactivation, and edits of the email or the role. -/
def AccountWrite.revokes (user : User) : AccountWrite → Bool
  | .forceLogout _ | .hide _ | .changePassword .. | .staff (.password _) => true
  | .staff (.status isActive) => isActive = false ∨ isActive ≠ user.isActive
  | .staff (.profile _ _ email role) => role ≠ user.role ∨ email ≠ user.email
  | _ => false

theorem revokesStaff (change : StaffChange) (user : User) :
    change.revokeSessions user = AccountWrite.revokes user (.staff change) := by
  cases change <;> simp [StaffChange.revokeSessions,StaffChange.accessChanges,AccountWrite.revokes,Bool.decide_or]

@[simp] theorem changedId (change : StaffChange) (user : User) : (change.changed user).id = user.id := by
  cases change <;> rfl

@[simp] theorem changedVersion (change : StaffChange) (user : User) :
    (change.changed user).authVersion = user.authVersion := by
  cases change <;> rfl

@[simp] theorem AccountWrite.applyId (w : AccountWrite) (user : User) : (w.apply user).id = user.id := by
  cases w with
  | signIn driver now => cases driver <;> rfl
  | staff change =>
    simp only [AccountWrite.apply,StaffChange.apply]
    split <;> exact changedId change user
  | presence kind now => cases kind <;> rfl
  | clearInvalidToken token =>
    simp only [AccountWrite.apply]
    split <;> rfl
  | _ => rfl

theorem writeVersion (w : AccountWrite) (user : User) :
    (w.apply user).authVersion = if w.revokes user then user.authVersion + 1 else user.authVersion := by
  cases w with
  | signIn driver now => cases driver <;> rfl
  | staff change =>
    simp only [AccountWrite.apply,StaffChange.apply,revokesStaff]
    split <;> simp [User.endSessions]
  | presence kind now => cases kind <;> rfl
  | clearInvalidToken token =>
    simp only [AccountWrite.apply]
    split <;> rfl
  | _ => rfl

def User.HiddenDriver (user : User) : Prop := user.role = .driver ∧ user.isVisibleInDispatch = false

theorem unrevokedHidden {w : AccountWrite} {user : User} (kept : w.revokes user = false)
    (hidden : (w.apply user).HiddenDriver) : user.HiddenDriver := by
  cases w with
  | signIn driver now => cases driver <;> exact hidden
  | forceLogout now => contradiction
  | hide now => contradiction
  | unhide => exact absurd hidden.2 Bool.noConfusion
  | staff change =>
    simp only [AccountWrite.apply,StaffChange.apply,revokesStaff,kept] at hidden
    cases change with
    | profile firstName lastName email role =>
      simp only [AccountWrite.revokes,decide_eq_false_iff_not,not_or,not_not] at kept
      exact ⟨kept.1 ▸ hidden.1,hidden.2⟩
    | status isActive => exact hidden
    | password passwordHash => contradiction
  | changePassword authVersion passwordHash => contradiction
  | profile firstName lastName => exact hidden
  | presence kind now => cases kind <;> exact hidden
  | clearInvalidToken token =>
    simp only [AccountWrite.apply] at hidden
    split at hidden <;> exact hidden

end SpeedySweeties
