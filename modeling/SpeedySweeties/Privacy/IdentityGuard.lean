import SpeedySweeties.Privacy.RequestSteps

/-! Phone numbers as identities. Inputs that denote one subscriber can differ in their
digits; the guard of the order transactions looks an input up by its digits. -/
namespace SpeedySweeties
open JsText

/-- `phoneRegex`, on the trimmed input. -/
def phoneAccepted (text : String) : Bool :=
  7 ≤ length text && length text ≤ 20 &&
    text.toList.all fun c => c.isDigit || c ∈ "()+-.".toList || isSpace c

def nationalNumber : List Char → List Char
  | '1'::rest => if rest.length = 10 then rest else '1'::rest
  | digits => digits

/-- An input without digits denotes nobody. -/
def subscriber (phone : String) : Option (List Char) :=
  if phoneDigits phone = "" then none else some (nationalNumber (phoneDigits phone).toList)

def SameSubscriber (a b : String) : Prop := subscriber a ≠ none ∧ subscriber a = subscriber b

instance (a b : String) : Decidable (SameSubscriber a b) := by unfold SameSubscriber; infer_instance

variable {δ : Type} (S : PrivacyService δ) {J : PrivacyRecoveryJournal δ}

def assertPrivacyOrderAllowed (db : PrivacyDb) (phone : String) : Except PrivacyFailure Unit := do
  require (db.identities.rows.all (·.keyFingerprint = S.keyFingerprint))
    (.privacy 503 "PRIVACY_KEY_MIGRATION_REQUIRED")
  require (db.identities.find (S.hash ("phone:" ++ phoneDigits phone))).isNone
    (.privacy 409 "IDENTITY_REVERIFICATION_REQUIRED")

/-! ### Digits and subscribers -/

theorem digitsCongr {a b : String} (h : a.toList.filter Char.isDigit = b.toList.filter Char.isDigit) :
    phoneDigits a = phoneDigits b := congrArg String.ofList h

@[simp] theorem digitsDigits (phone : String) : phoneDigits (phoneDigits phone) = phoneDigits phone :=
  digitsCongr (by simp [phoneDigits])

theorem filterDropSpace (text : List Char) : (text.dropWhile isSpace).filter Char.isDigit = text.filter Char.isDigit := by
  induction text with
  | nil => rfl
  | cons c rest ih =>
    rw [List.dropWhile_cons]
    split
    · rename_i space
      rw [ih,List.filter_cons_of_neg (by simp [spaceNoDigit space])]
    · rfl

@[simp] theorem digitsTrim (phone : String) : phoneDigits (trim phone) = phoneDigits phone :=
  digitsCongr (by
    rw [trim,String.toList_ofList,List.filter_reverse,filterDropSpace,← List.filter_reverse,List.reverse_reverse,
      filterDropSpace])

theorem subscriberDigits {a b : String} (h : phoneDigits a = phoneDigits b) : subscriber a = subscriber b := by
  simp only [subscriber,h]

theorem SameSubscriber.congr {a b c : String} (digits : phoneDigits a = phoneDigits c) :
    SameSubscriber a b ↔ SameSubscriber c b := by
  simp only [SameSubscriber,subscriberDigits digits]

theorem nationalTen {digits number : List Char} (ten : number.length = 10) :
    nationalNumber digits = number ↔ digits = number ∨ digits = '1'::number := by
  unfold nationalNumber
  split
  · rename_i rest
    split
    · rename_i short
      constructor
      · rintro rfl
        exact .inr rfl
      · rintro (rfl | same)
        · simp [short] at ten
        · exact (List.cons.inj same).2
    · rename_i long
      constructor
      · exact .inl
      · rintro (rfl | same)
        · rfl
        · exact absurd ten ((List.cons.inj same).2 ▸ long)
  · rename_i other
    constructor
    · exact .inl
    · rintro (rfl | rfl)
      · rfl
      · exact absurd rfl (other number)

theorem e164Digits {phone number : String} : e164Phone phone = .ok number ↔ ∃ digits : List Char,
    digits.length = 10 ∧ number = String.ofList ('+' :: '1' :: digits) ∧
      ((phoneDigits phone).toList = digits ∨ (phoneDigits phone).toList = '1'::digits) := by
  simp only [e164Phone]
  generalize phoneDigits phone = found
  have plus (rest : List Char) : "+" ++ String.ofList rest = String.ofList ('+'::rest) := by
    rw [show "+" = String.ofList ['+'] from rfl,← String.ofList_append,List.singleton_append]
  have plusOne (rest : List Char) : "+1" ++ String.ofList rest = String.ofList ('+' :: '1' :: rest) := by
    rw [show "+1" = String.ofList ['+','1'] from rfl,← String.ofList_append]
    rfl
  have self : String.ofList found.toList = found := String.ofList_toList
  rw [← String.length_toList,← self,String.toList_ofList]
  generalize found.toList = text
  constructor
  · intro h
    split at h
    · rename_i ten
      cases h
      exact ⟨text,ten,plusOne text,.inl rfl⟩
    split at h
    · rename_i eleven
      obtain ⟨long,first⟩ := eleven
      cases h
      obtain ⟨rest,rfl⟩ : ∃ rest, text = '1'::rest := List.head?_eq_some_iff.mp first
      exact ⟨rest,by simpa using long,plus _,.inr rfl⟩
    · contradiction
  · rintro ⟨digits,ten,rfl,rfl | rfl⟩
    · rw [if_pos ten,plusOne]
    · rw [if_neg (by simp [ten]),if_pos (by simp [ten]),plus]

theorem sameSubscriberE164 {a b number : String} (h : e164Phone a = .ok number) :
    SameSubscriber a b ↔ e164Phone b = .ok number := by
  obtain ⟨digits,ten,rfl,spelled⟩ := e164Digits.mp h
  have nonempty {phone : String} (national : nationalNumber (phoneDigits phone).toList = digits) :
      phoneDigits phone ≠ "" := by
    intro empty
    rw [empty] at national
    rw [← national] at ten
    contradiction
  have national : nationalNumber (phoneDigits a).toList = digits := (nationalTen ten).mpr spelled
  have here : subscriber a = some digits := by
    rw [subscriber,if_neg (nonempty national),national]
  have there : subscriber b = some digits ↔ nationalNumber (phoneDigits b).toList = digits := by
    constructor
    · intro same
      unfold subscriber at same
      split at same
      · contradiction
      · exact Option.some.inj same
    · intro same
      rw [subscriber,if_neg (nonempty same),same]
  simp only [SameSubscriber,here,ne_eq,reduceCtorEq,not_false_eq_true,true_and]
  rw [eq_comm,there,nationalTen ten,e164Digits]
  constructor
  · exact fun same => ⟨digits,ten,rfl,same⟩
  · rintro ⟨other,_,same,spelled⟩
    have equal := congrArg String.toList same
    simp only [String.toList_ofList,List.cons.injEq,true_and] at equal
    exact equal ▸ spelled

/-! ### Markers of erased identities -/

variable {S} {db db' : PrivacyDb} {now : Time} {id : PrivacyRequestId} {phone : String}

def PrivacyDb.marks (db : PrivacyDb) (phoneHash : String) : Bool := (db.identities.find phoneHash).isSome

def Marked (S : PrivacyService δ) (db : PrivacyDb) (phone : String) : Prop :=
  db.marks (S.hash ("phone:" ++ phoneDigits phone)) = true

theorem Marked.congr {other : String} (marked : Marked S db phone) (digits : phoneDigits phone = phoneDigits other) :
    Marked S db other := by
  rw [Marked,← digits]
  exact marked

theorem guardAllowed {u : Unit} (h : assertPrivacyOrderAllowed S db phone = .ok u) : ¬ Marked S db phone := by
  simp only [assertPrivacyOrderAllowed,bindOk,requireOk] at h
  obtain ⟨_,_,unmarked⟩ := h
  simpa [Marked,PrivacyDb.marks] using unmarked

theorem deletedIdentityKey (identities : Table PrivacyDeletedIdentity fun i => i.phoneHash) (phoneHash : String)
    (reviewAt : Time) : (deletedIdentity S identities phoneHash reviewAt now).phoneHash = phoneHash := by
  unfold deletedIdentity
  split
  · rename_i marker stored
    have key : marker.phoneHash = phoneHash := Table.find_key stored
    exact key
  · rfl

/-- What a transition of a request does to the customers and to the markers. -/
structure CustomersShrink (S : PrivacyService δ) (db db' : PrivacyDb) : Prop where
  marks : ∀ phoneHash, db.marks phoneHash = true → db'.marks phoneHash = true
  customers : ∀ k c, db'.customers.find k = some c → db.customers.find k = some c
  erased : ∀ k c, db.customers.find k = some c → db'.customers.find k = none →
    db'.marks (S.hash ("phone:" ++ c.normalizedPhone)) = true

theorem CustomersShrink.same (identities : db'.identities = db.identities) (customers : db'.customers = db.customers) :
    CustomersShrink S db db' := by
  refine ⟨fun phoneHash marked => ?_,fun k c here => ?_,fun k c here gone => ?_⟩
  · rw [PrivacyDb.marks,identities]
    exact marked
  · rw [← customers]
    exact here
  · rw [customers,here] at gone
    contradiction

theorem eraseShrinks (p : Preview) (decision : RetentionDecision) (r : PrivacyDeletionRequest)
    (customer : db.customers.find p.customer.id = some p.customer) :
    CustomersShrink S db ((db.eraseCustomer S p decision now).setRequest r) := by
  have customers (k : CustomerId) : ((db.eraseCustomer S p decision now).setRequest r).customers.find k =
      if k = p.customer.id then none else db.customers.find k := Table.find_delete ..
  refine ⟨fun phoneHash marked => ?_,fun k c here => ?_,fun k c here gone => ?_⟩
  · show (Table.find (Table.put _ _) _).isSome = true
    rw [Table.find_put]
    split
    · rfl
    · exact marked
  · rw [customers] at here
    split at here
    · contradiction
    · exact here
  · rw [customers] at gone
    split at gone
    · rename_i same
      cases Option.some.inj ((same ▸ here).symm.trans customer)
      show (Table.find (Table.put _ _) _).isSome = true
      rw [Table.find_put,deletedIdentityKey,if_pos rfl]
      rfl
    · rw [here] at gone
      contradiction

theorem RequestStep.shrinks (step : RequestStep S db now db' id) : CustomersShrink S db db' := by
  cases step with
  | erased actor decision p _ _ customer => exact eraseShrinks p decision _ customer
  | _ => exact .same rfl rfl

end SpeedySweeties
