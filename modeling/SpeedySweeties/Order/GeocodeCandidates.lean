import Mathlib.Data.List.Chain
import SpeedySweeties.Library.Ranking
import SpeedySweeties.Library.Replacing
import SpeedySweeties.Order.Address

/-! Which of the geocoder's results a delivery address accepts. The check reads a civic number, a
street and a municipality out of the address, field by field; the fingerprint, by which an
edit keeps the stored coordinates, is of the joined fields. -/
namespace SpeedySweeties
open JsText Pattern Ranking

structure GoogleAddressComponent where
  longName : Option String := none
  shortName : Option String := none
  types : List String := []
  deriving DecidableEq, Repr

/-- A coordinate that is not a finite number is absent. -/
structure GoogleGeocodeResult where
  addressComponents : List GoogleAddressComponent := []
  partialMatch : Bool := false
  placeId : Option String := none
  types : List String := []
  latitude : Option Rat := none
  longitude : Option Rat := none
  locationType : String := ""
  deriving DecidableEq, Repr

namespace Geocoding
variable (T : TextService)

def getComponent (result : GoogleGeocodeResult) (types : List String) : Option GoogleAddressComponent :=
  result.addressComponents.find? fun component => component.types.any types.contains

def componentValues (component : Option GoogleAddressComponent) : List String :=
  (([component.bind (·.longName),component.bind (·.shortName)].filterMap id).filter (· ≠ "")).map (normalizeFingerprintText T)

/-- `/^(?:city|…) of /` -/
def municipalityKind : Pattern :=
  seq (oneOf (["city","town","township","municipality","village","county"].map literal)) (literal " of ")

/-- The longest match at the beginning goes. -/
def withoutPrefix (pattern : Pattern) (text : List Char) : List Char :=
  ((tried pattern ⟨none,text⟩).head?.map (·.text)).getD text

def normalizeMunicipality (value : String) : String :=
  String.ofList (withoutPrefix municipalityKind (normalizeFingerprintText T value).toList)

def municipalityTypes : List String :=
  ["locality","postal_town","administrative_area_level_2","administrative_area_level_3","sublocality_level_1"]

def municipalityMatches (result : GoogleGeocodeResult) (submittedMunicipality : String) : Bool :=
  let submitted := normalizeMunicipality T submittedMunicipality
  let municipalityComponents := result.addressComponents.filter fun component => component.types.any municipalityTypes.contains
  submitted ≠ "" && municipalityComponents.any fun component =>
    (componentValues T (some component)).any fun value => normalizeMunicipality T value = submitted

def isCountryCanada (result : GoogleGeocodeResult) : Bool :=
  (componentValues T (getComponent result ["country"])).any ["ca","canada"].contains

def isProvinceOntario (result : GoogleGeocodeResult) : Bool :=
  (componentValues T (getComponent result ["administrative_area_level_1"])).any ["on","ontario"].contains

/-- The last one is what a lookup in an object literal finds in its prototype. -/
def streetAliases : List (String × String) := [
  ("st","street"),("rd","road"),("dr","drive"),("ave","avenue"),("av","avenue"),("blvd","boulevard"),("ct","court"),
  ("crt","court"),("cres","crescent"),("ln","lane"),("pl","place"),("terr","terrace"),("ter","terrace"),("cir","circle"),
  ("hwy","highway"),("pkwy","parkway"),("trl","trail"),("n","north"),("s","south"),("e","east"),("w","west"),
  ("ne","northeast"),("nw","northwest"),("se","southeast"),("sw","southwest"),
  ("constructor","function Object() \x7b [native code] \x7d")]

def normalizeStreet (value : String) : String :=
  " ".intercalate (((normalizeFingerprintText T value).toList.splitOn ' ').map fun part =>
    (streetAliases.lookup (String.ofList part)).getD (String.ofList part))

def unitSuffix : Pattern :=
  sequence [many space,optional (literal ","),atLeastOnce space,
    oneOf [word "unit",seq (word "apt") (optional (literal ".")),word "apartment",word "suite"],
    atLeastOnce space,atLeastOnce (char fun c => isWord c || c = '-'),many space]

/-- Without what a match of the pattern up to the end takes, from its first place on. -/
def withoutSuffix (pattern : Pattern) : Option Char → List Char → List Char
  | _,[] => []
  | previous,c::text =>
    if (rests pattern ⟨previous,c::text⟩).any (·.text = []) then [] else c::withoutSuffix pattern (some c) text

/-- `\d+[a-z]?(?:\s*1\/2)?` -/
def civicNumber : Pattern :=
  sequence [atLeastOnce digit,optional (char Char.isAlpha),optional (sequence [many space,literal "1/2"])]

/-- `\s+(.+?)\s*$`, of one line: what is captured has no blanks at its ends, unless there is nothing but blanks. -/
def streetAfter (text : List Char) : Option (List Char) :=
  let blanks := text.takeWhile isSpace
  let street := (text.dropWhile isSpace).rdropWhile isSpace
  if blanks = [] then none
  else if street ≠ [] then some street
  else if blanks.length = 1 then none else blanks.getLast?.map ([·])

/-- The captures of `/^\s*(…)\s+(.+?)\s*$/i`: the civic number and the street. -/
def civicMatch (civic : List Char) : Option (String × String) :=
  let text := civic.dropWhile isSpace
  (tried civicNumber ⟨none,text⟩).findSome? fun q =>
    (streetAfter q.text).map fun street => (String.ofList (text.take (text.length - q.text.length)),String.ofList street)

def civicParts (address : DeliveryAddressInput) : Option (String × String) :=
  civicMatch (withoutSuffix unitSuffix none (sanitizeAddressLineForGeocoding address.addressLine1).toList)

def civicAddressMatches (result : GoogleGeocodeResult) (address : DeliveryAddressInput) : Bool :=
  match civicParts address with
  | none => false
  | some (number,street) =>
    (componentValues T (getComponent result ["street_number"])).contains (normalizeFingerprintText T number) &&
      (componentValues T (getComponent result ["route"])).any fun value => normalizeStreet T value = normalizeStreet T street

def hasCivicPrecision (result : GoogleGeocodeResult) : Bool :=
  let hasStreetNumber := (getComponent result ["street_number"]).isSome
  let hasRoute := (getComponent result ["route"]).isSome
  let isCivicType := result.types.any ["street_address","premise","subpremise","establishment"].contains
  if result.partialMatch || result.locationType = "APPROXIMATE" then false else (hasStreetNumber && hasRoute) || isCivicType

structure CandidateEvaluation where
  result : GoogleGeocodeResult
  latitude : Rat
  longitude : Rat
  score : Nat
  deriving DecidableEq, Repr

def scoreOf (result : GoogleGeocodeResult) : Nat :=
  (if result.locationType = "ROOFTOP" then 5 else if result.locationType = "RANGE_INTERPOLATED" then 4 else 2) +
    (if result.types.contains "street_address" then 3 else 0) +
    (if (getComponent result ["street_number"]).isSome then 1 else 0)

def evaluate (address : DeliveryAddressInput) (requireRooftop : Bool) (result : GoogleGeocodeResult) : Option CandidateEvaluation := do
  let latitude ← result.latitude
  let longitude ← result.longitude
  if latitude < -90 ∨ 90 < latitude ∨ longitude < -180 ∨ 180 < longitude then none
  else if isCountryCanada T result && isProvinceOntario T result && municipalityMatches T result address.city &&
      hasCivicPrecision result && civicAddressMatches T result address && !(requireRooftop && result.locationType ≠ "ROOFTOP") then
    some ⟨result,latitude,longitude,scoreOf result⟩
  else none

def selectVerifiedGeocodeCandidate (results : List GoogleGeocodeResult) (address : DeliveryAddressInput) (requireRooftop : Bool) :
    Option GoogleGeocodeResult :=
  (ranked (fun a b => compare b.score a.score) (results.filterMap (evaluate T address requireRooftop))).head?.map (·.result)

/-! ### Normalised text -/

/-- What is documented of the two text functions for ASCII. -/
structure AsciiText (T : TextService) : Prop where
  normalizeNfkd : ∀ text, (∀ c ∈ text.toList, c.toNat < 128) → T.normalizeNfkd text = text
  toLowerCase : ∀ text, (∀ c ∈ text.toList, c.toNat < 128) → T.toLowerCase text = foldCase text

/-- Lower case letters and digits, with single blanks between them. -/
structure Plain (text : List Char) : Prop where
  chars : ∀ c ∈ text, isAsciiLowerOrDigit c = true ∨ c = ' '
  single : text.IsChain fun a b => isAsciiLowerOrDigit a = true ∨ isAsciiLowerOrDigit b = true

theorem Plain.infix_ {text part : List Char} (h : Plain text) (within : part <:+: text) : Plain part where
  chars c mem := h.chars c (within.subset mem)
  single := h.single.infix within

theorem blankRunsPlain (inRun : Bool) (text : List Char) :
    Plain (blankRuns isAsciiLowerOrDigit inRun text) ∧
      (inRun = true → ∀ c ∈ (blankRuns isAsciiLowerOrDigit inRun text).head?, isAsciiLowerOrDigit c = true) := by
  induction text generalizing inRun with
  | nil => exact ⟨⟨nofun,.nil⟩,by simp [blankRuns]⟩
  | cons c text ih =>
    rw [blankRuns]
    by_cases kept : isAsciiLowerOrDigit c = true
    · obtain ⟨plain,-⟩ := ih false
      rw [if_pos kept]
      refine ⟨⟨fun d mem => ?_,List.isChain_cons.mpr ⟨fun d _ => .inl kept,plain.single⟩⟩,fun _ d mem => ?_⟩
      · rcases List.mem_cons.mp mem with rfl | mem
        · exact .inl kept
        · exact plain.chars d mem
      · cases Option.some.inj mem
        exact kept
    · obtain ⟨plain,first⟩ := ih true
      rw [if_neg kept]
      split
      · exact ⟨plain,fun _ => first rfl⟩
      · rename_i notRun
        refine ⟨⟨fun d mem => ?_,List.isChain_cons.mpr ⟨fun d mem => .inr (first rfl d mem),plain.single⟩⟩,fun run => absurd run notRun⟩
        rcases List.mem_cons.mp mem with rfl | mem
        · exact .inr rfl
        · exact plain.chars d mem

theorem blankRunsSame {text : List Char} (h : Plain text) : ∀ inRun, (inRun = true → ∀ c ∈ text.head?, isAsciiLowerOrDigit c = true) →
    blankRuns isAsciiLowerOrDigit inRun text = text := by
  induction text with
  | nil => exact fun _ _ => rfl
  | cons c text ih =>
    intro inRun first
    have rest := ih (h.infix_ ⟨[c],[],by simp⟩)
    rw [blankRuns]
    by_cases kept : isAsciiLowerOrDigit c = true
    · rw [if_pos kept,rest false (by simp)]
    · have blank : c = ' ' := (h.chars c List.mem_cons_self).resolve_left kept
      have alone : inRun = false := by
        cases inRun with
        | false => rfl
        | true => exact absurd (first rfl c rfl) kept
      rw [if_neg kept,alone,rest true fun _ d mem => ((List.isChain_cons.mp h.single).1 d mem).resolve_left kept,blank]
      rfl

section Normal
variable {T}

theorem normalPlain (value : String) : Plain (normalizeFingerprintText T value).toList := by
  unfold normalizeFingerprintText trim
  dsimp only
  rw [String.toList_ofList,String.toList_ofList]
  generalize (T.toLowerCase _).toList = text
  refine (blankRunsPlain false text).1.infix_ ?_
  exact (List.rdropWhile_prefix isSpace _).isInfix.trans (List.dropWhile_suffix isSpace).isInfix

theorem plainChar {c : Char} (h : isAsciiLowerOrDigit c = true ∨ c = ' ') : c.toNat < 128 ∧ c.toLower = c ∧ isCombiningMark c = false := by
  have low : c.toNat < 128 ∧ c.isUpper = false := by
    rcases h with kept | rfl
    · have kept : (decide ('a'.val ≤ c.val) && decide (c.val ≤ 'z'.val) || decide ('0'.val ≤ c.val) && decide (c.val ≤ '9'.val)) = true := kept
      suffices c.toNat < 128 ∧ decide ('A'.val ≤ c.val ∧ c.val ≤ 'Z'.val) = false from this
      simp only [Bool.or_eq_true,Bool.and_eq_true,decide_eq_true_eq,decide_eq_false_iff_not,UInt32.le_iff_toNat_le,Char.toNat] at *
      simp at kept ⊢
      omega
    · decide
  refine ⟨low.1,?_,?_⟩
  · exact dif_neg (of_decide_eq_false low.2)
  · simp only [isCombiningMark,Bool.and_eq_false_iff,decide_eq_false_iff_not]
    omega

theorem normalTwice (ascii : AsciiText T) (value : String) :
    normalizeFingerprintText T (normalizeFingerprintText T value) = normalizeFingerprintText T value := by
  have plain : Plain (normalizeFingerprintText T value).toList := normalPlain value
  have spaces : trim (normalizeFingerprintText T value) = normalizeFingerprintText T value := trimTrim _
  generalize normalizeFingerprintText T value = text at plain spaces
  have low : ∀ c ∈ text.toList, c.toNat < 128 := fun c mem => (plainChar (plain.chars c mem)).1
  have letters : text.toList.filter (!isCombiningMark ·) = text.toList :=
    List.filter_eq_self.mpr fun c mem => by simp [(plainChar (plain.chars c mem)).2.2]
  have lower : foldCase text = text := by
    have same : text.toList.map Char.toLower = text.toList := by
      conv_rhs => rw [← List.map_id text.toList]
      exact List.map_congr_left fun c mem => (plainChar (plain.chars c mem)).2.1
    rw [foldCase,same,String.ofList_toList]
  unfold normalizeFingerprintText
  dsimp only
  rw [ascii.normalizeNfkd text low,letters,String.ofList_toList,ascii.toLowerCase text low,lower,
    blankRunsSame plain false (by simp),String.ofList_toList,spaces]

end Normal

/-! ### What the check reads out of an address -/

/-- The civic number, the street and the municipality, where an address has them. -/
def identityOf (address : DeliveryAddressInput) : Option (String × String × String) :=
  let municipality := normalizeMunicipality T address.city
  if municipality = "" then none
  else (civicParts address).map fun (number,street) => (normalizeFingerprintText T number,normalizeStreet T street,municipality)

def fits (result : GoogleGeocodeResult) : String × String × String → Bool
  | (number,street,municipality) =>
    ((result.addressComponents.filter fun component => component.types.any municipalityTypes.contains).any fun component =>
      (componentValues T (some component)).any fun value => normalizeMunicipality T value = municipality) &&
    ((componentValues T (getComponent result ["street_number"])).contains number &&
      (componentValues T (getComponent result ["route"])).any fun value => normalizeStreet T value = street)

section Identity
variable {T}

theorem fitsIdentity (result : GoogleGeocodeResult) (address : DeliveryAddressInput) :
    (municipalityMatches T result address.city && civicAddressMatches T result address) = (identityOf T address).any (fits T result) := by
  unfold municipalityMatches civicAddressMatches identityOf
  dsimp only
  by_cases none_ : normalizeMunicipality T address.city = ""
  · simp [none_]
  · rw [if_neg none_]
    cases civicParts address with
    | none => simp
    | some parts => simp [none_,fits]

theorem evaluateIs (address : DeliveryAddressInput) (requireRooftop : Bool) (result : GoogleGeocodeResult) :
    evaluate T address requireRooftop result = (do
      let latitude ← result.latitude
      let longitude ← result.longitude
      if latitude < -90 ∨ 90 < latitude ∨ longitude < -180 ∨ 180 < longitude then none
      else if (identityOf T address).any (fits T result) && (isCountryCanada T result && isProvinceOntario T result &&
          hasCivicPrecision result && !(requireRooftop && result.locationType ≠ "ROOFTOP")) then
        some ⟨result,latitude,longitude,scoreOf result⟩
      else none) := by
  have reordered : (isCountryCanada T result && isProvinceOntario T result && municipalityMatches T result address.city &&
      hasCivicPrecision result && civicAddressMatches T result address && !(requireRooftop && result.locationType ≠ "ROOFTOP")) =
      ((municipalityMatches T result address.city && civicAddressMatches T result address) && (isCountryCanada T result &&
        isProvinceOntario T result && hasCivicPrecision result && !(requireRooftop && result.locationType ≠ "ROOFTOP"))) := by
    cases isCountryCanada T result <;> cases isProvinceOntario T result <;> cases municipalityMatches T result address.city <;>
      cases hasCivicPrecision result <;> cases civicAddressMatches T result address <;> rfl
  rw [← fitsIdentity,← reordered]
  rfl

theorem selectSame {a b : DeliveryAddressInput} (same : identityOf T a = identityOf T b) (results : List GoogleGeocodeResult)
    (requireRooftop : Bool) :
    selectVerifiedGeocodeCandidate T results a requireRooftop = selectVerifiedGeocodeCandidate T results b requireRooftop := by
  have each : evaluate T a requireRooftop = evaluate T b requireRooftop := funext fun result => by
    rw [evaluateIs,evaluateIs,same]
  rw [selectVerifiedGeocodeCandidate,selectVerifiedGeocodeCandidate,each]

end Identity

/-! ### Candidates that tell two addresses apart -/

theorem greedilyShorter {ends : Position → List Position} (shorter : ∀ p, ∀ q ∈ ends p, q.text.length ≤ p.text.length) (fuel : Nat)
    (p : Position) : ∀ q ∈ greedily ends fuel p, q.text.length ≤ p.text.length := by
  induction fuel generalizing p with
  | zero =>
    intro q mem
    rw [List.mem_singleton.mp mem]
  | succ fuel ih =>
    intro q mem
    rcases List.mem_append.mp mem with mem | mem
    · obtain ⟨m,first,later⟩ := List.mem_flatMap.mp mem
      exact (ih m q later).trans (shorter p m (List.mem_filter.mp first).1)
    · rw [List.mem_singleton.mp mem]

theorem triedShorter (pattern : Pattern) (p : Position) : ∀ q ∈ tried pattern p, q.text.length ≤ p.text.length := by
  induction pattern generalizing p with
  | empty =>
    intro q mem
    rw [List.mem_singleton.mp mem]
  | char accepts =>
    obtain ⟨previous,text⟩ := p
    intro q mem
    cases text with
    | nil => cases mem
    | cons c text =>
      rw [tried] at mem
      split at mem
      · rw [List.mem_singleton.mp mem]
        exact Nat.le_succ _
      · cases mem
  | boundary =>
    intro q mem
    rw [tried] at mem
    split at mem
    · rw [List.mem_singleton.mp mem]
    · cases mem
  | seq first second ihFirst ihSecond =>
    intro q mem
    obtain ⟨m,begun,later⟩ := List.mem_flatMap.mp mem
    exact (ihSecond m q later).trans (ihFirst p m begun)
  | alt first second ihFirst ihSecond =>
    intro q mem
    exact (List.mem_append.mp mem).elim (ihFirst p q) (ihSecond p q)
  | many pattern ih => exact greedilyShorter ih _ p

theorem civicNumberTakes {p q : Position} (mem : q ∈ tried civicNumber p) : q.text.length < p.text.length := by
  obtain ⟨m,begun,later⟩ := List.mem_flatMap.mp mem
  obtain ⟨first,digit,more⟩ := List.mem_flatMap.mp begun
  have rest := (triedShorter _ m q later).trans (triedShorter _ first m more)
  obtain ⟨previous,text⟩ := p
  cases text with
  | nil => cases digit
  | cons c text =>
    rw [Pattern.digit,tried] at digit
    split at digit
    · rw [List.mem_singleton.mp digit] at rest
      exact Nat.lt_succ_of_le rest
    · cases digit

theorem streetSome {text street : List Char} (is : streetAfter text = some street) : street ≠ [] := by
  unfold streetAfter at is
  dsimp only at is
  split at is
  · cases is
  · split at is
    · rename_i some_
      exact Option.some.inj is ▸ some_
    · split at is
      · cases is
      · obtain ⟨c,-,rfl⟩ := Option.map_eq_some_iff.mp is
        exact List.cons_ne_nil _ _

theorem ofListSome {text : List Char} (some_ : text ≠ []) : String.ofList text ≠ "" := fun none_ =>
  some_ (by simpa using congrArg String.toList none_)

theorem civicSome {address : DeliveryAddressInput} {number street : String} (is : civicParts address = some (number,street)) :
    number ≠ "" ∧ street ≠ "" := by
  unfold civicParts civicMatch at is
  dsimp only at is
  obtain ⟨q,mem,found⟩ := List.exists_of_findSome?_eq_some is
  obtain ⟨captured,street',same⟩ := Option.map_eq_some_iff.mp found
  obtain ⟨rfl,rfl⟩ := Prod.mk.inj same
  refine ⟨ofListSome fun none_ => ?_,ofListSome (streetSome street')⟩
  have taken := civicNumberTakes mem
  dsimp only at taken
  have length := congrArg List.length none_
  simp only [List.length_take,List.length_nil] at length
  omega

/-- The result that an address describes itself. -/
def described (number street municipality : String) : GoogleGeocodeResult where
  addressComponents := [
    { longName := some "Canada", shortName := some "CA", types := ["country"] },
    { longName := some "Ontario", shortName := some "ON", types := ["administrative_area_level_1"] },
    { longName := some municipality, types := ["locality"] },
    { longName := some number, types := ["street_number"] },
    { longName := some street, types := ["route"] }]
  types := ["street_address"]
  latitude := some 43
  longitude := some (-80)
  locationType := "ROOFTOP"

section Described
variable {T}

theorem valuesOne {value : String} (some_ : value ≠ "") (types : List String) :
    componentValues T (some { longName := some value, types := types }) = [normalizeFingerprintText T value] := by
  simp [componentValues,some_]

theorem describedFits (ascii : AsciiText T) {number street municipality : String} (n : number ≠ "") (s : street ≠ "") (m : municipality ≠ "")
    (number' street' municipality' : String) :
    fits T (described number street municipality) (number',street',municipality') = true ↔
      normalizeFingerprintText T number = number' ∧ normalizeStreet T street = street' ∧ normalizeMunicipality T municipality = municipality' := by
  have streetTwice : normalizeStreet T (normalizeFingerprintText T street) = normalizeStreet T street := by
    rw [normalizeStreet,normalTwice ascii]
    rfl
  have municipalityTwice : normalizeMunicipality T (normalizeFingerprintText T municipality) = normalizeMunicipality T municipality := by
    rw [normalizeMunicipality,normalTwice ascii]
    rfl
  have isNumber : getComponent (described number street municipality) ["street_number"] =
      some { longName := some number, types := ["street_number"] } := rfl
  have isRoute : getComponent (described number street municipality) ["route"] = some { longName := some street, types := ["route"] } := rfl
  have isLocality : ((described number street municipality).addressComponents.filter fun component =>
      component.types.any municipalityTypes.contains) = [{ longName := some municipality, types := ["locality"] }] := rfl
  rw [fits,isNumber,isRoute,isLocality,valuesOne n,valuesOne s]
  simp only [List.any_cons,List.any_nil,Bool.or_false,valuesOne m,Bool.and_eq_true,decide_eq_true_eq,List.contains_cons,
    List.contains_nil,beq_iff_eq,streetTwice,municipalityTwice]
  constructor
  · rintro ⟨m,n,s⟩
    exact ⟨n.symm,s,m⟩
  · rintro ⟨n,s,m⟩
    exact ⟨m,n.symm,s⟩

theorem normalOf (ascii : AsciiText T) {text lower : String} (low : text.toList.all (fun c => c.toNat < 128) = true)
    (letters : text.toList.filter (!isCombiningMark ·) = text.toList) (is : trim (String.ofList (blankRuns isAsciiLowerOrDigit false
      (foldCase text).toList)) = lower) : normalizeFingerprintText T text = lower := by
  have each : ∀ c ∈ text.toList, c.toNat < 128 := fun c mem => of_decide_eq_true (List.all_eq_true.mp low c mem)
  unfold normalizeFingerprintText
  dsimp only
  rw [ascii.normalizeNfkd text each,letters,String.ofList_toList,ascii.toLowerCase text each,is]

theorem describedSelected (ascii : AsciiText T) (number street municipality : String) (address : DeliveryAddressInput) :
    selectVerifiedGeocodeCandidate T [described number street municipality] address false = some (described number street municipality) ↔
      (identityOf T address).any (fits T (described number street municipality)) = true := by
  have ca : normalizeFingerprintText T "CA" = "ca" := normalOf ascii (by decide) (by decide) (by decide)
  have on : normalizeFingerprintText T "ON" = "on" := normalOf ascii (by decide) (by decide) (by decide)
  have country : isCountryCanada T (described number street municipality) = true := by
    simp [isCountryCanada,getComponent,described,componentValues,ca]
  have province : isProvinceOntario T (described number street municipality) = true := by
    simp [isProvinceOntario,getComponent,described,componentValues,on]
  have precise : hasCivicPrecision (described number street municipality) = true := rfl
  rw [selectVerifiedGeocodeCandidate,List.filterMap_cons,List.filterMap_nil,evaluateIs,country,province,precise]
  cases (identityOf T address).any (fits T (described number street municipality)) with
  | false => exact iff_of_false (by simp [described,ranked]) Bool.false_ne_true
  | true => exact iff_of_true rfl rfl

/-- The result that one address describes is refused for every address with another identity. -/
theorem identityTold (ascii : AsciiText T) {a b : DeliveryAddressInput} {identity : String × String × String}
    (is : identityOf T a = some identity)
    (same : ∀ results requireRooftop, selectVerifiedGeocodeCandidate T results a requireRooftop =
      selectVerifiedGeocodeCandidate T results b requireRooftop) : identityOf T b = some identity := by
  unfold identityOf at is
  dsimp only at is
  split at is
  · cases is
  · rename_i municipality
    obtain ⟨⟨number,street⟩,parts,rfl⟩ := Option.map_eq_some_iff.mp is
    obtain ⟨someNumber,someStreet⟩ := civicSome parts
    have empty : normalizeFingerprintText T "" = "" := normalOf ascii (by decide) (by decide) rfl
    have someCity : a.city ≠ "" := fun none_ => municipality (by
      rw [none_,normalizeMunicipality,empty]
      decide)
    have fitted := describedFits ascii someNumber someStreet someCity
    have accepted := describedSelected ascii number street a.city
    have own : (identityOf T a).any (fits T (described number street a.city)) = true := by
      rw [identityOf]
      dsimp only
      rw [if_neg municipality,parts]
      exact (fitted _ _ _).mpr ⟨rfl,rfl,rfl⟩
    have other := (accepted b).mp ((same _ false).symm.trans ((accepted a).mpr own))
    obtain ⟨⟨number',street',municipality'⟩,isB,fitsB⟩ := (Option.any_eq_true _ _).mp other
    obtain ⟨rfl,rfl,rfl⟩ := (fitted _ _ _).mp fitsB
    exact isB

end Described

/-- Two addresses accept the same candidates exactly when the same is read out of both. -/
theorem interchangeable (ascii : AsciiText T) (a b : DeliveryAddressInput) :
    (createDeliveryAddressFingerprint T a = createDeliveryAddressFingerprint T b → ∀ results requireRooftop,
      selectVerifiedGeocodeCandidate T results a requireRooftop = selectVerifiedGeocodeCandidate T results b requireRooftop) ↔
    (createDeliveryAddressFingerprint T a = createDeliveryAddressFingerprint T b → identityOf T a = identityOf T b) := by
  refine imp_congr_right fun _ => ⟨fun same => ?_,fun same => selectSame same⟩
  cases isA : identityOf T a with
  | none =>
    cases isB : identityOf T b with
    | none => rfl
    | some identity => exact isA.symm.trans (identityTold ascii isB fun results requireRooftop => (same results requireRooftop).symm)
  | some identity => exact (identityTold ascii isA same).symm

/-- The functions on ASCII texts, with the digest of one of them. -/
def garafraxaText : TextService where
  normalizeNfkd := id
  toLowerCase := foldCase
  sha256 := fun text =>
    if text = "12 king st east garafraxa on canada" then "258c275befaa6d08c211d381ea93fd628e3d8c7a207e7fe3ff22db19916ecec5" else text

theorem garafraxaAscii : AsciiText garafraxaText := ⟨fun _ _ => rfl,fun _ _ => rfl⟩

def eastGarafraxa : DeliveryAddressInput := ⟨"12 King St","East Garafraxa","ON"⟩
def kingStreetEast : DeliveryAddressInput := ⟨"12 King St. East","Garafraxa","Ontario"⟩

/-- One fingerprint, and a result that only one of the two addresses accepts. -/
theorem boundaryLost : ¬(createDeliveryAddressFingerprint garafraxaText eastGarafraxa = createDeliveryAddressFingerprint garafraxaText kingStreetEast →
    ∀ results requireRooftop, selectVerifiedGeocodeCandidate garafraxaText results eastGarafraxa requireRooftop =
      selectVerifiedGeocodeCandidate garafraxaText results kingStreetEast requireRooftop) := by
  intro all
  have same := all (by decide +kernel) [described "12" "King Street" "East Garafraxa"] true
  exact absurd same (by decide +kernel)

/-- Blanks, a full stop, capitals and the name of the province do not matter. -/
theorem interchangeableSpelling : createDeliveryAddressFingerprint garafraxaText ⟨"1 A St","Guelph","ON"⟩ =
      createDeliveryAddressFingerprint garafraxaText ⟨"1  A st.","guelph","Ontario"⟩ ∧
    ∀ results requireRooftop, selectVerifiedGeocodeCandidate garafraxaText results ⟨"1 A St","Guelph","ON"⟩ requireRooftop =
      selectVerifiedGeocodeCandidate garafraxaText results ⟨"1  A st.","guelph","Ontario"⟩ requireRooftop :=
  have same : createDeliveryAddressFingerprint garafraxaText ⟨"1 A St","Guelph","ON"⟩ =
      createDeliveryAddressFingerprint garafraxaText ⟨"1  A st.","guelph","Ontario"⟩ := by decide +kernel
  ⟨same,(interchangeable garafraxaText garafraxaAscii _ _).mpr (fun _ => by decide +kernel) same⟩

end Geocoding
end SpeedySweeties
