import SpeedySweeties.Library.Pattern
import SpeedySweeties.Schema

/-! Delivery addresses: the canonical address that is sent to the geocoder, the
fingerprint that ties coordinates to it, and what a geocoding call returns. -/
namespace SpeedySweeties
open JsText

structure DeliveryAddressInput where
  addressLine1 : String
  city : String
  province : String
  deriving DecidableEq, Repr

/-- Library functions on text. -/
structure TextService where
  normalizeNfkd : String → String
  toLowerCase : String → String
  sha256 : String → String

variable (T : TextService)

/-- `replace(/[^…]+/g, " ")`: each run of characters that are not kept is one blank. -/
def blankRuns (kept : Char → Bool) : Bool → List Char → List Char
  | _,[] => []
  | inRun,c::text =>
    if kept c then c::blankRuns kept false text
    else if inRun then blankRuns kept true text
    else ' '::blankRuns kept true text

def normalizeWhitespace (value : String) : String :=
  String.ofList (blankRuns (!isSpace ·) false (trim value).toList)

section Patterns
open Pattern

def civicStreetSuffixPattern : Pattern :=
  sequence [boundary,
    words ["street","st","road","rd","drive","dr","avenue","ave","lane","ln","boulevard","blvd","highway",
      "hwy","court","ct","crescent","cres","way","trail","trl","terrace","ter","place","pl","circle","cir",
      "parkway","pkwy","line","concession"],
    optional (word "."),boundary]

def gap : Pattern := atLeastOnce space

def phrases (alternatives : List (List Pattern)) : Pattern := oneOf (alternatives.map sequence)

def trailingDeliveryInstructionPattern : Pattern :=
  sequence [gap,
    optional (sequence [char fun c => c ∈ "-–—,;|:".toList,many space]),
    phrases [
      [optional (sequence [word "please",gap]),optional (sequence [word "use",gap]),
        words ["side","back","rear","front"],gap,words ["door","entrance"]],
      [word "rear",gap,word "entrance"],
      [word "basement",
        optional (sequence [gap,words ["door","entrance","unit","apartment","apt","suite"]])],
      [word "buzz",optional (sequence [gap,words ["code","unit","apartment","apt","suite"]]),
        optional (sequence [gap,atLeastOnce (char isWord)])],
      [word "call",optional (sequence [gap,words ["when","on","upon"],boundary])],
      [word "ring",gap,optional (sequence [word "the",gap]),words ["doorbell","bell"]],
      [word "leave",gap,optional (sequence [word "it",gap]),words ["at","by","near","beside"],boundary],
      [word "door",gap,word "code",boundary],
      [word "unit",gap,word "access",boundary]]]

end Patterns

/-- `replace(/[\s,–—;|:-]+$/g, "").trim()` -/
def trimSeparators (text : List Char) : String :=
  trim (String.ofList (text.reverse.dropWhile fun c => isSpace c || c ∈ ",–—;|:-".toList).reverse)

def sanitizeAddressLineForGeocoding (addressLine1 : String) : String :=
  let normalizedAddress := normalizeWhitespace addressLine1
  match trailingDeliveryInstructionPattern.search normalizedAddress.toList with
  | none | some 0 => normalizedAddress
  | some instructionIndex =>
    let civicAddress := trimSeparators (normalizedAddress.toList.take instructionIndex)
    if civicAddress.toList.any Char.isDigit ∧ (civicStreetSuffixPattern.search civicAddress.toList).isSome then
      civicAddress
    else normalizedAddress

def foldCase (text : String) : String := String.ofList (text.toList.map Char.toLower)

def normalizeProvince (value : String) : String :=
  let normalized := normalizeWhitespace value
  if foldCase normalized ∈ ["on","ontario"] then "ON" else normalized

def buildCanonicalDeliveryAddress (address : DeliveryAddressInput) : String :=
  ", ".intercalate [sanitizeAddressLineForGeocoding address.addressLine1,normalizeWhitespace address.city,
    normalizeProvince address.province,"Canada"]

def isCombiningMark (c : Char) : Bool := 0x300 ≤ c.toNat && c.toNat ≤ 0x36f

def isAsciiLowerOrDigit (c : Char) : Bool := c.isLower || c.isDigit

def normalizeFingerprintText (value : String) : String :=
  let letters := String.ofList ((T.normalizeNfkd value).toList.filter (!isCombiningMark ·))
  trim (String.ofList (blankRuns isAsciiLowerOrDigit false (T.toLowerCase letters).toList))

def createDeliveryAddressFingerprint (address : DeliveryAddressInput) : String :=
  T.sha256 (normalizeFingerprintText T (buildCanonicalDeliveryAddress address))

def DeliveryAddressInput.trimmed (address : DeliveryAddressInput) : DeliveryAddressInput :=
  ⟨trim address.addressLine1,trim address.city,trim address.province⟩

theorem normalizeTrimmed (value : String) : normalizeWhitespace (trim value) = normalizeWhitespace value := by
  rw [normalizeWhitespace,trimTrim]
  rfl

theorem fingerprintTrimmed (address : DeliveryAddressInput) :
    createDeliveryAddressFingerprint T address.trimmed = createDeliveryAddressFingerprint T address := by
  have canonical : buildCanonicalDeliveryAddress address.trimmed = buildCanonicalDeliveryAddress address := by
    unfold buildCanonicalDeliveryAddress sanitizeAddressLineForGeocoding normalizeProvince
    simp only [DeliveryAddressInput.trimmed,normalizeTrimmed]
  rw [createDeliveryAddressFingerprint,canonical]
  rfl

example : sanitizeAddressLineForGeocoding "12  King St - side door" = "12 King St" := by decide +kernel

/-! ### Geocoding -/

/-- What the answer of the geocoding provider comes to; `unavailable` also stands for a
missing key, a timeout and any failed call. -/
inductive GeocodeAnswer where
  | unavailable
  | rejected
  | verified (latitude longitude : Int) (formattedAddress : Option String) (placeId : Option String)
  deriving DecidableEq, Repr

def needsReviewLocation (address : DeliveryAddressInput) : OrderLocation where
  deliveryLatitude := none
  deliveryLongitude := none
  geocodeStatus := some .needsReview
  geocodedAddress := none
  geocodePlaceId := none
  geocodeAddressFingerprint := some (createDeliveryAddressFingerprint T address)

/-- `none` where it throws: the address is rejected. -/
def geocodeDeliveryAddress (address : DeliveryAddressInput) : GeocodeAnswer → Option OrderLocation
  | .unavailable => some (needsReviewLocation T address)
  | .rejected => none
  | .verified latitude longitude formattedAddress placeId => some {
      deliveryLatitude := some latitude
      deliveryLongitude := some longitude
      geocodeStatus := some .verified
      geocodedAddress := some ((formattedAddress.filter (· ≠ "")).getD (buildCanonicalDeliveryAddress address))
      geocodePlaceId := placeId
      geocodeAddressFingerprint := some (createDeliveryAddressFingerprint T address) }

theorem geocodedFingerprint {address : DeliveryAddressInput} {answer : GeocodeAnswer}
    {location : OrderLocation} (h : geocodeDeliveryAddress T address answer = some location) :
    location.geocodeAddressFingerprint = some (createDeliveryAddressFingerprint T address) := by
  cases answer <;> simp only [geocodeDeliveryAddress,reduceCtorEq,Option.some.injEq] at h <;>
    exact h ▸ rfl

/-- The functions on ASCII texts, with the digests of two of them. -/
def sampleText : TextService where
  normalizeNfkd := id
  toLowerCase := foldCase
  sha256 := fun text =>
    if text = "1 king st toronto on canada" then
      "bc261de6365b76b13b497effb6d515799fab49a64bc7cdea3df9174f179acae8"
    else if text = "20 queen st toronto on canada" then
      "3603f6d5cc7c3f93858ad854e19c92c9cb585755f191cc71f948dda61b4c2540"
    else ""

end SpeedySweeties
