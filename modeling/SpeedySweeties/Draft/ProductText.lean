import SpeedySweeties.Library.Binary64
import SpeedySweeties.Library.Replacing

/-! The text by which products are compared: lower case words of ASCII letters and digits, with
volumes in millilitres and the usual names of sizes and packs spelled out. -/
namespace SpeedySweeties.Draft
open Pattern

/-- `value.toLowerCase()`, up to characters that are not ASCII before and after: the Kelvin sign and
the dotted capital are the only others with an ASCII letter in their lower case. -/
def toLowerCase (value : List Char) : List Char :=
  value.flatMap fun c => if c = 'K' then ['k'] else if c = 'İ' then ['i','\u0307'] else [c.toLower]

def constant (pattern : Pattern) (text : String) : Replacement where
  group := pattern
  output _ := text.toList

def spaceOrHyphen : Pattern := many (char fun c => JsText.isSpace c || c = '-')

/-- A name of a size as a word of its own, in two parts that may be apart. -/
def sizeName (first second : String) : Pattern := sequence [boundary,literal first,spaceOrHyphen,literal second,boundary]

def sizeNames : List Replacement := [
  constant (sizeName "twenty" "sixer") "26er",
  constant (sizeName "26" "er") "750ml",
  constant (sequence [boundary,literal "mick",literals ["ey","ie"],boundary]) "375ml",
  constant (sizeName "sixty" "sixer") "1750ml",
  constant (sizeName "two" "four") "24pack",
  constant (sequence [boundary,literal "forty",boundary]) "1140ml"]

def wholeNumber : Pattern := atLeastOnce digit
def decimalNumber : Pattern := sequence [wholeNumber,optional (sequence [literal ".",wholeNumber])]

def digitsValue (digits : List Char) : Nat := digits.foldl (fun n c => 10*n + (c.toNat - 48)) 0

/-- `Number(rawAmount)` of a decimal number. -/
def numberOf (rawAmount : List Char) : Binary64 :=
  let decimals := (rawAmount.dropWhile (· ≠ '.')).drop 1
  Binary64.fraction (digitsValue (rawAmount.filter (· ≠ '.'))) (10^decimals.length)

/-- `String(Math.round(Number(rawAmount) * 1000))` -/
def millilitres (rawAmount : List Char) : List Char :=
  (Binary64.wholeText (Binary64.mathRound (Binary64.mul (numberOf rawAmount) (Binary64.ofNat 1000)))).toList

/-- An amount, perhaps some space, and its unit as a word's end. -/
def amountOf (amount : Pattern) (units : Pattern) (output : List Char → List Char) : Replacement where
  group := amount
  rest := sequence [many space,units,boundary]
  output := output

def litres : Replacement :=
  amountOf decimalNumber (oneOf [seq (literal "litre") (optional (literal "s")),seq (literal "liter") (optional (literal "s")),literal "l"])
    fun amount => millilitres amount ++ "ml".toList

def millilitresUnit : Replacement :=
  amountOf wholeNumber (oneOf [seq (literal "millilitre") (optional (literal "s")),seq (literal "milliliter") (optional (literal "s")),literal "ml"])
    (· ++ "ml".toList)

def packs : Replacement :=
  amountOf wholeNumber (oneOf [seq (literal "pack") (optional (literal "s")),literal "pk"]) (· ++ "pack".toList)

def isPlain (c : Char) : Bool := ('a' ≤ c && c ≤ 'z') || ('0' ≤ c && c ≤ '9')

def others : Replacement := constant (atLeastOnce (char fun c => !isPlain c)) " "

def spaces : Replacement := constant (atLeastOnce space) " "

def trimmed (text : List Char) : List Char := ((text.dropWhile JsText.isSpace).reverse.dropWhile JsText.isSpace).reverse

def normalized (value : List Char) : List Char :=
  let named := sizeNames.foldl (fun text rule => rule.all text) (toLowerCase value)
  spaces.all (trimmed (others.all (packs.all (millilitresUnit.all (litres.all named)))))

@[irreducible] def normalizeProductText (value : String) : String := String.ofList (normalized value.toList)

example : normalizeProductText "Ginger Ale — 1.5 Litres, 6-Pack!" = "ginger ale 1500ml 6 pack" := by decide +kernel
example : normalizeProductText "A mickey of Smirnoff" = "a 375ml of smirnoff" := by decide +kernel

end SpeedySweeties.Draft
