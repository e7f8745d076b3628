import SpeedySweeties.Draft.ProductText
import SpeedySweeties.Library.Ranking

/-! The catalog item that a requested name stands for: the most similar one, unless another is
about as similar. -/
namespace SpeedySweeties.Draft
open Binary64 Ranking

structure CatalogItem where
  id : String
  name : String
  normalizedName : Option String := none
  brand : Option String := none
  size : Option String := none
  category : Option String := none
  pickupType : String := ""
  popularityScore : Int := 0
  deriving DecidableEq, Repr

def includes (longer shorter : List Char) : Bool := longer.tails.any shorter.isPrefixOf

def tokens (text : List Char) : List (List Char) := distinct (text.splitOn ' ')

def sharedTokens (left right : List Char) : Nat := ((tokens left).filter (· ∈ tokens right)).length

def shorter (left right : List Char) : List Char := if left.length ≤ right.length then left else right
def longer (left right : List Char) : List Char := if right.length < left.length then left else right

def productSimilarity (leftValue rightValue : String) : Binary64 :=
  let left := (normalizeProductText leftValue).toList
  let right := (normalizeProductText rightValue).toList
  if left = [] ∨ right = [] then 0
  else if left = right then one
  else if 4 ≤ (shorter left right).length ∧ includes (longer left right) (shorter left right) then
    let share := div (ofNat (shorter left right).length) (ofNat (longer left right).length)
    add (fraction 86 100) (min (fraction 1 10) (mul share (fraction 1 10)))
  else div (ofNat (2*sharedTokens left right)) (ofNat ((tokens left).length + (tokens right).length))

/-- `parts.filter(Boolean).join(" ")` -/
def joined (parts : List (Option String)) : String := " ".intercalate (parts.filterMap fun part => part.filter (· ≠ ""))

def catalogVariants (item : CatalogItem) : List String :=
  distinct (([item.normalizedName.getD "",item.name,joined [some item.name,item.size],joined [item.brand,some item.name,item.size]].map
    normalizeProductText).filter (· ≠ ""))

/-- `none` stands for minus infinity, the maximum of nothing. -/
def catalogScore (requestedName : String) (item : CatalogItem) : Option Binary64 :=
  ((catalogVariants item).map (productSimilarity requestedName)).max?

structure Candidate where
  catalogItem : CatalogItem
  score : Binary64
  deriving DecidableEq, Repr

def threshold : Binary64 := fraction 74 100

def candidates (requestedName : String) (catalogItems : List CatalogItem) : List Candidate :=
  catalogItems.filterMap fun item => ((catalogScore requestedName item).filter (threshold ≤ ·)).map fun score => ⟨item,score⟩

def compareCandidates : Candidate → Candidate → Ordering :=
  thenBy (byValue fun c => OrderDual.toDual c.score) (byValue fun c => OrderDual.toDual c.catalogItem.popularityScore)

instance : Std.TransCmp compareCandidates := inferInstanceAs (Std.TransCmp (thenBy _ _))

/-- Too near to the best one to tell them apart. -/
def nearTie (best runnerUp : Candidate) : Bool := sub best.score runnerUp.score < fraction 6 100

def decideMatch : List Candidate → Option CatalogItem
  | [] => none
  | [best] => some best.catalogItem
  | best::runnerUp::_ =>
    if best.score < one ∧ nearTie best runnerUp then none
    else if best.score = one ∧ runnerUp.score = one ∧ runnerUp.catalogItem.id ≠ best.catalogItem.id then none
    else some best.catalogItem

def findBestCatalogMatch (requestedName : String) (catalogItems : List CatalogItem) : Option CatalogItem :=
  decideMatch (ranked compareCandidates (candidates requestedName catalogItems))

def vodka : CatalogItem := { id := "v1", name := "Smirnoff Vodka", size := some "375 mL" }

example : findBestCatalogMatch "Smirnoff Vodka 750 mL" [vodka] = some vodka := by decide +kernel

end SpeedySweeties.Draft
