import SpeedySweeties.Draft.CartEdit
import SpeedySweeties.Draft.CatalogMatch
import SpeedySweeties.Library.Grouping

/-! The rows of a draft, with those of one product put together. Products are told apart by the
normalised text of their names, and rows without such a text are left out. -/
namespace SpeedySweeties.Draft
open JsText

def combineRequestedNameAndPackage (requestedName : String) (packageDescription : Option String) : String :=
  let requested := trim requestedName
  match (packageDescription.map trim).filter (· ≠ "") with
  | none => requested
  | some packageDetail =>
    let normalizedPackage := (normalizeProductText packageDetail).toList
    if normalizedPackage ≠ [] ∧ includes (normalizeProductText requested).toList normalizedPackage then requested
    else requested ++ " — " ++ packageDetail

structure ConsolidatedItem where
  requestedName : String
  quantity : Nat
  confidence : Confidence
  deriving DecidableEq, Repr

def confidenceRank : Confidence → Nat
  | .high => 3
  | .medium => 2
  | .low => 1

def ModelOrderItem.combinedName (item : ModelOrderItem) : String := combineRequestedNameAndPackage item.requestedName item.packageDescription

def ModelOrderItem.key (item : ModelOrderItem) : String := normalizeProductText item.combinedName

abbrev Consolidated := Table (String × ConsolidatedItem) Prod.fst

/-- One turn of the loop. -/
def consolidate (consolidated : Consolidated) (item : ModelOrderItem) : Consolidated :=
  if item.key = "" then consolidated
  else match consolidated.find item.key with
    | some (_,existing) => consolidated.put (item.key,{ existing with
        quantity := existing.quantity + item.quantity
        confidence := if confidenceRank item.confidence < confidenceRank existing.confidence then item.confidence else existing.confidence })
    | none => consolidated.put (item.key,⟨item.combinedName,item.quantity,item.confidence⟩)

def consolidateModelOrderItems (modelItems : List ModelOrderItem) : List ConsolidatedItem :=
  (modelItems.foldl consolidate Table.empty).rows.map (·.2)

/-! ### What becomes of the items -/

def ConsolidatedItem.key (row : ConsolidatedItem) : String := normalizeProductText row.requestedName

/-- The items of a row. -/
def members (items : List ModelOrderItem) (row : ConsolidatedItem) : List ModelOrderItem := items.filter fun item => item.key = row.key

def leastConfidence (items : List ModelOrderItem) : Option Nat := (items.map fun item => confidenceRank item.confidence).min?

/-- One row for each normalised product, the quantities kept, every item in one row, and each row as
sure as the least sure of its items. -/
structure Conserved (items : List ModelOrderItem) (rows : List ConsolidatedItem) : Prop where
  once : (rows.map (·.key)).Nodup
  products : ∀ row ∈ rows, members items row ≠ []
  quantities : (rows.map (·.quantity)).sum = (items.map (·.quantity)).sum
  represented : ∀ item ∈ items, rows.countP (fun row => item.key = row.key) = 1
  confidences : ∀ row ∈ rows, leastConfidence (members items row) = some (confidenceRank row.confidence)

/-- What holds after the loop over some items. -/
structure Loop (items : List ModelOrderItem) (consolidated : Consolidated) : Prop where
  keyed : ∀ row ∈ consolidated.rows, row.2.key = row.1 ∧ row.1 ≠ ""
  found : ∀ item ∈ items, item.key ≠ "" → ∃ row, consolidated.find item.key = some row
  confidence : ∀ row ∈ consolidated.rows,
    leastConfidence (items.filter (·.key = row.1)) = some (confidenceRank row.2.confidence)
  total : (consolidated.rows.map (·.2.quantity)).sum = ((items.filter (·.key ≠ "")).map (·.quantity)).sum

section Loop
variable {items : List ModelOrderItem} {consolidated : Consolidated} {item : ModelOrderItem} {key : String}

theorem filterOther (other : item.key ≠ key) : (items ++ [item]).filter (·.key = key) = items.filter (·.key = key) := by
  simp [List.filter_append,other]

theorem filterSame (same : item.key = key) : (items ++ [item]).filter (·.key = key) = items.filter (·.key = key) ++ [item] := by
  simp [List.filter_append,same]

theorem leastLater {least : Nat} (is : leastConfidence items = some least) :
    leastConfidence (items ++ [item]) = some (min (confidenceRank item.confidence) least) := by
  obtain ⟨mem,le⟩ := List.min?_eq_some_iff.mp is
  rw [leastConfidence,List.min?_eq_some_iff,List.map_append]
  refine ⟨?_,fun rank here => ?_⟩
  · rcases le_total (confidenceRank item.confidence) least with less | more
    · simp [min_eq_left less]
    · rw [min_eq_right more]
      exact List.mem_append_left _ mem
  · rcases List.mem_append.mp here with here | here
    · exact (min_le_right _ _).trans (le rank here)
    · exact (min_le_left _ _).trans (le_of_eq (List.mem_singleton.mp here).symm)

theorem leastRank (a b : Confidence) : confidenceRank (if confidenceRank a < confidenceRank b then a else b) = min (confidenceRank a) (confidenceRank b) := by
  cases a <;> cases b <;> rfl

theorem Loop.put (h : Loop items consolidated) (named : item.key ≠ "") {row : ConsolidatedItem} (keyed : row.key = item.key)
    (least : leastConfidence (items.filter (·.key = item.key) ++ [item]) = some (confidenceRank row.confidence))
    (added : row.quantity = (consolidated.find item.key).elim 0 (·.2.quantity) + item.quantity) :
    Loop (items ++ [item]) (consolidated.put (item.key,row)) where
  keyed other mem := by
    rcases Table.mem_put mem with rfl | ⟨mem,-⟩
    · exact ⟨keyed,named⟩
    · exact h.keyed other mem
  found other mem otherNamed := by
    rw [Table.find_put]
    split
    · exact ⟨_,rfl⟩
    · rename_i differ
      rcases List.mem_append.mp mem with mem | mem
      · exact h.found other mem otherNamed
      · exact absurd (by rw [List.mem_singleton.mp mem]) differ
  confidence other mem := by
    rcases Table.mem_put mem with rfl | ⟨mem,differ⟩
    · rw [filterSame rfl]
      exact least
    · rw [filterOther (Ne.symm differ)]
      exact h.confidence other mem
  total := by
    have put := Table.sum_put consolidated (item.key,row) (·.2.quantity)
    have before := h.total
    have later : (items ++ [item]).filter (·.key ≠ "") = items.filter (·.key ≠ "") ++ [item] := by simp [List.filter_append,named]
    rw [later,List.map_append,List.sum_append]
    simp only [List.map_cons,List.map_nil,List.sum_cons,List.sum_nil] at *
    omega

theorem Loop.step (h : Loop items consolidated) : Loop (items ++ [item]) (consolidate consolidated item) := by
  unfold consolidate
  split
  · rename_i unnamed
    have later : (items ++ [item]).filter (·.key ≠ "") = items.filter (·.key ≠ "") := by simp [List.filter_append,unnamed]
    refine ⟨h.keyed,fun other mem named => ?_,fun row mem => ?_,later ▸ h.total⟩
    · rcases List.mem_append.mp mem with mem | mem
      · exact h.found other mem named
      · exact absurd (List.mem_singleton.mp mem ▸ unnamed) named
    · rw [filterOther (unnamed ▸ (h.keyed row mem).2.symm)]
      exact h.confidence row mem
  · rename_i named
    cases is : consolidated.find item.key with
    | some row =>
      obtain ⟨key,existing⟩ := row
      obtain ⟨mem,same⟩ := Table.find_some is
      obtain rfl : key = item.key := same
      refine h.put named (h.keyed _ mem).1 ?_ (by simp [is])
      rw [leastLater (h.confidence _ mem),leastRank]
    | none =>
      have fresh : items.filter (·.key = item.key) = [] := by
        refine List.filter_eq_nil_iff.mpr fun other mem same => ?_
        have key : other.key = item.key := of_decide_eq_true same
        obtain ⟨row,found⟩ := h.found other mem (key ▸ named)
        rw [key,is] at found
        cases found
      refine h.put named rfl ?_ (by simp [is])
      rw [fresh]
      rfl

theorem loopAll (items : List ModelOrderItem) : Loop items (items.foldl consolidate Table.empty) := by
  induction items using List.reverseRecOn with
  | nil => exact ⟨by simp [Table.empty],by simp,by simp [Table.empty],rfl⟩
  | append_singleton items item ih =>
    rw [List.foldl_append]
    exact ih.step

theorem consolidatedKeys (items : List ModelOrderItem) :
    (consolidateModelOrderItems items).map (·.key) = (items.foldl consolidate Table.empty).rows.map (·.1) := by
  rw [consolidateModelOrderItems,List.map_map]
  exact List.map_congr_left fun row mem => ((loopAll items).keyed row mem).1

end Loop

example : consolidateModelOrderItems [⟨"Bag of ice",none,2,.high⟩,⟨"bag of ice",none,3,.medium⟩] = [⟨"Bag of ice",5,.medium⟩] := by
  decide +kernel

/-- Ice, in Japanese. -/
def unnamedItem : ModelOrderItem := ⟨"氷",none,2,.high⟩

end SpeedySweeties.Draft
