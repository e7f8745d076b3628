import Mathlib.Data.List.Sort
import Mathlib.Data.String.Basic
import SpeedySweeties.Library.JsText
import SpeedySweeties.Library.Table

/-! JavaScript values, the text that a canonical serialisation gives them and what is left
of them after `JSON.stringify` and `JSON.parse` and a store that keeps no key order. The
numbers are a parameter: the ones without a text, such as `Infinity`, are written as null. -/

inductive Json (ν : Type) where
  | null
  | bool (value : Bool)
  | number (value : ν)
  | text (value : String)
  | date (value : Nat)
  | array (items : List (Json ν))
  | object (fields : List (String × Json ν))

namespace Json

structure Writer (ν : Type) where
  numberText : ν → Option String
  toISOString : Nat → String

variable {ν : Type} (W : Writer ν)

def hexDigit (n : Nat) : Char := if n < 10 then Char.ofNat (48 + n) else Char.ofNat (87 + n)

def escape (c : Char) : List Char :=
  let code := c.toNat
  let backslash := Char.ofNat 92
  if code = 34 ∨ code = 92 then [backslash,c]
  else if code = 8 then [backslash,'b']
  else if code = 9 then [backslash,'t']
  else if code = 10 then [backslash,'n']
  else if code = 12 then [backslash,'f']
  else if code = 13 then [backslash,'r']
  else if code < 32 then [backslash,'u','0','0',hexDigit (code / 16),hexDigit (code % 16)]
  else [c]

/-- `JSON.stringify` of a string. -/
def quote (text : String) : String :=
  String.ofList (Char.ofNat 34::text.toList.flatMap escape ++ [Char.ofNat 34])

/-- `Object.keys(value).sort()`, on the fields with their values or texts. -/
def byKey {α : Type} (fields : List (String × α)) : List (String × α) := fields.insertionSort fun a b => JsText.units a.1 ≤ JsText.units b.1

mutual
def canonical : Json ν → String
  | null => "null"
  | bool value => if value then "true" else "false"
  | number value => (W.numberText value).getD "null"
  | text value => quote value
  | date value => quote (W.toISOString value)
  | array items => "[" ++ ",".intercalate (canonicalItems items) ++ "]"
  | object fields =>
    "\x7b" ++ ",".intercalate ((byKey (canonicalFields fields)).map fun field => quote field.1 ++ ":" ++ field.2) ++ "\x7d"

def canonicalItems : List (Json ν) → List String
  | [] => []
  | item::items => canonical item::canonicalItems items

def canonicalFields : List (String × Json ν) → List (String × String)
  | [] => []
  | (k,value)::fields => (k,canonical value)::canonicalFields fields
end

variable (reorder : List (String × Json ν) → List (String × Json ν))

mutual
def stored : Json ν → Json ν
  | null => null
  | bool value => bool value
  | number value => if (W.numberText value).isSome then number value else null
  | text value => text value
  | date value => text (W.toISOString value)
  | array items => array (storedItems items)
  | object fields => object (reorder (storedFields fields))

def storedItems : List (Json ν) → List (Json ν)
  | [] => []
  | item::items => stored item::storedItems items

def storedFields : List (String × Json ν) → List (String × Json ν)
  | [] => []
  | (k,value)::fields => (k,stored value)::storedFields fields
end

mutual
/-- No object names a key twice, which no JavaScript object does. -/
def Distinct : Json ν → Prop
  | array items => DistinctItems items
  | object fields => (fields.map (·.1)).Nodup ∧ DistinctFields fields
  | _ => True

def DistinctItems : List (Json ν) → Prop
  | [] => True
  | item::items => Distinct item ∧ DistinctItems items

def DistinctFields : List (String × Json ν) → Prop
  | [] => True
  | (_,value)::fields => Distinct value ∧ DistinctFields fields
end

theorem byKey_perm {α : Type} {fields others : List (String × α)} (perm : fields.Perm others) (unique : (fields.map (·.1)).Nodup) :
    byKey fields = byKey others := by
  have total : Std.Total fun a b : String × α => JsText.units a.1 ≤ JsText.units b.1 := ⟨fun a b => le_total _ _⟩
  have trans : IsTrans (String × α) fun a b => JsText.units a.1 ≤ JsText.units b.1 := ⟨fun _ _ _ => le_trans⟩
  have sorted (rows : List (String × α)) : (byKey rows).Pairwise fun a b => JsText.units a.1 ≤ JsText.units b.1 :=
    List.pairwise_insertionSort (fun a b : String × α => JsText.units a.1 ≤ JsText.units b.1) rows
  have here : (byKey fields).Perm fields := List.perm_insertionSort ..
  have there : (byKey others).Perm others := List.perm_insertionSort ..
  refine List.Perm.eq_of_pairwise (fun a b left right low high => ?_) (sorted fields) (sorted others)
    (here.trans (perm.trans there.symm))
  exact List.inj_on_of_nodup_map unique (here.mem_iff.mp left) (perm.mem_iff.mpr (there.mem_iff.mp right))
    (JsText.unitsInjective (le_antisymm low high))

theorem canonicalFields_map (fields : List (String × Json ν)) :
    canonicalFields W fields = fields.map fun field => (field.1,canonical W field.2) := by
  induction fields with
  | nil => rfl
  | cons field fields ih => rw [canonicalFields,ih,List.map_cons]

theorem canonicalFields_keys (fields : List (String × Json ν)) :
    (canonicalFields W fields).map (·.1) = fields.map (·.1) := by
  rw [canonicalFields_map,List.map_map]
  rfl

mutual
theorem canonical_stored (perm : ∀ fields, (reorder fields).Perm fields) :
    ∀ value, Distinct value → canonical W (stored W reorder value) = canonical W value
  | null,_ | bool _,_ | text _,_ | date _,_ => rfl
  | number value,_ => by
    rw [stored]
    split
    · rfl
    · rename_i unwritten
      simp only [Option.not_isSome_iff_eq_none] at unwritten
      simp only [canonical,unwritten,Option.getD_none]
  | array items,distinct => by
    rw [stored,canonical,canonicalItems_stored perm items distinct,canonical]
  | object fields,distinct => by
    have texts := canonicalFields_stored perm fields distinct.2
    have moved : (canonicalFields W (reorder (storedFields W reorder fields))).Perm (canonicalFields W fields) := by
      rw [← texts,canonicalFields_map,canonicalFields_map]
      exact (perm _).map _
    rw [stored,canonical,canonical,← byKey_perm moved.symm (by rw [canonicalFields_keys]; exact distinct.1)]

theorem canonicalItems_stored (perm : ∀ fields, (reorder fields).Perm fields) :
    ∀ items, DistinctItems items → canonicalItems W (storedItems W reorder items) = canonicalItems W items
  | [],_ => rfl
  | item::items,distinct => by
    rw [storedItems,canonicalItems,canonical_stored perm item distinct.1,canonicalItems_stored perm items distinct.2,
      canonicalItems]

theorem canonicalFields_stored (perm : ∀ fields, (reorder fields).Perm fields) :
    ∀ fields, DistinctFields fields → canonicalFields W (storedFields W reorder fields) = canonicalFields W fields
  | [],_ => rfl
  | (k,value)::fields,distinct => by
    rw [storedFields,canonicalFields,canonical_stored perm value distinct.1,
      canonicalFields_stored perm fields distinct.2,canonicalFields]
end

theorem storedFields_keys (fields : List (String × Json ν)) :
    (storedFields W reorder fields).map (·.1) = fields.map (·.1) := by
  induction fields with
  | nil => rfl
  | cons field fields ih => rw [storedFields,List.map_cons,List.map_cons,ih]

theorem distinctFields_iff (fields : List (String × Json ν)) :
    DistinctFields fields ↔ ∀ field ∈ fields, Distinct field.2 := by
  induction fields with
  | nil => simp [DistinctFields]
  | cons field fields ih => simp [DistinctFields,ih]

mutual
theorem distinct_stored (perm : ∀ fields, (reorder fields).Perm fields) :
    ∀ value, Distinct value → Distinct (stored W reorder value)
  | null,_ | bool _,_ | text _,_ | date _,_ => trivial
  | number value,_ => by
    rw [stored]
    split <;> trivial
  | array items,distinct => distinctItems_stored perm items distinct
  | object fields,distinct => by
    have keys := ((perm (storedFields W reorder fields)).map (·.1)).nodup_iff
    refine ⟨keys.mpr (storedFields_keys W reorder fields ▸ distinct.1),?_⟩
    rw [distinctFields_iff]
    intro field listed
    exact (distinctFields_iff _).mp (distinctFields_stored perm fields distinct.2) field ((perm _).mem_iff.mp listed)

theorem distinctItems_stored (perm : ∀ fields, (reorder fields).Perm fields) :
    ∀ items, DistinctItems items → DistinctItems (storedItems W reorder items)
  | [],_ => trivial
  | item::items,distinct => ⟨distinct_stored perm item distinct.1,distinctItems_stored perm items distinct.2⟩

theorem distinctFields_stored (perm : ∀ fields, (reorder fields).Perm fields) :
    ∀ fields, DistinctFields fields → DistinctFields (storedFields W reorder fields)
  | [],_ => trivial
  | (_,value)::fields,distinct => ⟨distinct_stored perm value distinct.1,distinctFields_stored perm fields distinct.2⟩
end

/-- `value?.[key]` -/
def member (key : String) : Json ν → Option (Json ν)
  | object fields => (fields.find? (·.1 = key)).map (·.2)
  | _ => none

theorem storedFields_map (fields : List (String × Json ν)) :
    storedFields W reorder fields = fields.map fun field => (field.1,stored W reorder field.2) := by
  induction fields with
  | nil => rfl
  | cons field fields ih => rw [storedFields,ih,List.map_cons]

theorem member_stored (perm : ∀ fields, (reorder fields).Perm fields) {value : Json ν} (distinct : Distinct value) (key : String) :
    (stored W reorder value).member key = (value.member key).map (stored W reorder) := by
  cases value with
  | object fields =>
    have keys : ((storedFields W reorder fields).map (·.1)).Nodup := storedFields_keys W reorder fields ▸ distinct.1
    let here : Table (String × Json ν) Prod.fst := ⟨storedFields W reorder fields,keys⟩
    let there : Table (String × Json ν) Prod.fst :=
      ⟨reorder (storedFields W reorder fields),((perm (storedFields W reorder fields)).map _).nodup_iff.mpr keys⟩
    have found : (reorder (storedFields W reorder fields)).find? (·.1 = key) = (storedFields W reorder fields).find? (·.1 = key) :=
      Table.find_perm (t := there) (u := here) (perm _) key
    simp only [stored,member]
    rw [found,storedFields_map,List.find?_map,Option.map_map,Option.map_map]
    rfl
  | number value =>
    rw [stored]
    split <;> rfl
  | _ => rfl

end Json
