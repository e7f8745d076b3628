import SpeedySweeties.Library.JsonText

/-! A canonical text is the text of the value with its keys in order, its dates written out. It
is read back as that value, so it belongs to the values that are equal up to the order of keys,
and what is read back has the same canonical text however its keys are arranged. -/
namespace Json
variable {ν : Type} (W : Writer ν)

mutual
/-- All numbers are finite. -/
def Finite : Json ν → Prop
  | number value => (W.numberText value).isSome
  | array items => FiniteItems items
  | object fields => FiniteFields fields
  | _ => True

def FiniteItems : List (Json ν) → Prop
  | [] => True
  | item::items => Finite item ∧ FiniteItems items

def FiniteFields : List (String × Json ν) → Prop
  | [] => True
  | (_,value)::fields => Finite value ∧ FiniteFields fields
end

structure Representable (value : Json ν) : Prop where
  distinct : Distinct value
  finite : Finite W value

mutual
/-- Equality up to the order of the keys, where a date is its ISO text. -/
def Same : Json ν → Json ν → Prop
  | null,null => True
  | bool a,bool b => a = b
  | number a,number b => a = b
  | text a,text b => a = b
  | text a,date b => a = W.toISOString b
  | date a,text b => W.toISOString a = b
  | date a,date b => W.toISOString a = W.toISOString b
  | array items,array others => SameItems items others
  | object fields,object others => (∀ key, key ∈ fields.map (·.1) ↔ key ∈ others.map (·.1)) ∧ SameFields fields others
  | _,_ => False

def SameItems : List (Json ν) → List (Json ν) → Prop
  | [],[] => True
  | item::items,other::others => Same item other ∧ SameItems items others
  | _,_ => False

/-- What both objects have under one key is the same. -/
def SameFields : List (String × Json ν) → List (String × Json ν) → Prop
  | [],_ => True
  | (key,value)::fields,others => (∀ other, (key,other) ∈ others → Same value other) ∧ SameFields fields others
end

/-- `const { [key]: _, ...rest } = value` -/
def without (key : String) : Json ν → Json ν
  | object fields => object (fields.filter fun field => field.1 ≠ key)
  | value => value

/-! ### The text of the value with its keys in order -/

theorem byKeyMap {α β : Type} (f : α → β) (fields : List (String × α)) :
    byKey (fields.map fun field => (field.1,f field.2)) = (byKey fields).map fun field => (field.1,f field.2) :=
  (List.map_insertionSort _ _ (fun field : String × α => (field.1,f field.2)) fields fun _ _ _ _ => Iff.rfl).symm

theorem byKeyPerm {α : Type} (fields : List (String × α)) : (byKey fields).Perm fields := List.perm_insertionSort _ _

theorem itemCharsCons (item next : Json ν) (items : List (Json ν)) :
    itemChars W (item::next::items) = chars W item ++ ','::itemChars W (next::items) := by
  rw [itemChars,moreItems,itemChars]

theorem itemsText (items : List (Json ν)) : (",".intercalate (items.map (stringify W))).toList = itemChars W items := by
  induction items with
  | nil => rfl
  | cons item items ih =>
    cases items with
    | nil => simp [itemChars,moreItems,stringify]
    | cons next items =>
      rw [List.map_cons,List.map_cons,String.intercalate_cons_cons,String.toList_append,String.toList_append,← List.map_cons,ih,
        itemCharsCons]
      simp [stringify]

def fieldText (field : String × Json ν) : String := quote field.1 ++ ":" ++ stringify W field.2

theorem fieldTextChars (field : String × Json ν) : (fieldText W field).toList = quoteChars field.1 ++ ':'::chars W field.2 := by
  simp [fieldText,quote,quoteChars,stringify,quoteMark]

theorem fieldCharsCons (field next : String × Json ν) (fields : List (String × Json ν)) :
    fieldChars W (field::next::fields) = (fieldText W field).toList ++ ','::fieldChars W (next::fields) := by
  rw [fieldTextChars,fieldChars,moreFields,fieldChars]
  simp

theorem fieldsText (fields : List (String × Json ν)) : (",".intercalate (fields.map (fieldText W))).toList = fieldChars W fields := by
  induction fields with
  | nil => rfl
  | cons field fields ih =>
    cases fields with
    | nil => simp [fieldChars,moreFields,fieldTextChars]
    | cons next fields =>
      rw [List.map_cons,List.map_cons,String.intercalate_cons_cons,String.toList_append,String.toList_append,← List.map_cons,ih,
        fieldCharsCons]
      simp

mutual
theorem canonicalText : ∀ value, canonical W value = stringify W (stored W byKey value)
  | null => rfl
  | bool value => by cases value <;> rfl
  | number value => by
    rw [canonical,stored]
    cases is : W.numberText value with
    | none => rfl
    | some t =>
      rw [Option.isSome_some,if_pos rfl,stringify,chars,is]
      exact (String.ofList_toList).symm
  | text value => rfl
  | date value => rfl
  | array items => by
    rw [canonical,canonicalItemsText items,stored,stringify,chars,← itemsText,← String.toList_inj]
    simp
  | object fields => by
    have texts : (byKey (canonicalFields W fields)).map (fun field => quote field.1 ++ ":" ++ field.2) =
        (byKey (storedFields W byKey fields)).map (fieldText W) := by
      rw [canonicalFieldsText fields,byKeyMap,List.map_map]
      rfl
    rw [canonical,texts,stored,stringify,chars,← fieldsText,← String.toList_inj]
    simp [openBrace,closeBrace]

theorem canonicalItemsText : ∀ items, canonicalItems W items = (storedItems W byKey items).map (stringify W)
  | [] => rfl
  | item::items => by rw [canonicalItems,canonicalText item,canonicalItemsText items,storedItems,List.map_cons]

theorem canonicalFieldsText : ∀ fields, canonicalFields W fields =
    (storedFields W byKey fields).map fun field => (field.1,stringify W field.2)
  | [] => rfl
  | (key,value)::fields => by
    rw [canonicalFields,canonicalText value,canonicalFieldsText fields,storedFields,List.map_cons]
end

/-! ### Reading it back -/

theorem storedItems_map (reorder : List (String × Json ν) → List (String × Json ν)) (items : List (Json ν)) :
    storedItems W reorder items = items.map (stored W reorder) := by
  induction items with
  | nil => rfl
  | cons item items ih => rw [storedItems,ih,List.map_cons]

section Stored
variable {reorder : List (String × Json ν) → List (String × Json ν)}

mutual
theorem storedPlain (perm : ∀ fields, (reorder fields).Perm fields) : ∀ value, stored W id (stored W reorder value) = stored W reorder value
  | null | bool _ | text _ | date _ => rfl
  | number value => by
    rw [stored]
    split
    · rename_i written
      rw [stored,if_pos written]
    · rfl
  | array items => by
    rw [stored,stored,storedItems_map W id,storedItemsPlain perm items]
  | object fields => by
    have plain : ∀ field ∈ reorder (storedFields W reorder fields), (field.1,stored W id field.2) = field := fun field listed =>
      storedFieldsPlain perm fields field ((perm _).mem_iff.mp listed)
    rw [stored,stored,storedFields_map W id,List.map_congr_left plain,List.map_id',id]

theorem storedItemsPlain (perm : ∀ fields, (reorder fields).Perm fields) :
    ∀ items, (storedItems W reorder items).map (stored W id) = storedItems W reorder items
  | [] => rfl
  | item::items => by rw [storedItems,List.map_cons,storedPlain perm item,storedItemsPlain perm items]

theorem storedFieldsPlain (perm : ∀ fields, (reorder fields).Perm fields) :
    ∀ fields, ∀ field ∈ storedFields W reorder fields, (field.1,stored W id field.2) = field
  | [],_,listed => absurd listed List.not_mem_nil
  | (key,value)::fields,field,listed => by
    rw [storedFields] at listed
    rcases List.mem_cons.mp listed with rfl | listed
    · rw [storedPlain perm value]
    · exact storedFieldsPlain perm fields field listed
end

end Stored

variable {W} {readNumber : List Char → Option ν}

/-- `JSON.parse(canonical(value))` -/
theorem parseCanonical (readable : Readable W readNumber) {value : Json ν} (distinct : Distinct value) :
    parse readNumber (canonical W value) = some (stored W byKey value) := by
  rw [canonicalText,parseStringify readable (distinct_stored W byKey byKeyPerm value distinct),storedPlain W byKeyPerm]

/-! ### Equality up to the order of the keys -/

section Fields
variable {α : Type} {fields others : List (String × α)}

theorem valueUnique (once : (fields.map (·.1)).Nodup) {key : String} {a b : α} (left : (key,a) ∈ fields) (right : (key,b) ∈ fields) : a = b :=
  congrArg Prod.snd (List.inj_on_of_nodup_map once left right rfl)

theorem byKeySame (once : (fields.map (·.1)).Nodup) (otherOnce : (others.map (·.1)).Nodup) : byKey fields = byKey others ↔
    (∀ key, key ∈ fields.map (·.1) ↔ key ∈ others.map (·.1)) ∧
      ∀ field ∈ fields, ∀ other, (field.1,other) ∈ others → field.2 = other := by
  constructor
  · intro same
    have perm : fields.Perm others := (byKeyPerm fields).symm.trans (same ▸ byKeyPerm others)
    exact ⟨fun key => (perm.map (·.1)).mem_iff,fun field mem other there => valueUnique otherOnce (perm.mem_iff.mp mem) there⟩
  · rintro ⟨keys,values⟩
    refine byKey_perm ?_ once
    rw [List.perm_ext_iff_of_nodup (List.Nodup.of_map _ once) (List.Nodup.of_map _ otherOnce)]
    rintro ⟨key,a⟩
    constructor
    · intro mem
      obtain ⟨⟨_,b⟩,there,rfl⟩ := List.mem_map.mp ((keys key).mp (List.mem_map.mpr ⟨_,mem,rfl⟩))
      obtain rfl : a = b := values _ mem b there
      exact there
    · intro there
      obtain ⟨⟨_,b⟩,mem,rfl⟩ := List.mem_map.mp ((keys key).mpr (List.mem_map.mpr ⟨_,there,rfl⟩))
      obtain rfl : b = a := values _ mem a there
      exact mem

end Fields

theorem finiteFields_iff (fields : List (String × Json ν)) : FiniteFields W fields ↔ ∀ field ∈ fields, Finite W field.2 := by
  induction fields with
  | nil => simp [FiniteFields]
  | cons field fields ih => simp [FiniteFields,ih]

theorem storedNumber {value : ν} (finite : Finite W (number value)) (reorder : List (String × Json ν) → List (String × Json ν)) :
    stored W reorder (number value) = number value := by
  rw [stored]
  exact if_pos finite

theorem storedFieldsMember {reorder : List (String × Json ν) → List (String × Json ν)} {fields : List (String × Json ν)} {key : String}
    {value : Json ν} : (key,value) ∈ storedFields W reorder fields ↔ ∃ plain, (key,plain) ∈ fields ∧ stored W reorder plain = value := by
  rw [storedFields_map,List.mem_map]
  constructor
  · rintro ⟨⟨_,plain⟩,mem,same⟩
    cases same
    exact ⟨plain,mem,rfl⟩
  · rintro ⟨plain,mem,rfl⟩
    exact ⟨_,mem,rfl⟩

mutual
theorem storedSame : ∀ a b : Json ν, Distinct a → Finite W a → Distinct b → Finite W b →
    (stored W byKey a = stored W byKey b ↔ Same W a b)
  | null,b,_,_,_,finite => by
    cases b with
    | number other => rw [storedNumber finite]; simp [stored,Same]
    | _ => simp [stored,Same]
  | bool value,b,_,_,_,finite => by
    cases b with
    | number other => rw [storedNumber finite]; simp [stored,Same]
    | _ => simp [stored,Same]
  | number value,b,_,written,_,finite => by
    rw [storedNumber written]
    cases b with
    | number other => rw [storedNumber finite]; simp [Same]
    | _ => simp [stored,Same]
  | text value,b,_,_,_,finite => by
    cases b with
    | number other => rw [storedNumber finite]; simp [stored,Same]
    | _ => simp [stored,Same]
  | date value,b,_,_,_,finite => by
    cases b with
    | number other => rw [storedNumber finite]; simp [stored,Same]
    | _ => simp [stored,Same]
  | array items,b,distinct,written,other,finite => by
    cases b with
    | array others => simpa [stored,Same] using storedItemsSame items others distinct written other finite
    | number other => rw [storedNumber finite]; simp [stored,Same]
    | _ => simp [stored,Same]
  | object fields,b,distinct,written,other,finite => by
    cases b with
    | object others =>
      have keys := byKeySame (storedFields_keys W byKey fields ▸ distinct.1) (storedFields_keys W byKey others ▸ other.1)
      rw [stored,stored,object.injEq,keys,storedFields_keys,storedFields_keys,Same,
        ← storedFieldsSame fields others distinct.2 written other.2 finite]
    | number other => rw [storedNumber finite]; simp [stored,Same]
    | _ => simp [stored,Same]

theorem storedItemsSame : ∀ items others : List (Json ν), DistinctItems items → FiniteItems W items → DistinctItems others →
    FiniteItems W others → (storedItems W byKey items = storedItems W byKey others ↔ SameItems W items others)
  | [],others,_,_,_,_ => by cases others <;> simp [storedItems,SameItems]
  | item::items,[],_,_,_,_ => by simp [storedItems,SameItems]
  | item::items,other::others,distinct,written,also,finite => by
    rw [storedItems,storedItems,List.cons.injEq,storedSame item other distinct.1 written.1 also.1 finite.1,
      storedItemsSame items others distinct.2 written.2 also.2 finite.2,SameItems]

theorem storedFieldsSame : ∀ fields others : List (String × Json ν), DistinctFields fields → FiniteFields W fields →
    DistinctFields others → FiniteFields W others →
    ((∀ field ∈ storedFields W byKey fields, ∀ other, (field.1,other) ∈ storedFields W byKey others → field.2 = other) ↔
      SameFields W fields others)
  | [],others,_,_,_,_ => by simp [storedFields,SameFields]
  | (key,value)::fields,others,distinct,written,also,finite => by
    rw [storedFields,List.forall_mem_cons,storedFieldsSame fields others distinct.2 written.2 also finite,SameFields]
    refine and_congr_left' ⟨fun equal other mem => ?_,fun same other mem => ?_⟩
    · have there := (distinctFields_iff others).mp also _ mem
      exact (storedSame value other distinct.1 written.1 there ((finiteFields_iff others).mp finite _ mem)).mp
        (equal _ (storedFieldsMember.mpr ⟨other,mem,rfl⟩))
    · obtain ⟨plain,listed,rfl⟩ := storedFieldsMember.mp mem
      have there := (distinctFields_iff others).mp also _ listed
      exact (storedSame value plain distinct.1 written.1 there ((finiteFields_iff others).mp finite _ listed)).mpr (same plain listed)
end

theorem canonicalSame (readable : Readable W readNumber) {a b : Json ν} (left : Representable W a) (right : Representable W b) :
    canonical W a = canonical W b ↔ Same W a b := by
  rw [← storedSame a b left.distinct left.finite right.distinct right.finite]
  constructor
  · intro same
    have read := parseCanonical readable left.distinct
    rw [same,parseCanonical readable right.distinct] at read
    exact (Option.some.inj read).symm
  · intro same
    rw [canonicalText,canonicalText,same]

theorem sameFields_iff (fields others : List (String × Json ν)) :
    SameFields W fields others ↔ ∀ field ∈ fields, ∀ other, (field.1,other) ∈ others → Same W field.2 other := by
  induction fields with
  | nil => simp [SameFields]
  | cons field fields ih =>
    obtain ⟨key,value⟩ := field
    rw [SameFields,ih,List.forall_mem_cons]

theorem sameAligned {fields others : List (String × Json ν)} (keys : fields.map (·.1) = others.map (·.1)) (once : (others.map (·.1)).Nodup) :
    Same W (object fields) (object others) ↔ List.Forall₂ (fun field other => Same W field.2 other.2) fields others := by
  rw [Same,keys,and_iff_right fun key => Iff.rfl,sameFields_iff]
  induction fields generalizing others with
  | nil =>
    cases others with
    | nil => simp
    | cons other others => simp at keys
  | cons field fields ih =>
    cases others with
    | nil => simp at keys
    | cons other others =>
      obtain ⟨first,value⟩ := field
      obtain ⟨second,other⟩ := other
      obtain ⟨rfl,rest⟩ : first = second ∧ fields.map (·.1) = others.map (·.1) := List.cons.inj keys
      obtain ⟨fresh,once⟩ := List.nodup_cons.mp once
      rw [List.forall₂_cons,← ih rest once,List.forall_mem_cons]
      refine and_congr ⟨fun same => same _ List.mem_cons_self,fun same value mem => ?_⟩
        (forall₂_congr fun later inside => forall_congr' fun value => ⟨fun same mem => same (List.mem_cons_of_mem _ mem),fun same mem => ?_⟩)
      · rcases List.mem_cons.mp mem with here | mem
        · cases here
          exact same
        · exact absurd (List.mem_map.mpr ⟨_,mem,rfl⟩) fresh
      · rcases List.mem_cons.mp mem with here | mem
        · cases here
          exact absurd (rest ▸ List.mem_map.mpr ⟨later,inside,rfl⟩) fresh
        · exact same mem

/-! ### Fields in another order, and without one of them -/

theorem canonicalPerm {fields others : List (String × Json ν)} (once : (fields.map (·.1)).Nodup) (perm : fields.Perm others) :
    canonical W (object fields) = canonical W (object others) := by
  have moved : (canonicalFields W fields).Perm (canonicalFields W others) := by
    rw [canonicalFields_map,canonicalFields_map]
    exact perm.map _
  rw [canonical,canonical,byKey_perm moved (by rw [canonicalFields_keys]; exact once)]

theorem canonicalWithout {reorder : List (String × Json ν) → List (String × Json ν)} (perm : ∀ fields, (reorder fields).Perm fields)
    (key : String) {value : Json ν} (distinct : Distinct value) :
    canonical W ((stored W reorder value).without key) = canonical W (value.without key) := by
  cases value with
  | object fields =>
    have rest : DistinctFields (fields.filter fun field => field.1 ≠ key) :=
      (distinctFields_iff _).mpr fun field mem => (distinctFields_iff _).mp distinct.2 field (List.mem_of_mem_filter mem)
    have once : ((fields.filter fun field => field.1 ≠ key).map (·.1)).Nodup := distinct.1.sublist (List.filter_sublist.map _)
    have left : storedFields W reorder (fields.filter fun field => field.1 ≠ key) =
        (storedFields W reorder fields).filter fun field => field.1 ≠ key := by
      rw [storedFields_map,storedFields_map,List.filter_map]
      rfl
    have moved := (perm (storedFields W reorder fields)).filter fun field => field.1 ≠ key
    rw [← left] at moved
    have keys : ((storedFields W reorder (fields.filter fun field => field.1 ≠ key)).map (·.1)).Nodup := by
      rw [storedFields_keys]
      exact once
    calc canonical W (object ((reorder (storedFields W reorder fields)).filter fun field => field.1 ≠ key))
      _ = canonical W (object (storedFields W reorder (fields.filter fun field => field.1 ≠ key))) :=
        (canonicalPerm keys moved.symm).symm
      _ = canonical W (object (fields.filter fun field => field.1 ≠ key)) := by
        rw [canonical,canonical,canonicalFields_stored W reorder perm _ rest]
  | number value =>
    have stays : (stored W reorder (number value)).without key = stored W reorder (number value) := by
      rw [stored]
      split <;> rfl
    rw [stays]
    exact canonical_stored W reorder perm _ distinct
  | _ => exact canonical_stored W reorder perm _ distinct

end Json
