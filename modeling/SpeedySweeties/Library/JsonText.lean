import SpeedySweeties.Library.Grouping
import SpeedySweeties.Library.Json

/-! The text of a JavaScript value as `JSON.stringify` writes it, with the keys in their own order,
and as `JSON.parse` reads it. What was written is read back, so a text belongs to one value. An
escaped half of a surrogate pair, which is no character of its own, is not read. -/
namespace Json
variable {ν : Type}

def quoteMark : Char := Char.ofNat 34
def backslash : Char := Char.ofNat 92
def openBrace : Char := Char.ofNat 123
def closeBrace : Char := Char.ofNat 125

/-! ### Writing -/

def quoteChars (text : String) : List Char := quoteMark::(text.toList.flatMap escape ++ [quoteMark])

section Write
variable (W : Writer ν)

mutual
def chars : Json ν → List Char
  | null => "null".toList
  | bool value => if value then "true".toList else "false".toList
  | number value => ((W.numberText value).getD "null").toList
  | text value => quoteChars value
  | date value => quoteChars (W.toISOString value)
  | array items => '['::(itemChars items ++ [']'])
  | object fields => openBrace::(fieldChars fields ++ [closeBrace])

def itemChars : List (Json ν) → List Char
  | [] => []
  | item::items => chars item ++ moreItems items

def moreItems : List (Json ν) → List Char
  | [] => []
  | item::items => ','::(chars item ++ moreItems items)

def fieldChars : List (String × Json ν) → List Char
  | [] => []
  | (key,value)::fields => quoteChars key ++ ':'::(chars value ++ moreFields fields)

def moreFields : List (String × Json ν) → List Char
  | [] => []
  | (key,value)::fields => ','::(quoteChars key ++ ':'::(chars value ++ moreFields fields))
end

/-- `JSON.stringify(value)` -/
def stringify (value : Json ν) : String := String.ofList (chars W value)

end Write

/-! ### Reading -/

def isJsonSpace (c : Char) : Bool := c.toNat ∈ [32,9,10,13]

def isNumberChar (c : Char) : Bool := c.isDigit || c ∈ "+-.eE".toList

def hexValue (c : Char) : Option Nat :=
  if '0' ≤ c ∧ c ≤ '9' then some (c.toNat - 48)
  else if 'a' ≤ c ∧ c ≤ 'f' then some (c.toNat - 87)
  else if 'A' ≤ c ∧ c ≤ 'F' then some (c.toNat - 55)
  else none

def readHex (a b c d : Char) : Option Char := do
  let code := 4096*(← hexValue a) + 256*(← hexValue b) + 16*(← hexValue c) + (← hexValue d)
  if 0xd800 ≤ code ∧ code ≤ 0xdfff then none else some (Char.ofNat code)

def readEscape (c : Char) : Option Char :=
  if c = quoteMark ∨ c = backslash ∨ c = '/' then some c
  else if c = 'b' then some (Char.ofNat 8)
  else if c = 't' then some (Char.ofNat 9)
  else if c = 'n' then some (Char.ofNat 10)
  else if c = 'f' then some (Char.ofNat 12)
  else if c = 'r' then some (Char.ofNat 13)
  else none

/-- The rest of a string, after its opening quotation mark. -/
def readString : List Char → Option (List Char × List Char)
  | [] => none
  | c::rest =>
    if c = quoteMark then some ([],rest)
    else if c = backslash then
      match rest with
      | 'u'::h::i::j::k::rest => do
        let first ← readHex h i j k
        let (others,rest) ← readString rest
        some (first::others,rest)
      | e::rest => do
        let first ← readEscape e
        let (others,rest) ← readString rest
        some (first::others,rest)
      | [] => none
    else if c.toNat < 32 then none
    else do
      let (others,rest) ← readString rest
      some (c::others,rest)

def skip (source : List Char) : List Char := source.dropWhile isJsonSpace

def expect (c : Char) (source : List Char) : Option (List Char) :=
  match skip source with
  | d::rest => if d = c then some rest else none
  | [] => none

section Read
variable (readNumber : List Char → Option ν)

/-- A literal, or else a number. -/
def readScalar (source : List Char) : Option (Json ν × List Char) :=
  if "null".toList.isPrefixOf source then some (null,source.drop 4)
  else if "true".toList.isPrefixOf source then some (bool true,source.drop 4)
  else if "false".toList.isPrefixOf source then some (bool false,source.drop 5)
  else (readNumber (source.takeWhile isNumberChar)).map fun value => (number value,source.dropWhile isNumberChar)

/-- Of fields with one key the last value stays, in the place of the first. -/
def merged (fields : List (String × Json ν)) : List (String × Json ν) := (Table.ofRows Prod.fst fields).rows

mutual
def readValue : Nat → List Char → Option (Json ν × List Char)
  | 0,_ => none
  | fuel + 1,source =>
    match skip source with
    | [] => none
    | c::rest =>
      if c = quoteMark then (readString rest).map fun (value,rest) => (Json.text (String.ofList value),rest)
      else if c = '[' then
        match expect ']' rest with
        | some rest => some (array [],rest)
        | none => (readItems fuel rest).map fun (items,rest) => (array items,rest)
      else if c = openBrace then
        match expect closeBrace rest with
        | some rest => some (object [],rest)
        | none => (readFields fuel rest).map fun (fields,rest) => (object (merged fields),rest)
      else readScalar readNumber (c::rest)

def readItems : Nat → List Char → Option (List (Json ν) × List Char)
  | 0,_ => none
  | fuel + 1,source => do
    let (item,rest) ← readValue fuel source
    match expect ',' rest with
    | some rest =>
      let (items,rest) ← readItems fuel rest
      some (item::items,rest)
    | none =>
      let rest ← expect ']' rest
      some ([item],rest)

def readFields : Nat → List Char → Option (List (String × Json ν) × List Char)
  | 0,_ => none
  | fuel + 1,source => do
    let rest ← expect quoteMark source
    let (key,rest) ← readString rest
    let rest ← expect ':' rest
    let (value,rest) ← readValue fuel rest
    match expect ',' rest with
    | some rest =>
      let (fields,rest) ← readFields fuel rest
      some ((String.ofList key,value)::fields,rest)
    | none =>
      let rest ← expect closeBrace rest
      some ([(String.ofList key,value)],rest)
end

/-- `JSON.parse(source)`, `none` where it throws. -/
def parse (source : String) : Option (Json ν) := do
  let (value,rest) ← readValue readNumber (source.toList.length + 1) source.toList
  if skip rest = [] then some value else none

end Read

/-! ### What was written is read back -/

theorem readHexDigits : ∀ n < 32, readHex '0' '0' (hexDigit (n/16)) (hexDigit (n%16)) = some (Char.ofNat n) := by decide

theorem readEscaped (c : Char) (rest : List Char) : readString (escape c ++ rest) = (readString rest).map fun p => (c::p.1,p.2) := by
  have self : c = Char.ofNat c.toNat := (Char.ofNat_toNat c).symm
  have short : ∀ e, e ≠ 'u' → readEscape e = some c → readString (backslash::e::rest) = (readString rest).map fun p => (c::p.1,p.2) := by
    intro e other is
    rw [readString.eq_def]
    dsimp only
    rw [if_neg (by decide),if_pos rfl]
    split
    · rename_i same
      exact absurd (List.cons.inj same).1 other
    · rename_i same
      obtain ⟨rfl,rfl⟩ := List.cons.inj same
      rw [is]
      cases readString rest <;> rfl
    · contradiction
  unfold escape
  dsimp only
  split
  · rename_i mark
    rcases mark with mark | mark <;> rw [mark] at self <;> subst self <;> exact short _ (by decide) (by decide)
  split
  · rename_i code
    exact short 'b' (by decide) (by rw [self,code]; decide)
  split
  · rename_i code
    exact short 't' (by decide) (by rw [self,code]; decide)
  split
  · rename_i code
    exact short 'n' (by decide) (by rw [self,code]; decide)
  split
  · rename_i code
    exact short 'f' (by decide) (by rw [self,code]; decide)
  split
  · rename_i code
    exact short 'r' (by decide) (by rw [self,code]; decide)
  split
  · rename_i low
    have hex := readHexDigits c.toNat low
    rw [← self] at hex
    rw [readString.eq_def]
    dsimp only [List.cons_append,List.nil_append]
    rw [if_neg (by decide),if_pos (by decide)]
    change ((readHex '0' '0' (hexDigit (c.toNat/16)) (hexDigit (c.toNat % 16))).bind fun first =>
      (readString rest).bind fun p => some (first::p.1,p.2)) = _
    rw [hex,Option.bind_some]
    cases readString rest <;> rfl
  · rename_i marks _ _ _ _ _ high
    have notQuote : c ≠ quoteMark := fun same => marks (.inl (by rw [same]; decide))
    have notSlash : c ≠ backslash := fun same => marks (.inr (by rw [same]; decide))
    rw [List.singleton_append,readString.eq_def]
    dsimp only
    rw [if_neg notQuote,if_neg notSlash,if_neg high]
    cases readString rest <;> rfl

theorem readQuoted (value : List Char) (rest : List Char) : readString (value.flatMap escape ++ quoteMark::rest) = some (value,rest) := by
  induction value with
  | nil =>
    rw [List.flatMap_nil,List.nil_append,readString.eq_def]
    exact if_pos rfl
  | cons c value ih =>
    rw [List.flatMap_cons,List.append_assoc,readEscaped,ih]
    rfl

/-- Number texts are not empty, have the characters of numbers and are read as their numbers. -/
structure Readable (W : Writer ν) (readNumber : List Char → Option ν) : Prop where
  some_ : ∀ n t, W.numberText n = some t → t.toList ≠ []
  digits : ∀ n t, W.numberText n = some t → ∀ c ∈ t.toList, isNumberChar c = true
  read : ∀ n t, W.numberText n = some t → readNumber t.toList = some n

/-- A natural number, as it is written. -/
def readNatural (digits : List Char) : Option Nat :=
  let value := Nat.ofDigitChars 10 digits 0
  if (toString value).toList = digits then some value else none

theorem readableNaturals {W : Writer Nat} (text : ∀ n, W.numberText n = some (toString n)) : Readable W readNatural where
  some_ n t is := by
    cases Option.some.inj ((text n).symm.trans is)
    exact fun none_ => Nat.toDigits_ne_nil (Nat.toList_repr.symm.trans none_)
  digits n t is c mem := by
    cases Option.some.inj ((text n).symm.trans is)
    have digit : c.isDigit = true := by
      refine Nat.isDigit_of_mem_toDigits (b := 10) (n := n) (by decide) (by decide) ?_
      rw [← Nat.toList_repr]
      exact mem
    rw [isNumberChar,digit]
    rfl
  read n t is := by
    cases Option.some.inj ((text n).symm.trans is)
    have value : Nat.ofDigitChars 10 (toString n).toList 0 = n := by
      have digits : (toString n).toList = Nat.toDigits 10 n := Nat.toList_repr
      rw [digits,Nat.ofDigitChars_ten_toDigits]
    rw [readNatural,value,if_pos rfl]

/-- For values without numbers and dates. -/
def textWriter : Writer Empty := ⟨Empty.elim,fun _ => ""⟩

theorem readableTexts : Readable textWriter fun _ => none := ⟨nofun,nofun,nofun⟩

/-- What may follow a value. -/
def Delimited (rest : List Char) : Prop := ∀ c ∈ rest.head?, isNumberChar c = false

section Back
variable {W : Writer ν} {readNumber : List Char → Option ν}

theorem skipHead {c : Char} {rest : List Char} (solid : isJsonSpace c = false) : skip (c::rest) = c::rest := by
  rw [skip,List.dropWhile_cons,solid]
  rfl

theorem expectHead {c : Char} {rest : List Char} (solid : isJsonSpace c = false) : expect c (c::rest) = some rest := by
  rw [expect,skipHead solid]
  exact if_pos rfl

theorem expectOther {c d : Char} {rest : List Char} (solid : isJsonSpace d = false) (other : d ≠ c) : expect c (d::rest) = none := by
  rw [expect,skipHead solid]
  exact if_neg other

theorem numberHead {c : Char} (is : isNumberChar c = true) :
    isJsonSpace c = false ∧ c ≠ ']' ∧ c ≠ '[' ∧ c ≠ quoteMark ∧ c ≠ openBrace ∧ c ≠ 'n' ∧ c ≠ 't' ∧ c ≠ 'f' := by
  have solid : isJsonSpace c = false := by
    cases space : isJsonSpace c with
    | false => rfl
    | true =>
      simp only [isJsonSpace,decide_eq_true_eq,List.mem_cons,List.not_mem_nil,or_false] at space
      have self : c = Char.ofNat c.toNat := (Char.ofNat_toNat c).symm
      rcases space with code | code | code | code <;> rw [code] at self <;> subst self <;> exact absurd is (by decide)
  refine ⟨solid,?_,?_,?_,?_,?_,?_,?_⟩ <;> rintro rfl <;> exact absurd is (by decide)

theorem charsHead (readable : Readable W readNumber) (value : Json ν) :
    ∃ c rest, chars W value = c::rest ∧ isJsonSpace c = false ∧ c ≠ ']' := by
  cases value with
  | null => exact ⟨_,_,rfl,by decide,by decide⟩
  | bool value => cases value <;> exact ⟨_,_,rfl,by decide,by decide⟩
  | number value =>
    rw [chars]
    cases is : W.numberText value with
    | none => exact ⟨_,_,rfl,by decide,by decide⟩
    | some t =>
      obtain ⟨c,rest,chars_⟩ := List.exists_cons_of_ne_nil (readable.some_ _ _ is)
      have head := numberHead (readable.digits _ _ is c (by rw [chars_]; exact List.mem_cons_self))
      exact ⟨c,rest,chars_,head.1,head.2.1⟩
  | text value => exact ⟨quoteMark,_,rfl,by decide,by decide⟩
  | date value => exact ⟨quoteMark,_,rfl,by decide,by decide⟩
  | array items => exact ⟨'[',_,rfl,by decide,by decide⟩
  | object fields => exact ⟨openBrace,_,rfl,by decide,by decide⟩

theorem readNumberText (readable : Readable W readNumber) {value : ν} {t : String} (is : W.numberText value = some t) {rest : List Char}
    (after : Delimited rest) : readScalar readNumber (t.toList ++ rest) = some (number value,rest) := by
  have digits := readable.digits _ _ is
  obtain ⟨c,more,chars_⟩ := List.exists_cons_of_ne_nil (readable.some_ _ _ is)
  have head := numberHead (digits c (by rw [chars_]; exact List.mem_cons_self))
  have taken : (t.toList ++ rest).takeWhile isNumberChar = t.toList := by
    rw [List.takeWhile_append_of_pos digits]
    cases rest with
    | nil => simp
    | cons d rest => rw [List.takeWhile_cons,after d rfl]; simp
  have dropped : (t.toList ++ rest).dropWhile isNumberChar = rest := by
    rw [List.dropWhile_append_of_pos digits]
    cases rest with
    | nil => rfl
    | cons d rest => rw [List.dropWhile_cons,after d rfl]; rfl
  have notLiteral : ∀ first others, c ≠ first → (first::others).isPrefixOf (t.toList ++ rest) = false := fun first others differ => by
    rw [chars_,List.cons_append,List.isPrefixOf_cons_cons]
    simp [Ne.symm differ]
  obtain ⟨-,-,-,-,-,n,t',f⟩ := head
  rw [readScalar,if_neg,if_neg,if_neg,taken,dropped,readable.read _ _ is]
  · rfl
  · exact Bool.not_eq_true _ ▸ notLiteral _ _ f
  · exact Bool.not_eq_true _ ▸ notLiteral _ _ t'
  · exact Bool.not_eq_true _ ▸ notLiteral _ _ n

theorem readText (fuel : Nat) (value : String) (rest : List Char) :
    readValue readNumber (fuel + 1) (quoteChars value ++ rest) = some (text value,rest) := by
  have source : quoteChars value ++ rest = quoteMark::(value.toList.flatMap escape ++ quoteMark::rest) := by simp [quoteChars]
  rw [source,readValue.eq_def]
  dsimp only
  rw [skipHead (by decide)]
  dsimp only
  rw [if_pos rfl,readQuoted,Option.map_some,String.ofList_toList]

theorem readWritten (readable : Readable W readNumber) (fuel : Nat) {value : ν} {t : String} (is : W.numberText value = some t)
    {rest : List Char} (after : Delimited rest) : readValue readNumber (fuel + 1) (t.toList ++ rest) = some (number value,rest) := by
  obtain ⟨c,more,chars_⟩ := List.exists_cons_of_ne_nil (readable.some_ _ _ is)
  obtain ⟨solid,-,bracket,mark,brace,-⟩ := numberHead (readable.digits _ _ is c (by rw [chars_]; exact List.mem_cons_self))
  have read := readNumberText readable is after
  rw [chars_,List.cons_append] at read ⊢
  rw [readValue.eq_def]
  dsimp only
  rw [skipHead solid]
  dsimp only
  rw [if_neg mark,if_neg bracket,if_neg brace,read]

theorem itemHead (readable : Readable W readNumber) (item : Json ν) (items : List (Json ν)) :
    ∃ c rest, itemChars W (item::items) = c::rest ∧ isJsonSpace c = false ∧ c ≠ ']' := by
  obtain ⟨c,rest,is,solid,other⟩ := charsHead readable item
  exact ⟨c,rest ++ moreItems W items,by rw [itemChars,is,List.cons_append],solid,other⟩

mutual
theorem readChars (readable : Readable W readNumber) : ∀ value : Json ν, Distinct value → ∀ fuel rest,
    (chars W value).length ≤ fuel → Delimited rest → readValue readNumber fuel (chars W value ++ rest) = some (stored W id value,rest)
  | value,distinct,0,rest,enough,_ => by
    obtain ⟨c,others,is,-⟩ := charsHead readable value
    rw [is] at enough
    simp at enough
  | null,_,fuel + 1,rest,_,_ => rfl
  | bool value,_,fuel + 1,rest,_,_ => by cases value <;> rfl
  | number value,_,fuel + 1,rest,_,after => by
    rw [chars,stored]
    cases is : W.numberText value with
    | none => rfl
    | some t => exact readWritten readable fuel is after
  | text value,_,fuel + 1,rest,_,_ => readText fuel value rest
  | date value,_,fuel + 1,rest,_,_ => readText fuel (W.toISOString value) rest
  | array items,distinct,fuel + 1,rest,enough,after => by
    rw [chars,List.cons_append,List.append_assoc,List.singleton_append,readValue.eq_def]
    dsimp only
    rw [skipHead (by decide)]
    dsimp only
    rw [if_neg (by decide),if_pos rfl]
    cases items with
    | nil => rw [itemChars,List.nil_append,expectHead (by decide)]; rfl
    | cons item items =>
      obtain ⟨c,others,is,solid,other⟩ := itemHead readable item items
      have first : expect ']' (itemChars W (item::items) ++ ']'::rest) = none := by rw [is]; exact expectOther solid other
      have read := readItemChars readable item items distinct.1 distinct.2 fuel rest (by simp [chars] at enough; omega)
      rw [first]
      dsimp only
      rw [read]
      rfl
  | object fields,distinct,fuel + 1,rest,enough,after => by
    rw [chars,List.cons_append,List.append_assoc,List.singleton_append,readValue.eq_def]
    dsimp only
    rw [skipHead (by decide)]
    dsimp only
    rw [if_neg (by decide),if_neg (by decide),if_pos rfl]
    cases fields with
    | nil => rw [fieldChars,List.nil_append,expectHead (by decide)]; rfl
    | cons field fields =>
      obtain ⟨key,value⟩ := field
      have first : expect closeBrace (fieldChars W ((key,value)::fields) ++ closeBrace::rest) = none := expectOther (by decide) (by decide)
      have read := readFieldChars readable key value fields distinct.2.1 distinct.2.2 fuel rest (by simp [chars] at enough; omega)
      have once : ((storedFields W id ((key,value)::fields)).map Prod.fst).Nodup := by
        rw [storedFields_keys]
        exact distinct.1
      rw [first]
      dsimp only
      rw [read,Option.map_some,show (key,stored W id value)::storedFields W id fields = storedFields W id ((key,value)::fields) from rfl,
        merged,Table.rows_ofRows once]
      rfl

theorem readItemChars (readable : Readable W readNumber) : ∀ (item : Json ν) (items : List (Json ν)), Distinct item →
    DistinctItems items → ∀ fuel rest, (itemChars W (item::items)).length < fuel →
    readItems readNumber fuel (itemChars W (item::items) ++ ']'::rest) = some (stored W id item::storedItems W id items,rest)
  | item,items,distinct,others,0,rest,enough => absurd enough (Nat.not_lt_zero _)
  | item,[],distinct,_,fuel + 1,rest,enough => by
    have short : (chars W item).length ≤ fuel := by simp [itemChars,moreItems] at enough; omega
    have read := readChars readable item distinct fuel (']'::rest) short (fun c mem => by cases mem; decide)
    rw [itemChars,moreItems,List.append_nil,readItems.eq_def]
    dsimp only
    rw [read]
    dsimp only [bind,Option.bind]
    rw [expectOther (by decide) (by decide)]
    dsimp only
    rw [expectHead (by decide)]
    rfl
  | item,next::items,distinct,others,fuel + 1,rest,enough => by
    have lengths : (chars W item).length + ((itemChars W (next::items)).length + 1) < fuel + 1 := by
      simpa [itemChars,moreItems] using enough
    have read := readChars readable item distinct fuel (','::(itemChars W (next::items) ++ ']'::rest)) (by omega) (fun c mem => by cases mem; decide)
    have later := readItemChars readable next items others.1 others.2 fuel rest (by omega)
    have source : itemChars W (item::next::items) ++ ']'::rest = chars W item ++ ','::(itemChars W (next::items) ++ ']'::rest) := by
      simp [itemChars,moreItems]
    rw [source,readItems.eq_def]
    dsimp only
    rw [read]
    dsimp only [bind,Option.bind]
    rw [expectHead (by decide)]
    dsimp only
    rw [later]
    rfl

theorem readFieldChars (readable : Readable W readNumber) : ∀ (key : String) (value : Json ν) (fields : List (String × Json ν)),
    Distinct value → DistinctFields fields → ∀ fuel rest,
    (fieldChars W ((key,value)::fields)).length < fuel →
    readFields readNumber fuel (fieldChars W ((key,value)::fields) ++ closeBrace::rest) =
      some ((key,stored W id value)::storedFields W id fields,rest)
  | key,value,fields,distinct,others,0,rest,enough => absurd enough (Nat.not_lt_zero _)
  | key,value,[],distinct,_,fuel + 1,rest,enough => by
    have short : (chars W value).length ≤ fuel := by simp [fieldChars,moreFields] at enough; omega
    have read := readChars readable value distinct fuel (closeBrace::rest) short (fun c mem => by cases mem; decide)
    have source : fieldChars W [(key,value)] ++ closeBrace::rest =
        quoteMark::(key.toList.flatMap escape ++ quoteMark::(':'::(chars W value ++ closeBrace::rest))) := by
      simp [fieldChars,moreFields,quoteChars]
    rw [source,readFields.eq_def]
    dsimp only
    rw [expectHead (by decide)]
    dsimp only [bind,Option.bind]
    rw [readQuoted]
    dsimp only
    rw [expectHead (by decide)]
    dsimp only
    rw [read]
    dsimp only
    rw [expectOther (by decide) (by decide)]
    dsimp only
    rw [expectHead (by decide),String.ofList_toList]
    rfl
  | key,value,(next,second)::fields,distinct,others,fuel + 1,rest,enough => by
    have lengths : (chars W value).length + ((fieldChars W ((next,second)::fields)).length + 1) < fuel + 1 := by
      simp [fieldChars,moreFields] at enough ⊢
      omega
    have read := readChars readable value distinct fuel (','::(fieldChars W ((next,second)::fields) ++ closeBrace::rest)) (by omega)
      (fun c mem => by cases mem; decide)
    have later := readFieldChars readable next second fields others.1 others.2 fuel rest (by omega)
    have source : fieldChars W ((key,value)::(next,second)::fields) ++ closeBrace::rest =
        quoteMark::(key.toList.flatMap escape ++
          quoteMark::(':'::(chars W value ++ ','::(fieldChars W ((next,second)::fields) ++ closeBrace::rest)))) := by
      simp [fieldChars,moreFields,quoteChars]
    rw [source,readFields.eq_def]
    dsimp only
    rw [expectHead (by decide)]
    dsimp only [bind,Option.bind]
    rw [readQuoted]
    dsimp only
    rw [expectHead (by decide)]
    dsimp only
    rw [read]
    dsimp only
    rw [expectHead (by decide)]
    dsimp only
    rw [later,String.ofList_toList]
    rfl
end

/-- `JSON.parse(JSON.stringify(value))` -/
theorem parseStringify (readable : Readable W readNumber) {value : Json ν} (distinct : Distinct value) :
    parse readNumber (stringify W value) = some (stored W id value) := by
  have read := readChars readable value distinct ((chars W value).length + 1) [] (by omega) (by simp [Delimited])
  rw [List.append_nil] at read
  rw [parse,stringify,String.toList_ofList,read]
  rfl

theorem stringifyInjective (readable : Readable W readNumber) {a b : Json ν} (distinctA : Distinct a) (distinctB : Distinct b)
    (same : stringify W a = stringify W b) : stored W id a = stored W id b := by
  have texts := parseStringify readable distinctA
  rw [same,parseStringify readable distinctB] at texts
  exact (Option.some.inj texts).symm

end Back

end Json
