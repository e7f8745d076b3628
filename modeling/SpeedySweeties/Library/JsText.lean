import Mathlib.Algebra.GroupWithZero.Nat
import Mathlib.Data.List.DropRight

/-! JavaScript text over code point lists: white space as `\s` and `trim` see it,
and leftmost matching of a label under the `i` flag. Without the `u` flag no
character outside ASCII folds onto an ASCII one, so ASCII folding is exact. -/
namespace JsText

def isSpace (c : Char) : Bool :=
  c.toNat ∈ [0x09,0x0A,0x0B,0x0C,0x0D,0x20,0xA0,0x1680,0x2028,0x2029,0x202F,0x205F,0x3000,0xFEFF] ||
  (0x2000 ≤ c.toNat && c.toNat ≤ 0x200A)

def trim (text : String) : String :=
  String.ofList ((text.toList.dropWhile isSpace).reverse.dropWhile isSpace).reverse

private theorem dropWhilePrefix {α : Type} {p : α → Bool} {part text : List α} (kept : text.dropWhile p = text)
    (h : part <+: text) : part.dropWhile p = part := by
  rw [List.dropWhile_eq_self_iff] at kept ⊢
  intro nonempty
  obtain ⟨rest,rfl⟩ := h
  have first := kept (by simp; omega)
  rwa [List.getElem_append_left nonempty] at first

private theorem dropNone {text : List Char} (h : ∀ c ∈ text, isSpace c = false) : text.dropWhile isSpace = text := by
  rw [List.dropWhile_eq_self_iff]
  intro nonempty
  simpa using h _ (List.getElem_mem nonempty)

theorem trimSpaceless {text : String} (h : ∀ c ∈ text.toList, isSpace c = false) : trim text = text := by
  rw [trim,dropNone h,dropNone fun c mem => h c (List.mem_reverse.mp mem),List.reverse_reverse,String.ofList_toList]

theorem trimTrim (text : String) : trim (trim text) = trim text := by
  have kept : ((text.toList.dropWhile isSpace).rdropWhile isSpace).dropWhile isSpace =
      (text.toList.dropWhile isSpace).rdropWhile isSpace :=
    dropWhilePrefix (List.dropWhile_idempotent _ _) (List.rdropWhile_prefix _ _)
  change String.ofList (List.rdropWhile isSpace (List.dropWhile isSpace (String.ofList
    (List.rdropWhile isSpace (List.dropWhile isSpace text.toList))).toList)) = _
  rw [String.toList_ofList,kept,List.rdropWhile_idempotent]
  rfl

theorem spaceNoDigit {c : Char} (h : isSpace c = true) : c.isDigit = false := by
  cases digit : c.isDigit with
  | false => rfl
  | true =>
    simp only [Char.isDigit,Bool.and_eq_true,decide_eq_true_eq] at digit
    have low : 48 ≤ c.toNat := digit.1
    have high : c.toNat ≤ 57 := digit.2
    simp only [isSpace,Bool.or_eq_true,Bool.and_eq_true,decide_eq_true_eq,List.mem_cons,List.not_mem_nil,
      or_false] at h
    omega

/-- `text.padStart(width, "0")` -/
def padStart (width : Nat) (text : String) : String :=
  String.ofList (List.replicate (width - text.length) (Char.ofNat 48) ++ text.toList)

theorem natText {m n : Nat} (same : toString m = toString n) : m = n := by
  have digits : Nat.toDigits 10 m = Nat.toDigits 10 n := by
    simpa [← Nat.toList_repr] using congrArg String.toList same
  rw [← Nat.ofDigitChars_ten_toDigits (n := m),digits,Nat.ofDigitChars_ten_toDigits]

theorem unsignedText (n : Nat) (c : Char) (rest : List Char) (is : (toString n).toList = c::rest) : c ≠ '-' := by
  have digit : c.isDigit = true := by
    refine Nat.isDigit_of_mem_toDigits (b := 10) (n := n) (by decide) (by decide) ?_
    rw [← Nat.toList_repr]
    exact is ▸ List.mem_cons_self
  rintro rfl
  revert digit
  decide

theorem intText {m n : Int} (same : toString m = toString n) : m = n := by
  cases m with
  | ofNat a =>
    cases n with
    | ofNat b => exact congrArg Int.ofNat (natText same)
    | negSucc b =>
      have sign : (toString a).toList = '-'::(toString (b + 1)).toList := by
        rw [show toString a = "-" ++ toString (b + 1) from same,String.toList_append]
        rfl
      exact absurd rfl (unsignedText a _ _ sign)
  | negSucc a =>
    cases n with
    | ofNat b =>
      have sign : (toString b).toList = '-'::(toString (a + 1)).toList := by
        rw [show toString b = "-" ++ toString (a + 1) from same.symm,String.toList_append]
        rfl
      exact absurd rfl (unsignedText b _ _ sign)
    | negSucc b =>
      have parts : "-" ++ toString (a + 1) = "-" ++ toString (b + 1) := same
      have values : a + 1 = b + 1 := natText (by simpa using parts)
      rw [Nat.succ.inj values]

/-- `text.length`, in UTF-16 code units. -/
def length (text : String) : Nat :=
  (text.toList.map fun c => if c.toNat < 0x10000 then 1 else 2).sum

def charUnits (c : Char) : List Nat :=
  if c.toNat < 0x10000 then [c.toNat] else [0xd800 + (c.toNat - 0x10000)/0x400,0xdc00 + (c.toNat - 0x10000) % 0x400]

/-- The UTF-16 code units of a text, by which JavaScript compares texts. -/
def units (text : String) : List Nat := text.toList.flatMap charUnits

/-- No character is half of a surrogate pair. -/
theorem charUnitsInjective {c d : Char} {more others : List Nat} (same : charUnits c ++ more = charUnits d ++ others) :
    c = d ∧ more = others := by
  have validC : c.toNat < 0xd800 ∨ (0xdfff < c.toNat ∧ c.toNat < 0x110000) := c.valid
  have validD : d.toNat < 0xd800 ∨ (0xdfff < d.toNat ∧ d.toNat < 0x110000) := d.valid
  have code : c.toNat = d.toNat → c = d := fun codes => by rw [← Char.ofNat_toNat c,codes,Char.ofNat_toNat]
  unfold charUnits at same
  split at same <;> split at same <;> simp only [List.cons_append,List.nil_append,List.cons.injEq] at same
  · exact ⟨code same.1,same.2⟩
  · omega
  · omega
  · exact ⟨code (by omega),same.2.2⟩

theorem unitsInjective {a b : String} (same : units a = units b) : a = b := by
  have chars : ∀ xs ys : List Char, xs.flatMap charUnits = ys.flatMap charUnits → xs = ys := by
    have some_ : ∀ c more, charUnits c ++ more ≠ [] := fun c more => by unfold charUnits; split <;> simp
    intro xs
    induction xs with
    | nil =>
      intro ys same
      cases ys with
      | nil => rfl
      | cons d ys => exact absurd same.symm (some_ d _)
    | cons c xs ih =>
      intro ys same
      cases ys with
      | nil => exact absurd same (some_ c _)
      | cons d ys =>
        obtain ⟨rfl,rest⟩ := charUnitsInjective same
        rw [ih ys rest]
  exact String.toList_inj.mp (chars _ _ same)

def stripLabel : List Char → List Char → Option (List Char)
  | [],text => some text
  | _::_,[] => none
  | l::label,c::text => if l.toUpper = c.toUpper then stripLabel label text else none

/-- The match at the first position where `matcher` succeeds. -/
def firstMatch {α : Type} (matcher : List Char → Option α) : List Char → Option α
  | [] => matcher []
  | c::text => matcher (c::text) <|> firstMatch matcher text

def replaceChars (pattern replacement : List Char) : List Char → List Char
  | [] => []
  | c::text =>
    if pattern.isPrefixOf (c::text) then replacement ++ (c::text).drop pattern.length
    else c::replaceChars pattern replacement text

/-- `text.replace(pattern, replacement)`, which replaces the first occurrence. -/
def replace (text pattern replacement : String) : String :=
  String.ofList (replaceChars pattern.toList replacement.toList text.toList)

def digits (text : List Char) : List Char := text.takeWhile Char.isDigit

/-- `[0-9]+` -/
def wholeNumber (text : List Char) : Option (List Char) :=
  if digits text = [] then none else some (digits text)

/-- `[0-9]+(?:\.[0-9]{1,2})?` -/
def amount (text : List Char) : Option (List Char) :=
  match wholeNumber text with
  | none => none
  | some whole =>
    match text.drop whole.length with
    | '.'::rest =>
      if digits rest = [] then some whole else some (whole ++ '.'::(digits rest).take 2)
    | _ => some whole

def skipDollar : List Char → List Char
  | '$'::rest => rest
  | text => text

end JsText
