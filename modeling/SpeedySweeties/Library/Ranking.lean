import Mathlib.Data.List.Sort

/-! Lists put in the order of a comparison function, as `Array.prototype.sort` does, and the
ones that come first in it. Where the comparison tells the items of a list apart, their
order in the list does not matter. -/
namespace Ranking

variable {α β : Type}

/-- `xs.sort(cmp)`, which keeps the order of equal items. -/
def ranked (cmp : α → α → Ordering) (xs : List α) : List α := xs.insertionSort fun a b => (cmp a b).isLE

/-- `xs.sort(cmp).slice(0, k)` -/
def best (cmp : α → α → Ordering) (k : Nat) (xs : List α) : List α := (ranked cmp xs).take k

/-- The first of the items so far, which one that ties with it does not replace. -/
def keepFirst (cmp : α → α → Ordering) : Option α → α → Option α
  | none,x => some x
  | some first,x => if cmp x first = .lt then some x else some first

/-- `Array.from(new Set(xs))` -/
def distinct [BEq α] (xs : List α) : List α := xs.eraseDups

/-- The sign of `a - b`. -/
def byValue [LinearOrder β] (f : α → β) (a b : α) : Ordering :=
  if f a < f b then .lt else if f b < f a then .gt else .eq

/-- The second comparison, where the first does not tell. -/
def thenBy (first second : α → α → Ordering) (a b : α) : Ordering := (first a b).then (second a b)

/-- By a value that some items lack, and these last. -/
def missingLast (cmp : β → β → Ordering) (f : α → Option β) (a b : α) : Ordering :=
  match f a,f b with
  | some x,some y => cmp x y
  | some _,none => .lt
  | none,some _ => .gt
  | none,none => .eq

def Separates (cmp : α → α → Ordering) (xs : List α) : Prop := ∀ a ∈ xs, ∀ b ∈ xs, cmp a b = .eq → a = b

theorem Separates.subset {cmp : α → α → Ordering} {xs ys : List α} (h : Separates cmp xs) (within : ys ⊆ xs) : Separates cmp ys :=
  fun a left b right => h a (within left) b (within right)

section Comparisons

instance [LinearOrder β] {f : α → β} : Std.TransCmp (byValue f) where
  eq_swap {a b} := by
    rcases lt_trichotomy (f a) (f b) with less | same | more
    · simp [byValue,less,not_lt_of_gt less]
    · simp [byValue,same]
    · simp [byValue,more,not_lt_of_gt more]
  isLE_trans {a b c} := by
    have is : ∀ x y, (byValue f x y).isLE ↔ f x ≤ f y := fun x y => by
      rcases lt_trichotomy (f x) (f y) with less | same | more
      · simp [byValue,less,le_of_lt less]
      · simp [byValue,same]
      · simp [byValue,more,not_lt_of_gt more]
    rw [is,is,is]
    exact le_trans

theorem byValueLt [LinearOrder β] {f : α → β} {a b : α} : byValue f a b = .lt ↔ f a < f b := by
  rcases lt_trichotomy (f a) (f b) with less | same | more
  · simp [byValue,less]
  · simp [byValue,same]
  · simp [byValue,more,not_lt_of_gt more]

theorem byValueEq [LinearOrder β] {f : α → β} {a b : α} : byValue f a b = .eq ↔ f a = f b := by
  rcases lt_trichotomy (f a) (f b) with less | same | more
  · simp [byValue,less,ne_of_lt less]
  · simp [byValue,same]
  · simp [byValue,more,not_lt_of_gt more,ne_of_gt more]

instance {first second : α → α → Ordering} [Std.TransCmp first] [Std.TransCmp second] : Std.TransCmp (thenBy first second) :=
  inferInstanceAs (Std.TransCmp (compareLex first second))

instance transOn {cmp : β → β → Ordering} [Std.TransCmp cmp] {f : α → β} : Std.TransCmp fun a b => cmp (f a) (f b) where
  eq_swap {a b} := show cmp (f a) (f b) = (cmp (f b) (f a)).swap from Std.OrientedCmp.eq_swap
  isLE_trans {a b c} := show (cmp (f a) (f b)).isLE → (cmp (f b) (f c)).isLE → (cmp (f a) (f c)).isLE from Std.TransCmp.isLE_trans

instance {cmp : β → β → Ordering} [Std.TransCmp cmp] {f : α → Option β} : Std.TransCmp (missingLast cmp f) where
  eq_swap {a b} := by
    unfold missingLast
    cases f a <;> cases f b
    case some.some => exact Std.OrientedCmp.eq_swap
    all_goals rfl
  isLE_trans {a b c} := by
    unfold missingLast
    cases f a <;> cases f b <;> cases f c
    case some.some.some => exact Std.TransCmp.isLE_trans
    all_goals simp

theorem thenByEq {first second : α → α → Ordering} {a b : α} (h : thenBy first second a b = .eq) :
    first a b = .eq ∧ second a b = .eq := Ordering.then_eq_eq.mp h

theorem thenByLt {first second : α → α → Ordering} {a b : α} :
    thenBy first second a b = .lt ↔ first a b = .lt ∨ (first a b = .eq ∧ second a b = .lt) := Ordering.then_eq_lt

end Comparisons

section Ranks
variable {cmp : α → α → Ordering} {xs ys : List α} {k : Nat}

theorem rankedPerm : (ranked cmp xs).Perm xs := List.perm_insertionSort _ _

theorem memRanked {x : α} : x ∈ ranked cmp xs ↔ x ∈ xs := List.mem_insertionSort _

theorem memBest {x : α} (h : x ∈ best cmp k xs) : x ∈ xs := memRanked.mp (List.mem_of_mem_take h)

theorem lengthBest : (best cmp k xs).length = min k xs.length := by
  rw [best,List.length_take,rankedPerm.length_eq]

theorem firstFound (xs : List α) (acc : Option α) : (xs.foldl (keepFirst cmp) acc).isSome = (acc.isSome || !xs.isEmpty) := by
  induction xs generalizing acc with
  | nil => simp
  | cons x xs ih =>
    have found : (keepFirst cmp acc x).isSome = true := by
      unfold keepFirst
      split
      · rfl
      · split <;> rfl
    rw [List.foldl_cons,ih,found]
    simp

theorem firstNone (none_ : xs.foldl (keepFirst cmp) none = none) : xs = [] := by
  have := @firstFound _ cmp xs none
  rw [none_] at this
  simpa using this

theorem bestNodup (h : xs.Nodup) : (best cmp k xs).Nodup := (rankedPerm.nodup_iff.mpr h).sublist (List.take_sublist _ _)

/-- What comes before all others or ties with them, and stands before them, stays the first. -/
theorem rankedLead {x : α} (leads : ∀ y ∈ xs, (cmp x y).isLE) : ranked cmp (x::xs) = x::ranked cmp xs := by
  rw [ranked,List.insertionSort_cons,← ranked]
  cases is : ranked cmp xs with
  | nil => rfl
  | cons y rest =>
    have first : (cmp x y).isLE := leads y (memRanked.mp (is ▸ List.mem_cons_self))
    rw [List.orderedInsert,if_pos first]

theorem rankedFirst {x : α} (before : ∀ y ∈ xs, (cmp y x).isLE = false) (after : ∀ y ∈ ys, (cmp x y).isLE) :
    ranked cmp (xs ++ x::ys) = x::ranked cmp (xs ++ ys) := by
  induction xs with
  | nil => exact rankedLead after
  | cons y xs ih =>
    have rest := ih fun z mem => before z (List.mem_cons_of_mem _ mem)
    have later : ¬(cmp y x).isLE = true := by simp [before y List.mem_cons_self]
    rw [List.cons_append,ranked,List.insertionSort_cons,← ranked,rest,List.orderedInsert,if_neg later,List.cons_append,ranked,
      ranked,List.insertionSort_cons]

/-- The first one in order, in front of others that tie with it, and the others as they stand. -/
def Leads (cmp : α → α → Ordering) (all : List α) (x : α) (others : List α) : Prop :=
  ∃ before after, all = before ++ x::after ∧ others = before ++ after ∧ (∀ y ∈ before, cmp x y = .lt) ∧ ∀ y ∈ after, (cmp x y).isLE

theorem Leads.mem {x y : α} (h : Leads cmp xs x ys) : y ∈ xs ↔ y = x ∨ y ∈ ys := by
  obtain ⟨before,after,rfl,rfl,-,-⟩ := h
  simp only [List.mem_append,List.mem_cons]
  tauto

theorem Leads.ranked [Std.OrientedCmp cmp] {x : α} (h : Leads cmp xs x ys) : ranked cmp xs = x::ranked cmp ys := by
  obtain ⟨before,after,rfl,rfl,first,later⟩ := h
  exact rankedFirst (fun y mem => by simp [Std.OrientedCmp.gt_of_lt (first y mem)]) later

variable [Std.TransCmp cmp]

variable (cmp) in
theorem leader (some_ : xs ≠ []) : ∃ x others, Leads cmp xs x others := by
  induction xs with
  | nil => exact absurd rfl some_
  | cons y xs ih =>
    by_cases none_ : xs = []
    · exact ⟨y,xs,[],xs,rfl,rfl,nofun,by simp [none_]⟩
    · obtain ⟨x,others,before,after,rfl,rfl,first,later⟩ := ih none_
      cases order : cmp y x with
      | gt =>
        refine ⟨x,y::(before ++ after),y::before,after,rfl,rfl,fun z mem => ?_,later⟩
        rcases List.mem_cons.mp mem with rfl | mem
        · exact Std.OrientedCmp.lt_of_gt order
        · exact first z mem
      | lt | eq =>
        have leads : ∀ z ∈ before ++ x::after, (cmp y z).isLE := by
          have least : (cmp y x).isLE := by simp [order]
          intro z mem
          rcases List.mem_append.mp mem with mem | mem
          · exact Std.TransCmp.isLE_trans least (by simp [first z mem])
          · rcases List.mem_cons.mp mem with rfl | mem
            · exact least
            · exact Std.TransCmp.isLE_trans least (later z mem)
        exact ⟨y,before ++ x::after,[],before ++ x::after,rfl,rfl,nofun,leads⟩

theorem rankedSorted (xs : List α) : (ranked cmp xs).Pairwise fun a b => (cmp a b).isLE := by
  have total : Std.Total fun a b => (cmp a b).isLE := ⟨fun a b => by
    cases h : cmp a b
    · simp
    · simp
    · simp [Std.OrientedCmp.lt_of_gt h]⟩
  have trans : IsTrans α fun a b => (cmp a b).isLE := ⟨fun _ _ _ => Std.TransCmp.isLE_trans⟩
  exact List.pairwise_insertionSort _ xs

/-- The first one in order, and those that follow it. -/
theorem rankedTop {x : α} {rest : List α} (is : ranked cmp xs = x::rest) :
    x ∈ xs ∧ (∀ y ∈ xs, (cmp x y).isLE) ∧ (∀ y ∈ rest, y ∈ xs) ∧ ∀ y ∈ xs, y ≠ x → y ∈ rest := by
  have sorted : (ranked cmp xs).Pairwise fun a b => (cmp a b).isLE := rankedSorted xs
  have mem (y : α) : y ∈ xs ↔ y = x ∨ y ∈ rest := by rw [← @memRanked _ cmp,is,List.mem_cons]
  rw [is,List.pairwise_cons] at sorted
  refine ⟨(mem x).mpr (.inl rfl),fun y here => ?_,fun y here => (mem y).mpr (.inr here),fun y here differ => ((mem y).mp here).resolve_left differ⟩
  rcases (mem y).mp here with rfl | later
  · simp [Std.ReflCmp.compare_self]
  · exact sorted.1 y later

theorem leftRight {a b : α} (le : (cmp a b).isLE) (ge : (cmp b a).isLE) : cmp a b = .eq := by
  cases h : cmp a b
  · simp [Std.OrientedCmp.gt_of_lt h] at ge
  · rfl
  · simp [h] at le

variable (cmp xs) in
/-- Of two items of the list that differ exactly one comes before the other. -/
structure StrictTotal : Prop where
  irrefl : ∀ a ∈ xs, cmp a a ≠ .lt
  trans : ∀ a ∈ xs, ∀ b ∈ xs, ∀ c ∈ xs, cmp a b = .lt → cmp b c = .lt → cmp a c = .lt
  total : ∀ a ∈ xs, ∀ b ∈ xs, a ≠ b → cmp a b = .lt ∨ cmp b a = .lt

theorem strictTotal (separate : Separates cmp xs) : StrictTotal cmp xs where
  irrefl a _ less := absurd (Std.ReflCmp.compare_self.symm.trans less) (by decide)
  trans _ _ _ _ _ _ := Std.TransCmp.lt_trans
  total a left b right differ := by
    cases order : cmp a b with
    | lt => exact .inl rfl
    | eq => exact absurd (separate a left b right order) differ
    | gt => exact .inr (Std.OrientedCmp.lt_of_gt order)

variable (cmp xs) in
/-- The item that comes before all others. -/
def Least (x : α) : Prop := x ∈ xs ∧ ∀ y ∈ xs, y ≠ x → cmp x y = .lt

theorem Least.unique {x y : α} (left : Least cmp xs x) (right : Least cmp xs y) : x = y := by
  by_contra differ
  have before := left.2 y right.1 (Ne.symm differ)
  exact absurd (right.2 x left.1 differ) (Std.OrientedCmp.not_lt_of_lt before)

theorem rankedLeast (separate : Separates cmp xs) (some_ : xs ≠ []) : ∃ x, (ranked cmp xs).head? = some x ∧ Least cmp xs x := by
  cases is : ranked cmp xs with
  | nil => exact absurd (List.Perm.nil_eq (is ▸ rankedPerm)).symm some_
  | cons x rest =>
    obtain ⟨mem,least,-⟩ := rankedTop is
    refine ⟨x,rfl,mem,fun y here differ => ?_⟩
    cases order : cmp x y with
    | lt => rfl
    | eq => exact absurd (separate x mem y here order).symm differ
    | gt => exact absurd (least y here) (by simp [order])

theorem rankedCanonical (separate : Separates cmp xs) (same : xs.Perm ys) : ranked cmp xs = ranked cmp ys := by
  refine List.Perm.eq_of_pairwise ?_ (rankedSorted xs) (rankedSorted ys) ((rankedPerm.trans same).trans rankedPerm.symm)
  intro a b left right le ge
  exact separate a (memRanked.mp left) b (same.mem_iff.mpr (memRanked.mp right)) (leftRight le ge)

theorem bestCanonical (separate : Separates cmp xs) (same : xs.Perm ys) : best cmp k xs = best cmp k ys := by
  rw [best,rankedCanonical separate same,best]

theorem bestFirst {kept left : α} (is : kept ∈ best cmp k xs) (mem : left ∈ xs) (out : left ∉ best cmp k xs) :
    (cmp kept left).isLE := by
  have sorted : (ranked cmp xs).Pairwise fun a b => (cmp a b).isLE := rankedSorted xs
  rw [← List.take_append_drop k (ranked cmp xs),List.pairwise_append] at sorted
  have among : left ∈ (ranked cmp xs).take k ++ (ranked cmp xs).drop k :=
    (List.take_append_drop k _).symm ▸ memRanked.mpr mem
  exact sorted.2.2 _ is _ ((List.mem_append.mp among).resolve_left out)

theorem bestSorted (xs : List α) : (best cmp k xs).Pairwise fun a b => (cmp a b).isLE :=
  (rankedSorted xs).sublist (List.take_sublist _ _)

theorem keptOf {x : α} (mem : x ∈ xs) (few : xs.countP (fun other => (cmp other x).isLE) ≤ k) : x ∈ best cmp k xs := by
  by_contra out
  have full : (best cmp k xs).countP (fun other => (cmp other x).isLE) = (best cmp k xs).length :=
    List.countP_eq_length.mpr fun kept is => bestFirst is mem out
  have counts : (ranked cmp xs).countP (fun other => (cmp other x).isLE) =
      (best cmp k xs).countP (fun other => (cmp other x).isLE) + ((ranked cmp xs).drop k).countP (fun other => (cmp other x).isLE) := by
    rw [best,← List.countP_append,List.take_append_drop]
  have dropped : x ∈ (ranked cmp xs).drop k := by
    have among : x ∈ (ranked cmp xs).take k ++ (ranked cmp xs).drop k := (List.take_append_drop k _).symm ▸ memRanked.mpr mem
    exact (List.mem_append.mp among).resolve_left out
  have some_ : 0 < ((ranked cmp xs).drop k).countP (fun other => (cmp other x).isLE) :=
    List.countP_pos_iff.mpr ⟨x,dropped,by simp [Std.ReflCmp.compare_self]⟩
  have longer : k < xs.length := by
    have := List.length_pos_of_mem dropped
    rw [List.length_drop,rankedPerm.length_eq] at this
    omega
  rw [rankedPerm.countP_eq,full,lengthBest,Nat.min_eq_left (Nat.le_of_lt longer)] at counts
  omega

theorem beforeKept {x : α} (kept : x ∈ best cmp k xs) : xs.countP (fun other => cmp other x = .lt) < k := by
  obtain ⟨i,at_⟩ := List.mem_iff_getElem?.mp kept
  rw [best,List.getElem?_take] at at_
  split at at_
  · rename_i early
    have here : (ranked cmp xs).drop i = x::(ranked cmp xs).drop (i + 1) := by
      obtain ⟨bound,is⟩ := List.getElem?_eq_some_iff.mp at_
      rw [List.drop_eq_getElem_cons bound,is]
    have sorted : ((ranked cmp xs).drop i).Pairwise fun a b => (cmp a b).isLE := (rankedSorted xs).sublist (List.drop_sublist _ _)
    rw [here,List.pairwise_cons] at sorted
    have later : ((ranked cmp xs).drop i).countP (fun other => cmp other x = .lt) = 0 := by
      rw [here,List.countP_eq_zero]
      intro other among
      rcases List.mem_cons.mp among with rfl | among
      · simp [Std.ReflCmp.compare_self]
      · have := sorted.1 other among
        simpa using fun less : cmp other x = .lt => by simp [Std.OrientedCmp.gt_of_lt less] at this
    have counts : (ranked cmp xs).countP (fun other => cmp other x = .lt) =
        ((ranked cmp xs).take i).countP (fun other => cmp other x = .lt) + ((ranked cmp xs).drop i).countP (fun other => cmp other x = .lt) := by
      rw [← List.countP_append,List.take_append_drop]
    have most := List.countP_le_length (p := fun other => decide (cmp other x = .lt)) (l := (ranked cmp xs).take i)
    rw [List.length_take] at most
    rw [rankedPerm.countP_eq] at counts
    omega
  · cases at_

variable (cmp k xs) in
/-- `ys` are the first `k` of `xs`, in order. -/
structure FirstOf (ys : List α) : Prop where
  within : ys ⊆ xs
  once : ys.Nodup
  count : ys.length = min k xs.length
  sorted : ys.Pairwise fun a b => (cmp a b).isLE
  first : ∀ y ∈ ys, ∀ x ∈ xs, x ∉ ys → (cmp y x).isLE

theorem bestFirstOf (once : xs.Nodup) : FirstOf cmp xs k (best cmp k xs) where
  within _ mem := memBest mem
  once := bestNodup once
  count := lengthBest
  sorted := bestSorted xs
  first _ kept _ mem out := bestFirst kept mem out

theorem firstAmong {acc : Option α} {first : α} (kept : xs.foldl (keepFirst cmp) acc = some first) :
    (acc = some first ∨ first ∈ xs) ∧ (∀ a, acc = some a → (cmp first a).isLE) ∧ ∀ x ∈ xs, (cmp first x).isLE := by
  induction xs generalizing acc with
  | nil => exact ⟨.inl kept,fun a is => by cases kept.symm.trans is; simp [Std.ReflCmp.compare_self],by simp⟩
  | cons x xs ih =>
    obtain ⟨from_,before,after⟩ := ih kept
    have each : ∃ next, keepFirst cmp acc x = some next ∧ (cmp next x).isLE ∧
        (∀ a, acc = some a → (cmp next a).isLE) ∧ (acc = some next ∨ next = x) := by
      cases acc with
      | none => exact ⟨x,rfl,by simp [Std.ReflCmp.compare_self],by simp,.inr rfl⟩
      | some a =>
        by_cases less : cmp x a = .lt
        · exact ⟨x,if_pos less,by simp [Std.ReflCmp.compare_self],by simp [less],.inr rfl⟩
        · refine ⟨a,if_neg less,?_,by simp [Std.ReflCmp.compare_self],.inl rfl⟩
          have swap : cmp a x = (cmp x a).swap := Std.OrientedCmp.eq_swap
          rw [swap,Ordering.isLE_swap]
          cases is : cmp x a <;> simp_all
    obtain ⟨next,is,leX,leAcc,origin⟩ := each
    have reaches := before next is
    refine ⟨?_,fun a isA => Std.TransCmp.isLE_trans reaches (leAcc a isA),fun y mem => ?_⟩
    · rcases from_ with same | mem
      · rw [is] at same
        cases same
        exact origin.imp_right fun isX => List.mem_cons.mpr (.inl isX)
      · exact .inr (List.mem_cons_of_mem _ mem)
    · rcases List.mem_cons.mp mem with rfl | mem
      · exact Std.TransCmp.isLE_trans reaches leX
      · exact after y mem

end Ranks

theorem filterPieces {κ : Type} {keys : List κ} {f : κ → List α} {p : α → Bool} {key : κ} (once : keys.Nodup) (mem : key ∈ keys)
    (others : ∀ other ∈ keys, other ≠ key → ∀ x ∈ f other, p x = false) : (keys.flatMap f).filter p = (f key).filter p := by
  induction keys with
  | nil => cases mem
  | cons first keys ih =>
    obtain ⟨fresh,rest⟩ := List.nodup_cons.mp once
    rw [List.flatMap_cons,List.filter_append]
    rcases List.mem_cons.mp mem with rfl | mem
    · have none : (keys.flatMap f).filter p = [] := by
        rw [List.filter_eq_nil_iff]
        intro x among
        obtain ⟨other,isKey,inside⟩ := List.mem_flatMap.mp among
        simp [others other (List.mem_cons_of_mem _ isKey) (fun same => fresh (same ▸ isKey)) x inside]
      rw [none,List.append_nil]
    · have none : (f first).filter p = [] := by
        rw [List.filter_eq_nil_iff]
        intro x inside
        simp [others first List.mem_cons_self (fun same => fresh (same ▸ mem)) x inside]
      rw [none,List.nil_append]
      exact ih rest mem fun other isKey => others other (List.mem_cons_of_mem _ isKey)

section Distinct
variable [BEq α] [LawfulBEq α]

theorem memDistinct {x : α} {xs : List α} : x ∈ distinct xs ↔ x ∈ xs := List.mem_eraseDups

theorem distinctNodup (xs : List α) : (distinct xs).Nodup := by
  unfold distinct
  induction n : xs.length using Nat.strong_induction_on generalizing xs with
  | _ n ih =>
    cases xs with
    | nil => simp
    | cons x xs =>
      rw [List.eraseDups_cons,List.nodup_cons,List.mem_eraseDups]
      refine ⟨by simp,ih _ ?_ _ rfl⟩
      have := List.length_filter_le (fun y => !y == x) xs
      simp only [List.length_cons] at n
      omega

theorem distinctPerm {xs ys : List α} (same : ∀ x, x ∈ xs ↔ x ∈ ys) : (distinct xs).Perm (distinct ys) := by
  rw [List.perm_ext_iff_of_nodup (distinctNodup xs) (distinctNodup ys)]
  exact fun x => by rw [memDistinct,memDistinct,same x]

end Distinct
end Ranking
