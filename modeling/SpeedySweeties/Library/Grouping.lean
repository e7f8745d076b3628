import Mathlib.Algebra.BigOperators.Group.List.Lemmas
import Mathlib.Algebra.GroupWithZero.Nat
import Mathlib.Data.List.Find
import Mathlib.Data.List.MinMax
import Mathlib.Data.Int.Order.Basic
import SpeedySweeties.Library.Table

/-! Loops that sort items into the rows of a table. One kind changes the row that an item names and
passes over items without a row, the other kind adds the row it needs. Either way a row ends as the
loop over its own items, so what is counted row by row is what is counted at once. -/

namespace Table
variable {ρ κ α : Type} {key : ρ → κ}

theorem countPEither {p q : α → Bool} (items : List α) (apart : ∀ a, ¬(p a = true ∧ q a = true)) :
    items.countP (fun a => p a || q a) = items.countP p + items.countP q := by
  induction items with
  | nil => rfl
  | cons a items ih =>
    have one := apart a
    simp only [List.countP_cons,ih]
    cases hp : p a <;> cases hq : q a <;> simp [hp,hq] at one ⊢ <;> omega

theorem countPWithout {p q : α → Bool} {items : List α} :
    items.countP (fun a => p a && !q a) = items.countP p ↔ ∀ a ∈ items, p a = true → q a = false := by
  have parts := countPEither (p := fun a => p a && q a) (q := fun a => p a && !q a) items fun a => by cases q a <;> simp
  have both : items.countP (fun a => p a && q a || p a && !q a) = items.countP p :=
    List.countP_congr fun a _ => by cases p a <;> cases q a <;> simp
  have none_ : items.countP (fun a => p a && q a) = 0 ↔ ∀ a ∈ items, p a = true → q a = false := by
    simp [List.countP_eq_zero]
  rw [← none_,← both,parts]
  omega

theorem sumIndicator (p : α → Bool) (items : List α) : (items.map fun a => if p a then 1 else 0).sum = items.countP p := by
  induction items with
  | nil => rfl
  | cons a items ih =>
    rw [List.map_cons,List.sum_cons,List.countP_cons,ih,Nat.add_comm]

/-- Pairs of related items, counted from either side. -/
theorem sumCountPComm {β : Type} (r : α → β → Bool) (xs : List α) (ys : List β) :
    (xs.map fun x => ys.countP (r x)).sum = (ys.map fun y => xs.countP fun x => r x y).sum := by
  induction xs with
  | nil => simp
  | cons x xs ih =>
    rw [List.map_cons,List.sum_cons,ih]
    clear ih
    induction ys with
    | nil => rfl
    | cons y ys ih =>
      simp only [List.countP_cons,List.map_cons,List.sum_cons] at ih ⊢
      omega

theorem sumCountP [DecidableEq κ] {keys : List κ} (once : keys.Nodup) (k : α → Option κ) (items : List α) :
    (keys.map fun name => items.countP fun a => k a = some name).sum = items.countP fun a => ∃ name ∈ keys, k a = some name := by
  induction keys with
  | nil => simp
  | cons first rest ih =>
    obtain ⟨fresh,later⟩ := List.nodup_cons.mp once
    rw [List.map_cons,List.sum_cons,ih later,← countPEither]
    · exact List.countP_congr fun a _ => by simp
    · intro a both
      obtain ⟨name,mem,named⟩ := of_decide_eq_true both.2
      exact fresh (Option.some.inj ((of_decide_eq_true both.1).symm.trans named) ▸ mem)

variable [DecidableEq κ]

def ofRows (key : ρ → κ) (rows : List ρ) : Table ρ key := rows.foldl put empty

private theorem putRow_new {row : ρ} {rows : List ρ} (fresh : key row ∉ rows.map key) : putRow key row rows = rows ++ [row] := by
  induction rows with
  | nil => rfl
  | cons first rest ih =>
    obtain ⟨differ,later⟩ := not_or.mp (List.mem_cons.not.mp fresh)
    rw [putRow,if_neg (Ne.symm differ),ih later,List.cons_append]

private theorem rows_foldlPut (rows : List ρ) (t : Table ρ key) (once : ((t.rows ++ rows).map key).Nodup) :
    (rows.foldl put t).rows = t.rows ++ rows := by
  induction rows generalizing t with
  | nil => simp
  | cons row rows ih =>
    have fresh : key row ∉ t.rows.map key := by
      rw [List.map_append,List.map_cons] at once
      exact fun mem => List.nodup_append.mp once |>.2.2 _ mem _ List.mem_cons_self rfl
    have appended : (t.put row).rows = t.rows ++ [row] := putRow_new fresh
    rw [List.foldl_cons,ih _ (by rwa [appended,List.append_assoc]),appended,List.append_assoc]
    rfl

theorem rows_ofRows {rows : List ρ} (once : (rows.map key).Nodup) : (ofRows key rows).rows = rows :=
  (rows_foldlPut rows empty once).trans (List.nil_append rows)

/-- Change the row of a key, if there is one. -/
def modify (t : Table ρ key) (k : κ) (f : ρ → ρ) (keeps : ∀ row, key (f row) = key row) : Table ρ key :=
  t.update (fun row => if key row = k then f row else row) fun row => by
    split
    · exact keeps row
    · rfl

def modifyEach (t : Table ρ key) (items : List α) (k : α → Option κ) (f : α → ρ → ρ) (keeps : ∀ a row, key (f a row) = key row) : Table ρ key :=
  items.foldl (fun t a => match k a with
    | none => t
    | some name => t.modify name (f a) (keeps a)) t

theorem rows_modifyEach (t : Table ρ key) (items : List α) (k : α → Option κ) (f : α → ρ → ρ) (keeps : ∀ a row, key (f a row) = key row) :
    (t.modifyEach items k f keeps).rows =
      t.rows.map fun row => (items.filter fun a => k a = some (key row)).foldl (fun row a => f a row) row := by
  induction items generalizing t with
  | nil => simp [modifyEach]
  | cons a items ih =>
    have rest := ih (match k a with
      | none => t
      | some name => t.modify name (f a) (keeps a))
    rw [show t.modifyEach (a::items) k f keeps = _ from rfl] at *
    refine rest.trans ?_
    cases named : k a with
    | none => simp [named]
    | some name =>
      simp only [modify,update,List.map_map]
      refine List.map_congr_left fun row _ => ?_
      by_cases here : key row = name
      · simp [here,named,keeps]
      · simp [here,named,Ne.symm here]

/-- The items by their keys, as a loop collects them. -/
def groupBy (k : α → κ) (items : List α) : Table (κ × List α) Prod.fst :=
  items.foldl (fun t a => t.put (k a,(t.find (k a)).elim [] (·.2) ++ [a])) empty

private theorem sumPutRow (row : ρ) (rows : List ρ) (μ : ρ → Nat) :
    ((putRow key row rows).map μ).sum + ((rows.find? fun other => key other = key row).elim 0 μ) = (rows.map μ).sum + μ row := by
  induction rows with
  | nil => simp [putRow]
  | cons first rest ih =>
    rw [putRow]
    by_cases here : key first = key row
    · simp [here]
      omega
    · simp [here]
      omega

theorem sum_put (t : Table ρ key) (row : ρ) (μ : ρ → Nat) :
    ((t.put row).rows.map μ).sum + (t.find (key row)).elim 0 μ = (t.rows.map μ).sum + μ row := sumPutRow row t.rows μ

theorem sum_groupBy (k : α → κ) (items : List α) : ((groupBy k items).rows.map (·.2.length)).sum = items.length := by
  suffices steps : ∀ t : Table (κ × List α) Prod.fst,
      ((items.foldl (fun t a => t.put (k a,(t.find (k a)).elim [] (·.2) ++ [a])) t).rows.map (·.2.length)).sum =
        (t.rows.map (·.2.length)).sum + items.length by
    exact (steps empty).trans (Nat.zero_add _)
  intro t
  induction items generalizing t with
  | nil => rfl
  | cons a items ih =>
    have put := sum_put t (k a,(t.find (k a)).elim [] (·.2) ++ [a]) (·.2.length)
    rw [List.foldl_cons,ih]
    cases found : t.find (k a) <;> simp [found] at put ⊢ <;> omega

/-! ### The first of the least -/

/-- The first item that no other is less than. -/
def firstLeast (f : α → Int) (items : List α) : Option α := items.find? fun a => items.all fun b => f a ≤ f b

theorem firstLeast_none {f : α → Int} {items : List α} (none_ : firstLeast f items = none) : items = [] := by
  by_contra some_
  obtain ⟨least,is⟩ := Option.ne_none_iff_exists'.mp (mt List.argmin_eq_none.mp some_ : items.argmin f ≠ none)
  refine List.find?_eq_none.mp none_ least (List.argmin_mem is) ?_
  exact List.all_eq_true.mpr fun b mem => decide_eq_true (List.le_of_mem_argmin mem is)

theorem firstLeast_concat (f : α → Int) (items : List α) (a : α) :
    firstLeast f (items ++ [a]) = some (match firstLeast f items with
      | none => a
      | some least => if f a < f least then a else least) := by
  cases found : firstLeast f items with
  | none =>
    obtain rfl := firstLeast_none found
    simp [firstLeast]
  | some least =>
    have passes := List.find?_some (show items.find? (fun a => items.all fun b => f a ≤ f b) = some least from found)
    have least_ : ∀ b ∈ items, f least ≤ f b := fun b mem => of_decide_eq_true (List.all_eq_true.mp passes b mem)
    dsimp only
    rw [firstLeast,List.find?_append]
    by_cases less : f a < f least
    · have earlier : items.find? (fun b => (items ++ [a]).all fun c => f b ≤ f c) = none := by
        rw [List.find?_eq_none]
        intro b mem all
        have here := of_decide_eq_true (List.all_eq_true.mp all a (by simp))
        exact absurd (least_ b mem) (not_le.mpr (lt_of_le_of_lt here less))
      have this : ((items ++ [a]).all fun c => f a ≤ f c) = true := by
        simp only [List.all_append,List.all_cons,List.all_nil,le_refl,decide_true,Bool.and_true,List.all_eq_true,decide_eq_true_eq]
        exact fun b mem => le_trans (le_of_lt less) (least_ b mem)
      rw [earlier,if_pos less,Option.none_or,List.find?_singleton,if_pos this]
    · have same : items.find? (fun b => (items ++ [a]).all fun c => f b ≤ f c) = firstLeast f items := by
        refine List.find?_congr fun b mem => ?_
        rw [List.all_append]
        by_cases all : (items.all fun c => f b ≤ f c) = true
        · have here := of_decide_eq_true (List.all_eq_true.mp all least (List.mem_of_find?_eq_some found))
          simp [all,le_trans here (not_lt.mp less)]
        · simp [all]
      rw [same,found,if_neg less,Option.some_or]

end Table
