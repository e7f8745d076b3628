import Mathlib.Data.List.Nodup

/-! Tables with a primary key. A table carries the uniqueness of its keys, so a
duplicate row cannot be built; rows keep the order of their first insertion. -/

structure Table (ρ : Type) {κ : Type} (key : ρ → κ) where
  rows : List ρ
  unique : (rows.map key).Nodup

namespace Table
variable {ρ κ : Type} {key : ρ → κ}

def empty : Table ρ key := ⟨[],List.nodup_nil⟩

theorem countP_le {t u : Table ρ key} {p q : ρ → Bool}
    (h : ∀ row ∈ t.rows, p row = true → ∃ other ∈ u.rows, key other = key row ∧ q other = true) :
    t.rows.countP p ≤ u.rows.countP q := by
  have unique : ((t.rows.filter p).map key).Nodup := t.unique.sublist (List.filter_sublist.map key)
  have subset : (t.rows.filter p).map key ⊆ (u.rows.filter q).map key := by
    intro k mem
    obtain ⟨row,counted,rfl⟩ := List.mem_map.mp mem
    obtain ⟨here,holds⟩ := List.mem_filter.mp counted
    obtain ⟨other,there,same,holds⟩ := h row here holds
    exact List.mem_map.mpr ⟨other,List.mem_filter.mpr ⟨there,holds⟩,same⟩
  have shorter := unique.length_le_of_subset subset
  simpa only [List.length_map,← List.countP_eq_length_filter] using shorter

variable [DecidableEq κ]

def find (t : Table ρ key) (k : κ) : Option ρ := t.rows.find? fun row => key row = k

def putRow (key : ρ → κ) (row : ρ) : List ρ → List ρ
  | [] => [row]
  | first::rest => if key first = key row then row::rest else first::putRow key row rest

theorem mem_putRow_key {row : ρ} {rows : List ρ} {k : κ} :
    k ∈ (putRow key row rows).map key ↔ k = key row ∨ k ∈ rows.map key := by
  induction rows with
  | nil => simp [putRow]
  | cons first rest ih =>
    simp only [putRow]
    split
    · rename_i same
      simp [same]
    · simp only [List.map_cons,List.mem_cons,ih]
      tauto

theorem putRow_unique {row : ρ} {rows : List ρ} (h : (rows.map key).Nodup) :
    ((putRow key row rows).map key).Nodup := by
  induction rows with
  | nil => simp [putRow]
  | cons first rest ih =>
    obtain ⟨fresh,later⟩ := List.nodup_cons.mp h
    simp only [putRow]
    split
    · rename_i same
      exact List.nodup_cons.mpr ⟨same ▸ fresh,later⟩
    · rename_i differ
      refine List.nodup_cons.mpr ⟨?_,ih later⟩
      rw [mem_putRow_key]
      exact not_or.mpr ⟨differ,fresh⟩

/-- Insert the row, or replace the one with its key. -/
def put (t : Table ρ key) (row : ρ) : Table ρ key := ⟨putRow key row t.rows,putRow_unique t.unique⟩

def delete (t : Table ρ key) (k : κ) : Table ρ key where
  rows := t.rows.filter fun row => key row ≠ k
  unique := t.unique.sublist (List.filter_sublist.map key)

/-- Rewrite all rows in place. -/
def update (t : Table ρ key) (f : ρ → ρ) (keeps : ∀ row, key (f row) = key row) : Table ρ key where
  rows := t.rows.map f
  unique := by
    rw [List.map_map,show key ∘ f = key from funext keeps]
    exact t.unique

private theorem countRows_except {rows : List ρ} (unique : (rows.map key).Nodup) (p : ρ → Bool) (k : κ) :
    rows.countP p ≤ rows.countP (fun row => key row ≠ k && p row) + 1 := by
  induction rows with
  | nil => simp
  | cons first rest ih =>
    obtain ⟨fresh,later⟩ := List.nodup_cons.mp unique
    simp only [List.countP_cons]
    by_cases here : key first = k
    · have others : rest.countP (fun row => key row ≠ k && p row) = rest.countP p := by
        refine List.countP_congr fun row mem => ?_
        have differ : key row ≠ k := fun same => fresh (here ▸ same ▸ List.mem_map_of_mem mem)
        simp [differ]
      rw [others]
      split <;> omega
    · have before := ih later
      rw [decide_eq_true here,Bool.true_and]
      omega

theorem countP_except (t : Table ρ key) (p : ρ → Bool) (k : κ) :
    t.rows.countP p ≤ t.rows.countP (fun row => key row ≠ k && p row) + 1 := countRows_except t.unique p k

@[simp] theorem find_empty (k : κ) : (empty : Table ρ key).find k = none := rfl

theorem find_some {t : Table ρ key} {k : κ} {row : ρ} (h : t.find k = some row) :
    row ∈ t.rows ∧ key row = k :=
  ⟨List.mem_of_find?_eq_some h,by simpa using List.find?_some h⟩

theorem find_key {t : Table ρ key} {k : κ} {row : ρ} (h : t.find k = some row) : key row = k :=
  (find_some h).2

theorem find_self {t : Table ρ key} {k : κ} {row : ρ} (h : t.find k = some row) :
    t.find (key row) = some row := (find_key h).symm ▸ h

theorem find_none {t : Table ρ key} {k : κ} : t.find k = none ↔ ∀ row ∈ t.rows, key row ≠ k := by
  simp [find]

private theorem findRow_of_mem {rows : List ρ} (unique : (rows.map key).Nodup) {row : ρ}
    (mem : row ∈ rows) : rows.find? (fun r => key r = key row) = some row := by
  induction rows with
  | nil => simp at mem
  | cons first rest ih =>
    obtain ⟨fresh,later⟩ := List.nodup_cons.mp unique
    rcases List.mem_cons.mp mem with rfl | mem
    · simp
    · have differ : key first ≠ key row := fun same =>
        fresh (same ▸ List.mem_map_of_mem mem)
      simp [differ,ih later mem]

theorem find_of_mem {t : Table ρ key} {row : ρ} (mem : row ∈ t.rows) : t.find (key row) = some row :=
  findRow_of_mem t.unique mem

theorem mem_iff_find {t : Table ρ key} {row : ρ} : row ∈ t.rows ↔ t.find (key row) = some row :=
  ⟨find_of_mem,fun h => (find_some h).1⟩

theorem find_perm {t u : Table ρ key} (same : t.rows.Perm u.rows) (k : κ) : t.find k = u.find k := by
  have found : ∀ v : Table ρ key, ∀ row, v.find k = some row ↔ row ∈ v.rows ∧ key row = k := fun v row =>
    ⟨find_some,fun ⟨mem,is⟩ => is ▸ find_of_mem mem⟩
  refine Option.ext fun row => ?_
  rw [found,found,same.mem_iff]

private theorem findRow_put (rows : List ρ) (row : ρ) (k : κ) :
    (putRow key row rows).find? (fun r => key r = k) =
      if key row = k then some row else rows.find? fun r => key r = k := by
  induction rows with
  | nil => by_cases same : key row = k <;> simp [putRow,same]
  | cons first rest ih =>
    simp only [putRow]
    by_cases same : key first = key row
    · rw [if_pos same]
      by_cases here : key row = k
      · simp [here]
      · simp [here,same]
    · rw [if_neg same]
      by_cases first_here : key first = k
      · have differ : key row ≠ k := fun h => same (first_here.trans h.symm)
        simp [first_here,differ]
      · simp [first_here,ih]

theorem find_put (t : Table ρ key) (row : ρ) (k : κ) :
    (t.put row).find k = if key row = k then some row else t.find k :=
  findRow_put t.rows row k

@[simp] theorem find_put_self (t : Table ρ key) (row : ρ) : (t.put row).find (key row) = some row := by
  simp [find_put]

theorem find_put_other {t : Table ρ key} {row : ρ} {k : κ} (h : k ≠ key row) :
    (t.put row).find k = t.find k := by
  simp [find_put,h.symm]

theorem mem_put {t : Table ρ key} {row x : ρ} (mem : x ∈ (t.put row).rows) :
    x = row ∨ x ∈ t.rows ∧ key x ≠ key row := by
  rw [mem_iff_find,find_put] at mem
  split at mem
  · exact .inl (Option.some.inj mem).symm
  · rename_i differ
    exact .inr ⟨mem_iff_find.mpr mem,fun same => differ same.symm⟩

theorem find_delete (t : Table ρ key) (removed k : κ) :
    (t.delete removed).find k = if k = removed then none else t.find k := by
  simp only [find,delete,List.find?_filter]
  by_cases same : k = removed
  · subst same
    simp
  · rw [if_neg same]
    congr 1
    funext row
    by_cases here : key row = k <;> simp [here,same]

theorem find_update (t : Table ρ key) (f : ρ → ρ) (keeps : ∀ row, key (f row) = key row) (k : κ) :
    (t.update f keeps).find k = (t.find k).map f := by
  simp only [find,update,List.find?_map]
  congr 2
  funext row
  simp [keeps]

/-! ### Two tables with the same keys -/

def Related (R : ρ → ρ → Prop) (t u : Table ρ key) : Prop := ∀ k, Option.Rel R (t.find k) (u.find k)

namespace Related
variable {R S : ρ → ρ → Prop} {t u : Table ρ key}

theorem found (h : Related R t u) {k : κ} {x : ρ} (row : t.find k = some x) :
    ∃ y, u.find k = some y ∧ R x y := by
  have related := h k
  rw [row] at related
  cases other : u.find k with
  | none =>
    rw [other] at related
    cases related
  | some y =>
    rw [other] at related
    cases related with
    | some rel => exact ⟨y,rfl,rel⟩

theorem flip (h : Related R t u) : Related (fun x y => R y x) u t := by
  intro k
  have related := h k
  generalize t.find k = x at related
  generalize u.find k = y at related
  cases related with
  | none => exact .none
  | some rel => exact .some rel

theorem mono (h : Related R t u) (weaker : ∀ k x y, t.find k = some x → u.find k = some y → R x y → S x y) :
    Related S t u := by
  intro k
  have related := h k
  have weaker := weaker k
  generalize t.find k = x at related weaker
  generalize u.find k = y at related weaker
  cases related with
  | none => exact .none
  | some rel => exact .some (weaker _ _ rfl rfl rel)

theorem self (same : ∀ x ∈ t.rows, R x x) : Related R t t := by
  intro k
  cases row : t.find k with
  | none => exact .none
  | some x => exact .some (same x (find_some row).1)

theorem update {f g : ρ → ρ} (keepsF : ∀ row, key (f row) = key row) (keepsG : ∀ row, key (g row) = key row)
    (h : Related (fun x y => S (f x) (g y)) t u) : Related S (t.update f keepsF) (u.update g keepsG) := by
  intro k
  have related := h k
  rw [find_update,find_update]
  generalize t.find k = x at related
  generalize u.find k = y at related
  cases related with
  | none => exact .none
  | some rel => exact .some rel

theorem put {x row : ρ} (h : Related R t u) (here : t.find (key row) = some x) (rel : S x row)
    (others : ∀ k x y, k ≠ key row → t.find k = some x → R x y → S x y) : Related S t (u.put row) := by
  intro k
  have related := h k
  rw [find_put]
  split
  · rename_i same
    subst same
    rw [here]
    exact .some rel
  · rename_i differ
    have others := fun x y => others k x y fun same => differ same.symm
    generalize t.find k = x at related others
    generalize u.find k = y at related
    cases related with
    | none => exact .none
    | some rel => exact .some (others _ _ rfl rel)

end Related

end Table
