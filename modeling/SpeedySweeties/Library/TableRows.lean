import SpeedySweeties.Library.Table

/-! Tables in which a group has at most one row (`group` is `none` for a row that does not
count), and updates of all rows as sequences of single writes. -/
namespace Table
variable {ρ κ γ : Type} {key : ρ → κ}

def Sole (group : ρ → Option γ) (t : Table ρ key) : Prop :=
  ∀ a ∈ t.rows, ∀ b ∈ t.rows, ∀ g, group a = some g → group b = some g → key a = key b

namespace Sole
variable {group : ρ → Option γ} {t : Table ρ key}

theorem ofEmpty (empty : t.rows = []) : t.Sole group := by
  intro a mem
  simp [empty] at mem

theorem subset {u : Table ρ key} (h : t.Sole group) (sub : u.rows ⊆ t.rows) : u.Sole group :=
  fun a ha b hb => h a (sub ha) b (sub hb)

theorem update {f : ρ → ρ} {keeps : ∀ row, key (f row) = key row} (h : t.Sole group)
    (leaves : ∀ a g, group (f a) = some g → group a = some g) : (t.update f keeps).Sole group := by
  intro a ha b hb g ga gb
  obtain ⟨a,here,rfl⟩ := List.mem_map.mp ha
  obtain ⟨b,there,rfl⟩ := List.mem_map.mp hb
  rw [keeps,keeps]
  exact h a here b there g (leaves a g ga) (leaves b g gb)

variable [DecidableEq κ]

/-- The row may enter a group whose only other row it replaces. -/
theorem enter {d : ρ} (h : t.Sole group)
    (only : ∀ b ∈ t.rows, ∀ g, group b = some g → group d = some g → key b = key d) : (t.put d).Sole group := by
  intro a ha b hb g ga gb
  rcases mem_put ha with rfl | ⟨here,_⟩
  · rcases mem_put hb with rfl | ⟨there,_⟩
    · rfl
    · exact (only b there g gb ga).symm
  · rcases mem_put hb with rfl | ⟨there,_⟩
    · exact only a here g ga gb
    · exact h a here b there g ga gb

theorem put {c d : ρ} (h : t.Sole group) (row : t.find (key d) = some c)
    (leaves : ∀ g, group d = some g → group c = some g) : (t.put d).Sole group := by
  obtain ⟨mem,same⟩ := find_some row
  exact h.enter fun b there g gb gd => (h b there c mem g gb (leaves g gd)).trans same

theorem stayOut {d : ρ} (h : t.Sole group) (out : group d = none) : (t.put d).Sole group :=
  h.enter fun _ _ g _ gd => by simp [out] at gd

end Sole

/-! ### Row by row -/

theorem eq_of_rows {t u : Table ρ key} (same : t.rows = u.rows) : t = u := by
  cases t
  cases u
  cases same
  rfl

variable [DecidableEq κ]

theorem putRow_middle {before rest : List ρ} {old row : ρ} (own : key old = key row)
    (others : ∀ r ∈ before, key r ≠ key row) :
    putRow key row (before ++ old::rest) = before ++ row::rest := by
  induction before with
  | nil => simp [putRow,own]
  | cons first before ih =>
    have differ := others first List.mem_cons_self
    simp only [List.cons_append,putRow,if_neg differ]
    rw [ih fun r mem => others r (List.mem_cons_of_mem _ mem)]

theorem put_fresh {t : Table ρ key} {row : ρ} (fresh : t.find (key row) = none) : (t.put row).rows = t.rows ++ [row] := by
  have absent := find_none.mp fresh
  simp only [put]
  generalize t.rows = rows at absent ⊢
  induction rows with
  | nil => rfl
  | cons first rest ih =>
    rw [putRow,if_neg (absent first List.mem_cons_self),ih fun r mem => absent r (List.mem_cons_of_mem _ mem)]
    rfl

section
variable {ω : Type} {f : ρ → ρ} {write : ρ → ω} {W : Table ρ key → Table ρ key → List ω → Prop}

private theorem fromRow (keeps : ∀ row, key (f row) = key row) (done : ∀ u, W u u [])
    (next : ∀ u v c rest, u.find (key (f c)) = some c → W (u.put (f c)) v rest → W u v (write c::rest))
    {t current : Table ρ key} (before rest : List ρ) (all : t.rows = before ++ rest)
    (now : current.rows = before.map f ++ rest) : W current (t.update f keeps) (rest.map write) := by
  induction rest generalizing before current with
  | nil =>
    have finished : current = t.update f keeps := eq_of_rows (by simp [now,update,all])
    rw [finished]
    exact done _
  | cons c rest ih =>
    have unique := t.unique
    rw [all,List.map_append,List.map_cons] at unique
    have others : ∀ r ∈ before.map f, key r ≠ key (f c) := by
      intro r mem
      obtain ⟨b,here,rfl⟩ := List.mem_map.mp mem
      rw [keeps,keeps]
      exact (List.nodup_append.mp unique).2.2 _ (List.mem_map_of_mem here) _ List.mem_cons_self
    have present : current.find (key (f c)) = some c := by
      rw [keeps]
      exact find_of_mem (by simp [now])
    refine next _ _ _ _ present (ih (before ++ [c]) (by simp [all]) ?_)
    simp only [put,now,putRow_middle (keeps c).symm others]
    simp

/-- What single writes of present rows do one after the other, an update does. -/
theorem rowByRow {keeps : ∀ row, key (f row) = key row} (done : ∀ u, W u u [])
    (next : ∀ u v c rest, u.find (key (f c)) = some c → W (u.put (f c)) v rest → W u v (write c::rest))
    (t : Table ρ key) : W t (t.update f keeps) (t.rows.map write) :=
  fromRow keeps done next [] t.rows rfl rfl

end
end Table
