import Mathlib.Data.List.Perm.Basic
import SpeedySweeties.Library.Table

/-! Rows that are written again: a row written twice, and a list of rows upserted one
after the other. -/
namespace Table
variable {ρ κ : Type} {key : ρ → κ} [DecidableEq κ]

theorem putRow_map {row : ρ} {rows : List ρ} (unique : (rows.map key).Nodup) (present : key row ∈ rows.map key) :
    putRow key row rows = rows.map fun r => if key r = key row then row else r := by
  induction rows with
  | nil => simp at present
  | cons first rest ih =>
    obtain ⟨fresh,later⟩ := List.nodup_cons.mp unique
    rw [putRow,List.map_cons]
    by_cases here : key first = key row
    · have others : rest.map (fun r => if key r = key row then row else r) = rest := by
        refine (List.map_congr_left fun r mem => if_neg fun same => ?_).trans (List.map_id rest)
        exact fresh (here ▸ same ▸ List.mem_map_of_mem mem)
      rw [if_pos here,if_pos here,others]
    · have below : key row ∈ rest.map key := by
        simpa [Ne.symm here] using present
      rw [if_neg here,if_neg here,ih later below]

theorem putRow_putRow {a b : ρ} (same : key a = key b) (rows : List ρ) :
    putRow key b (putRow key a rows) = putRow key b rows := by
  induction rows with
  | nil => simp [putRow,same]
  | cons first rest ih =>
    by_cases here : key first = key a
    · simp [putRow,here,same]
    · have there : key first ≠ key b := same ▸ here
      simp [putRow,here,there,ih]

theorem put_put (t : Table ρ key) {a b : ρ} (same : key a = key b) : (t.put a).put b = t.put b := by
  cases t
  simp [put,putRow_putRow same]

theorem put_same {t : Table ρ key} {row : ρ} (here : t.find (key row) = some row) : t.put row = t := by
  obtain ⟨rows,unique⟩ := t
  have mem := (find_some here).1
  have written : putRow key row rows = rows := by
    rw [putRow_map unique (List.mem_map_of_mem mem)]
    refine (List.map_congr_left fun r own => ?_).trans (List.map_id rows)
    split
    · rename_i same
      have found := find_of_mem (t := ⟨rows,unique⟩) own
      rw [same,here] at found
      exact (Option.some.inj found)
    · rfl
  simp [put,written]

/-! ### Many rows -/

def putRows (key : ρ → κ) (written rows : List ρ) : List ρ := written.foldl (fun rows row => putRow key row rows) rows

variable {written rows : List ρ}

theorem putRows_unique (unique : (rows.map key).Nodup) : ((putRows key written rows).map key).Nodup := by
  unfold putRows
  induction written generalizing rows with
  | nil => exact unique
  | cons row rest ih => exact ih (putRow_unique unique)

theorem mem_putRow {row x : ρ} (unique : (rows.map key).Nodup) :
    x ∈ putRow key row rows ↔ x = row ∨ x ∈ rows ∧ key x ≠ key row := by
  constructor
  · exact fun mem => mem_put (t := ⟨rows,unique⟩) mem
  · have own := find_put_self (⟨rows,unique⟩ : Table ρ key) row
    rintro (rfl | ⟨mem,differ⟩)
    · exact (find_some own).1
    · have kept := find_put_other (t := (⟨rows,unique⟩ : Table ρ key)) differ
      exact (find_some (kept.trans (find_of_mem mem))).1

theorem mem_putRows {x : ρ} (unique : (rows.map key).Nodup) (once : (written.map key).Nodup) :
    x ∈ putRows key written rows ↔ x ∈ written ∨ x ∈ rows ∧ key x ∉ written.map key := by
  unfold putRows
  induction written generalizing rows with
  | nil => simp
  | cons row rest ih =>
    obtain ⟨fresh,later⟩ := List.nodup_cons.mp once
    rw [List.foldl_cons,ih (putRow_unique unique) later,mem_putRow unique,List.map_cons,List.mem_cons,List.mem_cons]
    constructor
    · rintro (mem | ⟨rfl | ⟨mem,differ⟩,absent⟩)
      · exact .inl (.inr mem)
      · exact .inl (.inl rfl)
      · exact .inr ⟨mem,not_or.mpr ⟨differ,absent⟩⟩
    · rintro ((rfl | mem) | ⟨mem,absent⟩)
      · exact .inr ⟨.inl rfl,fresh⟩
      · exact .inl mem
      · obtain ⟨differ,absent⟩ := not_or.mp absent
        exact .inr ⟨.inr ⟨mem,differ⟩,absent⟩

/-- Rows for all keys leave nothing else. -/
theorem putRows_perm (unique : (rows.map key).Nodup) (once : (written.map key).Nodup)
    (all : ∀ r ∈ rows, key r ∈ written.map key) : (putRows key written rows).Perm written := by
  have distinct : (putRows key written rows).Nodup := (putRows_unique unique).of_map
  refine (List.perm_ext_iff_of_nodup distinct once.of_map).mpr fun x => ?_
  rw [mem_putRows unique once]
  refine or_iff_left fun ⟨mem,absent⟩ => absent (all x mem)

/-- Rows for keys that are present are written in place. -/
theorem putRows_map {f : ρ → ρ} (unique : (rows.map key).Nodup)
    (present : ∀ w ∈ written, ∃ r ∈ rows, key r = key w ∧ w = f r) (fixed : ∀ r, key (f r) = key r)
    (idle : ∀ r, f (f r) = f r) :
    putRows key written rows = rows.map fun r => if key r ∈ written.map key then f r else r := by
  unfold putRows
  induction written generalizing rows with
  | nil => simp
  | cons w rest ih =>
    obtain ⟨r,here,same,rfl⟩ := present _ List.mem_cons_self
    have own : key (f r) ∈ rows.map key := same ▸ List.mem_map_of_mem here
    have first : putRow key (f r) rows = rows.map fun x => if key x = key r then f x else x := by
      rw [putRow_map unique own]
      refine List.map_congr_left fun x mem => ?_
      rw [fixed]
      split
      · rename_i is
        have rx := find_of_mem (t := ⟨rows,unique⟩) mem
        rw [is,find_of_mem (t := ⟨rows,unique⟩) here] at rx
        rw [Option.some.inj rx]
      · rfl
    have kept : ∀ x : ρ, key (if key x = key r then f x else x) = key x := fun x => by
      split
      · exact fixed x
      · rfl
    have unique' : ((rows.map fun x => if key x = key r then f x else x).map key).Nodup := by
      rw [List.map_map,show key ∘ (fun x => if key x = key r then f x else x) = key from funext kept]
      exact unique
    rw [List.foldl_cons,first,ih unique',List.map_map]
    · refine List.map_congr_left fun x _ => ?_
      simp only [Function.comp,kept,List.map_cons,List.mem_cons,fixed]
      by_cases is : key x = key r
      · simp [is,idle]
      · simp [is]
    · intro w mem
      obtain ⟨x,there,same,rfl⟩ := present _ (List.mem_cons_of_mem _ mem)
      refine ⟨_,List.mem_map_of_mem there,(kept x).trans same,?_⟩
      split
      · exact (idle x).symm
      · rfl

end Table
