import Mathlib.Data.List.Sort

/-! An object store: numbered keys, listed in their order and page by page, and a put
that creates an object only where the key has none. Nothing is replaced or deleted, so
a store only grows. -/

structure Bucket (β : Type) where
  rows : List (Nat × β)
  ordered : rows.Pairwise fun a b => a.1 < b.1

structure Page where
  keys : List Nat
  truncated : Bool
  next : Option Nat
  deriving DecidableEq, Repr

namespace Bucket
variable {β : Type} {B C : Bucket β} {k : Nat} {v : β}

def empty : Bucket β := ⟨[],.nil⟩
def keys (B : Bucket β) : List Nat := B.rows.map (·.1)
def objects (B : Bucket β) : List β := B.rows.map (·.2)
def find (B : Bucket β) (k : Nat) : Option β := (B.rows.find? fun row => row.1 = k).map (·.2)

/-- The object under the key is `v` afterwards; used where the key has none. -/
def put (B : Bucket β) (k : Nat) (v : β) : Bucket β where
  rows := (B.rows.filter fun row => row.1 < k) ++ (k,v)::B.rows.filter fun row => k < row.1
  ordered := by
    refine List.pairwise_append.mpr ⟨B.ordered.filter _,List.pairwise_cons.mpr ⟨?_,B.ordered.filter _⟩,?_⟩
    · intro row listed
      simpa using (List.mem_filter.mp listed).2
    · intro row before other after
      have low : row.1 < k := by simpa using (List.mem_filter.mp before).2
      rcases List.mem_cons.mp after with rfl | after
      · exact low
      · have high : k < other.1 := by simpa using (List.mem_filter.mp after).2
        omega

def keysAfter (B : Bucket β) (k : Nat) : List Nat := B.keys.filter (k < ·)

/-- What a listing of at most `size` keys answers; the token is the last key listed. -/
def page (B : Bucket β) (k size : Nat) : Page where
  keys := (B.keysAfter k).take size
  truncated := size < (B.keysAfter k).length
  next := if size < (B.keysAfter k).length then ((B.keysAfter k).take size).getLast? else none

instance : LE (Bucket β) := ⟨fun B C => B.rows ⊆ C.rows⟩

instance : Preorder (Bucket β) where
  le_refl B := List.Subset.refl B.rows
  le_trans _ _ _ := List.Subset.trans

theorem mem_rows : (k,v) ∈ B.rows ↔ B.find k = some v := by
  have unique : ∀ row ∈ B.rows, ∀ other ∈ B.rows, row.1 = other.1 → row = other := fun row listed other also same =>
    List.inj_on_of_nodup_map
      (List.Pairwise.imp (fun low => ne_of_lt low) (List.pairwise_map.mpr B.ordered)) listed also same
  constructor
  · intro listed
    have stored : (B.rows.find? fun row => row.1 = k).isSome :=
      List.find?_isSome.mpr ⟨(k,v),listed,by simp⟩
    obtain ⟨row,found⟩ := Option.isSome_iff_exists.mp stored
    have key : row.1 = k := by simpa using List.find?_some found
    have same := unique row (List.mem_of_find?_eq_some found) _ listed key
    rw [find,found,same]
    rfl
  · intro found
    obtain ⟨row,hit,rfl⟩ := Option.map_eq_some_iff.mp found
    have key : row.1 = k := by simpa using List.find?_some hit
    exact key ▸ List.mem_of_find?_eq_some hit

theorem mem_keys : k ∈ B.keys ↔ ∃ v, B.find k = some v := by
  simp [keys,← mem_rows]

theorem find_none : B.find k = none ↔ k ∉ B.keys := by
  rw [mem_keys]
  cases B.find k <;> simp

theorem find_mono (grown : B ≤ C) (found : B.find k = some v) : C.find k = some v :=
  mem_rows.mp (grown (mem_rows.mpr found))

theorem length_mono (grown : B ≤ C) : B.rows.length ≤ C.rows.length := by
  have distinct : B.rows.Nodup := B.ordered.imp fun low same => absurd (same ▸ low) (lt_irrefl _)
  exact (List.subperm_of_subset distinct grown).length_le

theorem mem_put {row : Nat × β} : row ∈ (B.put k v).rows ↔ row = (k,v) ∨ row ∈ B.rows ∧ row.1 ≠ k := by
  simp only [put,List.mem_append,List.mem_cons,List.mem_filter,decide_eq_true_eq]
  constructor
  · rintro (⟨listed,low⟩ | rfl | ⟨listed,high⟩)
    · exact .inr ⟨listed,by omega⟩
    · exact .inl rfl
    · exact .inr ⟨listed,by omega⟩
  · rintro (rfl | ⟨listed,other⟩)
    · exact .inr (.inl rfl)
    · rcases Nat.lt_or_gt_of_ne other with low | high
      · exact .inl ⟨listed,low⟩
      · exact .inr (.inr ⟨listed,high⟩)

@[simp] theorem find_put_self : (B.put k v).find k = some v := mem_rows.mp (mem_put.mpr (.inl rfl))

theorem find_put_ne {other : Nat} (ne : other ≠ k) : (B.put k v).find other = B.find other := by
  refine Option.ext fun w => ?_
  rw [← mem_rows,← mem_rows,mem_put]
  simp [ne]

theorem le_put (absent : B.find k = none) : B ≤ B.put k v := by
  intro row listed
  refine mem_put.mpr (.inr ⟨listed,fun same => ?_⟩)
  exact absurd (List.mem_map_of_mem listed) (same ▸ find_none.mp absent)

/-! ### Logs -/

/-- The keys in use are the first ones. -/
def Contiguous (B : Bucket β) : Prop := B.keys = List.range' 1 B.rows.length

instance (B : Bucket β) : Decidable B.Contiguous := inferInstanceAs (Decidable (_ = _))

theorem emptyContiguous : (empty : Bucket β).Contiguous := rfl

theorem Contiguous.mem (h : B.Contiguous) : k ∈ B.keys ↔ 1 ≤ k ∧ k ≤ B.rows.length := by
  rw [h,List.mem_range'_1]
  omega

theorem Contiguous.keysAfter (h : B.Contiguous) (k : Nat) :
    B.keysAfter k = List.range' (k + 1) (B.rows.length - k) := by
  have filtered (n : Nat) : (List.range' 1 n).filter (k < ·) = List.range' (k + 1) (n - k) := by
    induction n with
    | zero => simp
    | succ n ih =>
      rw [List.range'_concat,List.filter_append,ih,List.filter_cons,List.filter_nil]
      by_cases reached : k ≤ n
      · rw [if_pos (by simpa using by omega),show n + 1 - k = n - k + 1 by omega,List.range'_concat]
        congr 2
        omega
      · rw [if_neg (by simpa using by omega),show n + 1 - k = 0 by omega,show n - k = 0 by omega]
        rfl
  rw [Bucket.keysAfter,h,filtered]

theorem Contiguous.next (h : B.Contiguous) (absent : B.find k = none) (follows : k = 1 ∨ 1 < k ∧ k - 1 ∈ B.keys) :
    k = B.rows.length + 1 := by
  have outside := mt h.mem.mpr (find_none.mp absent)
  rcases follows with rfl | ⟨later,before⟩
  · omega
  · have := h.mem.mp before
    omega

theorem put_last (last : ∀ row ∈ B.rows, row.1 < k) : (B.put k v).rows = B.rows ++ [(k,v)] := by
  have low : (B.rows.filter fun row => row.1 < k) = B.rows :=
    List.filter_eq_self.mpr fun row listed => decide_eq_true (last row listed)
  have high : (B.rows.filter fun row => k < row.1) = [] :=
    List.filter_eq_nil_iff.mpr fun row listed => by have := last row listed; simp; omega
  change (B.rows.filter fun row => row.1 < k) ++ (k,v)::(B.rows.filter fun row => k < row.1) = _
  rw [low,high]

theorem Contiguous.put_rows (h : B.Contiguous) (absent : B.find k = none)
    (follows : k = 1 ∨ 1 < k ∧ k - 1 ∈ B.keys) : (B.put k v).rows = B.rows ++ [(k,v)] := by
  refine put_last fun row listed => ?_
  have := h.mem.mp (List.mem_map_of_mem listed : row.1 ∈ B.keys)
  rw [h.next absent follows]
  omega

theorem Contiguous.put (h : B.Contiguous) (absent : B.find k = none) (follows : k = 1 ∨ 1 < k ∧ k - 1 ∈ B.keys) :
    (B.put k v).Contiguous := by
  have here : B.rows.map (·.1) = List.range' 1 B.rows.length := h
  rw [Contiguous,keys,h.put_rows absent follows,List.map_append,here,List.length_append,List.length_singleton,
    List.range'_concat]
  simp [h.next absent follows,Nat.add_comm]

theorem Contiguous.object (h : B.Contiguous) (n : Nat) : B.objects[n]? = B.find (n + 1) := by
  refine Option.ext fun v => ?_
  rw [← mem_rows]
  have keyed (i : Nat) (bound : i < B.rows.length) : B.rows[i].1 = i + 1 := by
    have inKeys : i < B.keys.length := by simpa [keys] using bound
    have key : B.keys[i] = B.rows[i].1 := List.getElem_map ..
    rw [← key]
    simp only [show B.keys = List.range' 1 B.rows.length from h,List.getElem_range']
    omega
  constructor
  · intro at'
    rw [objects,List.getElem?_map,Option.map_eq_some_iff] at at'
    obtain ⟨row,listed,rfl⟩ := at'
    obtain ⟨bound,rfl⟩ := List.getElem?_eq_some_iff.mp listed
    exact keyed n bound ▸ List.getElem_mem bound
  · intro listed
    obtain ⟨i,bound,same⟩ := List.getElem_of_mem listed
    have := keyed i bound
    rw [same] at this
    obtain rfl : n = i := by simpa using this
    simp [objects,List.getElem?_eq_getElem bound,same]

theorem objects_length : B.objects.length = B.rows.length := by simp [objects]

end Bucket
