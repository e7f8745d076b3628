import Mathlib.Data.List.Nodup

/-! The edit of a cart by the operations that a model proposes. They name rows by index and are
applied one after the other, or not at all; what a whole edit amounts to can be read off the cart
and the operations at once. -/
namespace SpeedySweeties.Draft

inductive DraftStatus where | ready | needsClarification deriving DecidableEq, Repr

inductive Confidence where | high | medium | low deriving DecidableEq, Repr

inductive DraftPaymentMethod where | cash | debit | visa | mastercard | etransfer deriving DecidableEq, Repr

structure CartItem where
  name : String
  quantity : Nat
  deriving DecidableEq, Repr

structure ModelOrderItem where
  requestedName : String
  packageDescription : Option String
  quantity : Nat
  confidence : Confidence
  deriving DecidableEq, Repr

structure ModelOrderDraft where
  status : DraftStatus
  assistantMessage : String
  clarificationQuestion : Option String
  items : List ModelOrderItem
  paymentMethod : Option DraftPaymentMethod
  additionalNotes : Option String
  deriving DecidableEq, Repr

inductive EditAction where | update | remove | add deriving DecidableEq, Repr

structure EditOperation where
  action : EditAction
  index : Option Nat
  requestedName : Option String
  packageDescription : Option String
  quantity : Option Nat
  confidence : Confidence
  deriving DecidableEq, Repr

structure OrderEdit where
  status : DraftStatus
  assistantMessage : String
  clarificationQuestion : Option String
  operations : List EditOperation
  paymentMethod : Option DraftPaymentMethod
  additionalNotes : Option String
  deriving DecidableEq, Repr

def CartItem.row (item : CartItem) : ModelOrderItem := ⟨item.name,none,item.quantity,.high⟩

def invalidEdit (cart : List CartItem) : ModelOrderDraft where
  status := .needsClarification
  assistantMessage := "I need one more detail."
  clarificationQuestion := some "Which item would you like to change, and what should it be?"
  items := cart.map CartItem.row
  paymentMethod := none
  additionalNotes := none

/-- The rows so far, `none` where one is removed, and the indices seen. -/
abbrev EditRows := List (Option ModelOrderItem) × List Nat

/-- One turn of the loop, `none` for an invalid operation. -/
def applyOperation (cart : List CartItem) (s : EditRows) (op : EditOperation) : Option EditRows :=
  match op.action with
  | .add =>
    match op.index,op.requestedName,op.quantity with
    | none,some requestedName,some quantity =>
      some (s.1 ++ [some ⟨requestedName,op.packageDescription,quantity,op.confidence⟩],s.2)
    | _,_,_ => none
  | action => do
    let index ← op.index
    if cart.length ≤ index ∨ index ∈ s.2 then none
    else match action with
      | .remove =>
        if op.requestedName ≠ none ∨ op.packageDescription ≠ none ∨ op.quantity ≠ none then none
        else some (s.1.set index none,s.2 ++ [index])
      | _ => do
        let old ← s.1[index]?.join
        if op.packageDescription ≠ none ∧ op.requestedName = none then none
        else some (s.1.set index (some ⟨op.requestedName.getD old.requestedName,op.packageDescription,
          op.quantity.getD old.quantity,op.confidence⟩),s.2 ++ [index])

def maxItems : Nat := 25

def applyOrderEdit (cart : List CartItem) (edit : OrderEdit) : ModelOrderDraft :=
  if edit.status ≠ .ready then { invalidEdit cart with clarificationQuestion := edit.clarificationQuestion }
  else match edit.operations.foldlM (applyOperation cart) (cart.map fun item => some item.row,[]) with
    | none => invalidEdit cart
    | some (rows,_) =>
      let items := rows.filterMap id
      if maxItems < items.length then invalidEdit cart
      else ⟨edit.status,edit.assistantMessage,edit.clarificationQuestion,items,edit.paymentMethod,edit.additionalNotes⟩

/-! ### What an edit amounts to -/

/-- An operation that is valid on its own: an addition names a product and a quantity and no row,
any other operation names a row of the cart, a removal nothing else, and a package comes with a name. -/
def EditOperation.Valid (cart : List CartItem) (op : EditOperation) : Prop :=
  match op.action with
  | .add => op.index = none ∧ op.requestedName ≠ none ∧ op.quantity ≠ none
  | .remove => (∃ i ∈ op.index, i < cart.length) ∧ op.requestedName = none ∧ op.packageDescription = none ∧ op.quantity = none
  | .update => (∃ i ∈ op.index, i < cart.length) ∧ (op.packageDescription ≠ none → op.requestedName ≠ none)

instance (cart : List CartItem) (op : EditOperation) : Decidable (op.Valid cart) := by
  unfold EditOperation.Valid
  split <;> infer_instance

/-- All operations are valid and no row is named twice. -/
def ValidOperations (cart : List CartItem) (ops : List EditOperation) : Prop :=
  (∀ op ∈ ops, op.Valid cart) ∧ (ops.filterMap (·.index)).Nodup

instance (cart : List CartItem) (ops : List EditOperation) : Decidable (ValidOperations cart ops) :=
  inferInstanceAs (Decidable (_ ∧ _))

/-- What an operation makes of the row it names. -/
def EditOperation.changed (op : EditOperation) (old : ModelOrderItem) : Option ModelOrderItem :=
  if op.action = .remove then none
  else some ⟨op.requestedName.getD old.requestedName,op.packageDescription,op.quantity.getD old.quantity,op.confidence⟩

def editedRow (ops : List EditOperation) (i : Nat) (old : ModelOrderItem) : Option ModelOrderItem :=
  match ops.find? (·.index = some i) with
  | none => some old
  | some op => op.changed old

def EditOperation.added (op : EditOperation) : Option ModelOrderItem :=
  if op.action = .add then
    match op.requestedName,op.quantity with
    | some requestedName,some quantity => some ⟨requestedName,op.packageDescription,quantity,op.confidence⟩
    | _,_ => none
  else none

/-- The rows of the cart in their order, the changed ones in place and without the removed ones, and then the added ones. -/
def editedItems (cart : List CartItem) (ops : List EditOperation) : List ModelOrderItem :=
  (cart.mapIdx fun i item => editedRow ops i item.row).filterMap id ++ ops.filterMap (·.added)

section Frame
variable {cart : List CartItem} {ops : List EditOperation} {op : EditOperation}

/-- The state of the loop after some operations. -/
def rowsAfter (cart : List CartItem) (done : List EditOperation) : EditRows :=
  ((cart.mapIdx fun i item => editedRow done i item.row) ++ (done.filterMap (·.added)).map some,done.filterMap (·.index))

theorem editedFresh {i : Nat} {old : ModelOrderItem} (fresh : i ∉ ops.filterMap (·.index)) : editedRow ops i old = some old := by
  have none_ : ops.find? (·.index = some i) = none := by
    rw [List.find?_eq_none]
    intro op mem names
    exact fresh (List.mem_filterMap.mpr ⟨op,mem,of_decide_eq_true names⟩)
  rw [editedRow,none_]

theorem editedNamed {i : Nat} {old : ModelOrderItem} (fresh : i ∉ ops.filterMap (·.index)) (names : op.index = some i) :
    editedRow (ops ++ [op]) i old = op.changed old := by
  have none_ : ops.find? (·.index = some i) = none := by
    rw [List.find?_eq_none]
    intro other mem same
    exact fresh (List.mem_filterMap.mpr ⟨other,mem,of_decide_eq_true same⟩)
  rw [editedRow,List.find?_append,none_]
  simp [names]

theorem editedOther {i : Nat} {old : ModelOrderItem} (other : op.index ≠ some i) : editedRow (ops ++ [op]) i old = editedRow ops i old := by
  rw [editedRow,editedRow,List.find?_append]
  simp [other]

theorem rowSet {i : Nat} (fresh : i ∉ ops.filterMap (·.index)) (names : op.index = some i) (adds : op.added = none) {item : CartItem}
    (here : cart[i]? = some item) :
    (rowsAfter cart ops).1.set i (op.changed item.row) = (rowsAfter cart (ops ++ [op])).1 := by
  obtain ⟨bound,is⟩ := List.getElem?_eq_some_iff.mp here
  have added : (ops ++ [op]).filterMap (·.added) = ops.filterMap (·.added) := by simp [adds]
  simp only [rowsAfter,added]
  rw [List.set_append_left _ _ (by simpa using bound)]
  congr 1
  refine List.ext_getElem? fun j => ?_
  rw [List.getElem?_set,List.getElem?_mapIdx,List.getElem?_mapIdx]
  by_cases same : i = j
  · subst same
    simp [bound,is,editedNamed fresh names]
  · have other : op.index ≠ some j := fun named => same (Option.some.inj (names.symm.trans named))
    simp [same,editedOther other]

theorem rowOld {i : Nat} (fresh : i ∉ ops.filterMap (·.index)) {item : CartItem} (here : cart[i]? = some item) :
    (rowsAfter cart ops).1[i]?.join = some item.row := by
  obtain ⟨bound,is⟩ := List.getElem?_eq_some_iff.mp here
  rw [rowsAfter,List.getElem?_append_left (by simpa using bound),List.getElem?_mapIdx,here]
  simp [editedFresh fresh]

theorem stepAdds (adds : op.action = .add) (valid : op.Valid cart) :
    applyOperation cart (rowsAfter cart ops) op = some (rowsAfter cart (ops ++ [op])) := by
  obtain ⟨action,index,requestedName,packageDescription,quantity,confidence⟩ := op
  cases adds
  obtain ⟨unplaced,named,counted⟩ := valid
  obtain rfl : index = none := unplaced
  obtain ⟨name,rfl⟩ := Option.ne_none_iff_exists'.mp named
  obtain ⟨count,rfl⟩ := Option.ne_none_iff_exists'.mp counted
  have rows : ∀ i old, editedRow (ops ++ [⟨.add,none,some name,packageDescription,some count,confidence⟩]) i old = editedRow ops i old :=
    fun i old => editedOther nofun
  simp [applyOperation,rowsAfter,EditOperation.added,rows]

theorem stepChanges {i : Nat} (changes : op.action ≠ .add) (valid : op.Valid cart) (names : op.index = some i)
    (fresh : i ∉ ops.filterMap (·.index)) :
    applyOperation cart (rowsAfter cart ops) op = some (rowsAfter cart (ops ++ [op])) := by
  have adds : op.added = none := if_neg changes
  have indices : (rowsAfter cart (ops ++ [op])).2 = (rowsAfter cart ops).2 ++ [i] := by simp [rowsAfter,names]
  have inside : i < cart.length := by
    unfold EditOperation.Valid at valid
    split at valid
    · rename_i is
      exact absurd is changes
    · obtain ⟨⟨j,named,inside⟩,-⟩ := valid
      rw [names] at named
      exact Option.some.inj named ▸ inside
    · obtain ⟨⟨j,named,inside⟩,-⟩ := valid
      rw [names] at named
      exact Option.some.inj named ▸ inside
  have here : cart[i]? = some cart[i] := List.getElem?_eq_getElem inside
  have set := rowSet fresh names adds here
  have passes : ¬(cart.length ≤ i ∨ i ∈ (rowsAfter cart ops).2) := not_or.mpr ⟨Nat.not_le.mpr inside,fresh⟩
  have result : ((rowsAfter cart ops).1.set i (op.changed cart[i].row),(rowsAfter cart ops).2 ++ [i]) = rowsAfter cart (ops ++ [op]) :=
    Prod.ext set indices.symm
  rw [← result]
  unfold applyOperation
  unfold EditOperation.Valid at valid
  cases action : op.action with
  | add => exact absurd action changes
  | remove =>
    rw [action] at valid
    obtain ⟨-,unnamed,unpacked,uncounted⟩ := valid
    simp [names,passes,unnamed,unpacked,uncounted,EditOperation.changed,action]
  | update =>
    rw [action] at valid
    have named : ¬(op.packageDescription ≠ none ∧ op.requestedName = none) := fun ⟨packed,unnamed⟩ => valid.2 packed unnamed
    simp [names,passes,rowOld fresh here,named,EditOperation.changed,action]

theorem stepSource {s next : EditRows} (ok : applyOperation cart s op = some next) : op.Valid cart ∧ ∀ i ∈ op.index, i ∉ s.2 := by
  obtain ⟨action,index,requestedName,packageDescription,quantity,confidence⟩ := op
  unfold applyOperation at ok
  unfold EditOperation.Valid
  cases action with
  | add =>
    simp only at ok
    split at ok
    · exact ⟨⟨rfl,by simp,by simp⟩,by simp⟩
    · cases ok
  | remove =>
    obtain ⟨i,rfl,ok⟩ := Option.bind_eq_some_iff.mp ok
    split at ok
    · cases ok
    rename_i passes
    obtain ⟨inside,fresh⟩ := not_or.mp passes
    simp only at ok
    split at ok
    · cases ok
    rename_i bare
    simp only [ne_eq,not_or,not_not] at bare
    exact ⟨⟨⟨i,rfl,Nat.not_le.mp inside⟩,bare⟩,fun j same => Option.some.inj same ▸ fresh⟩
  | update =>
    obtain ⟨i,rfl,ok⟩ := Option.bind_eq_some_iff.mp ok
    split at ok
    · cases ok
    rename_i passes
    obtain ⟨inside,fresh⟩ := not_or.mp passes
    obtain ⟨old,-,ok⟩ := Option.bind_eq_some_iff.mp ok
    split at ok
    · cases ok
    rename_i named
    exact ⟨⟨⟨i,rfl,Nat.not_le.mp inside⟩,fun packed unnamed => named ⟨packed,unnamed⟩⟩,fun j same => Option.some.inj same ▸ fresh⟩

theorem stepEdits : applyOperation cart (rowsAfter cart ops) op =
    if op.Valid cart ∧ ∀ i ∈ op.index, i ∉ ops.filterMap (·.index) then some (rowsAfter cart (ops ++ [op])) else none := by
  split
  · rename_i passes
    obtain ⟨valid,fresh⟩ := passes
    by_cases adds : op.action = .add
    · exact stepAdds adds valid
    · cases names : op.index with
      | none =>
        unfold EditOperation.Valid at valid
        cases action : op.action <;> simp [action,names] at valid adds
      | some i => exact stepChanges adds valid names (fresh i names)
  · rename_i refused
    rw [Option.eq_none_iff_forall_ne_some]
    intro next ok
    exact refused (stepSource ok)

theorem runEdits (ops : List EditOperation) {done : List EditOperation} (once : (done.filterMap (·.index)).Nodup) :
    ops.foldlM (applyOperation cart) (rowsAfter cart done) =
      if (∀ op ∈ ops, op.Valid cart) ∧ ((done ++ ops).filterMap (·.index)).Nodup then some (rowsAfter cart (done ++ ops)) else none := by
  induction ops generalizing done with
  | nil => simp [once]
  | cons op ops ih =>
    have rest : done ++ op::ops = (done ++ [op]) ++ ops := by simp
    have next : ((done ++ [op]).filterMap (·.index)).Nodup ↔ ∀ i ∈ op.index, i ∉ done.filterMap (·.index) := by
      cases names : op.index with
      | none => simp [names,once]
      | some i =>
        have appended : (done ++ [op]).filterMap (·.index) = done.filterMap (·.index) ++ [i] := by simp [names]
        rw [appended,← List.concat_eq_append,List.nodup_concat]
        simp [once]
    rw [List.foldlM_cons,stepEdits]
    split
    · rename_i passes
      rw [Option.bind_eq_bind,Option.bind_some,ih (next.mpr passes.2),rest]
      simp [passes.1]
    · rename_i refused
      rw [Option.bind_eq_bind,Option.bind_none,if_neg]
      rintro ⟨valid,nodup⟩
      rw [rest,List.filterMap_append] at nodup
      exact refused ⟨valid op List.mem_cons_self,next.mp (List.nodup_append.mp nodup).1⟩

/-- An edit that is clear and whose operations are valid is applied as a whole, unless there are too many rows then; otherwise the cart stays. -/
theorem orderEditFrame (cart : List CartItem) (edit : OrderEdit) : (applyOrderEdit cart edit).items =
    if edit.status = .ready ∧ ValidOperations cart edit.operations ∧ (editedItems cart edit.operations).length ≤ maxItems then
      editedItems cart edit.operations
    else cart.map CartItem.row := by
  have once : (([] : List EditOperation).filterMap (·.index)).Nodup := List.nodup_nil
  have start : (cart.map fun item => some item.row,[]) = rowsAfter cart [] :=
    Prod.ext (List.ext_getElem? fun i => by simp [rowsAfter,editedRow]) rfl
  have items : (rowsAfter cart edit.operations).1.filterMap id = editedItems cart edit.operations := by
    simp [rowsAfter,editedItems,List.filterMap_append]
  unfold applyOrderEdit
  have run : edit.operations.foldlM (applyOperation cart) (rowsAfter cart []) =
      if ValidOperations cart edit.operations then some (rowsAfter cart edit.operations) else none := runEdits edit.operations once
  rw [start,run]
  by_cases clear : edit.status = .ready
  · rw [if_neg (not_not_intro clear)]
    by_cases valid : ValidOperations cart edit.operations
    · rw [if_pos valid]
      dsimp only
      rw [items]
      by_cases few : (editedItems cart edit.operations).length ≤ maxItems
      · rw [if_neg (Nat.not_lt.mpr few),if_pos ⟨clear,valid,few⟩]
      · rw [if_pos (Nat.not_le.mp few),if_neg fun h => few h.2.2]
        rfl
    · rw [if_neg valid,if_neg fun h => valid h.2.1]
      rfl
  · rw [if_pos clear,if_neg fun h => clear h.1]
    rfl

example : editedItems [⟨"Smirnoff 750ml",2⟩,⟨"Ice",3⟩] [⟨.update,some 1,none,none,some 5,.medium⟩] =
    [⟨"Smirnoff 750ml",none,2,.high⟩,⟨"Ice",none,5,.medium⟩] := by decide

end Frame
end SpeedySweeties.Draft
