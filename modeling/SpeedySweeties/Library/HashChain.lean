import Mathlib.Data.List.Infix

/-! Sequences of sealed entries, in which the digest of an entry covers its position and
the digest of the entry before it. Where the digests of two sequences do not collide, one
entry commits to all that precede it. -/

/-- How an entry type carries a chain. -/
structure HashChain (ε β η : Type) where
  body : ε → β
  hash : ε → η
  sequence : β → Nat
  previous : β → η
  digest : β → η
  whole : ∀ a b : ε, body a = body b → hash a = hash b → a = b

namespace HashChain
variable {ε β η : Type} (C : HashChain ε β η)

/-- The entry follows a head that consists of a sequence number and a hash. -/
structure Follows (head : Nat × η) (e : ε) : Prop where
  sequence : C.sequence (C.body e) = head.1 + 1
  previous : C.previous (C.body e) = head.2
  sealed : C.hash e = C.digest (C.body e)

def head (e : ε) : Nat × η := (C.sequence (C.body e),C.hash e)

def Linked : Nat × η → List ε → Prop
  | _,[] => True
  | start,e::rest => C.Follows start e ∧ Linked (C.head e) rest

/-- No digest of the one sequence is that of a different body in the other. -/
def CollisionFree (entries others : List ε) : Prop :=
  ∀ a ∈ entries, ∀ b ∈ others, C.digest (C.body a) = C.digest (C.body b) → C.body a = C.body b

variable {C} {start : Nat × η} {entries others : List ε}

theorem Linked.entry {i : Nat} {e : ε} (h : C.Linked start entries) (here : entries[i]? = some e) :
    C.hash e = C.digest (C.body e) ∧ C.sequence (C.body e) = start.1 + i + 1 := by
  induction entries generalizing start i with
  | nil => simp at here
  | cons first rest ih =>
    cases i with
    | zero =>
      cases Option.some.inj here
      exact ⟨h.1.sealed,h.1.sequence⟩
    | succ i =>
      obtain ⟨sealed,later⟩ := ih h.2 here
      have before := h.1.sequence
      simp only [head] at later
      exact ⟨sealed,by omega⟩

theorem Linked.previous {i : Nat} {a b : ε} (h : C.Linked start entries) (first : entries[i]? = some a)
    (next : entries[i + 1]? = some b) : C.previous (C.body b) = C.hash a := by
  induction entries generalizing start i with
  | nil => simp at first
  | cons e rest ih =>
    cases i with
    | zero =>
      cases Option.some.inj first
      cases rest with
      | nil => simp at next
      | cons f rest =>
        cases Option.some.inj next
        exact h.2.1.previous
    | succ i => exact ih h.2 first next

theorem same (collisionFree : C.CollisionFree entries others) {i j : Nat} {a b : ε} {start' : Nat × η}
    (left : C.Linked start entries) (right : C.Linked start' others)
    (atLeft : entries[i]? = some a) (atRight : others[j]? = some b) (hash : C.hash a = C.hash b) : a = b := by
  have digests := (left.entry atLeft).1.symm.trans (hash.trans (right.entry atRight).1)
  have body := collisionFree a (List.mem_of_getElem? atLeft) b (List.mem_of_getElem? atRight) digests
  exact C.whole a b body hash

/-- Two chains with the same entry at a position agree up to it. -/
theorem agree (collisionFree : C.CollisionFree entries others) (left : C.Linked start entries)
    (right : C.Linked start others) {i : Nat} {e : ε} (atLeft : entries[i]? = some e)
    (atRight : others[i]? = some e) : entries.take (i + 1) = others.take (i + 1) := by
  induction i generalizing e with
  | zero => rw [List.take_add_one,List.take_add_one,atLeft,atRight]; rfl
  | succ i ih =>
    obtain ⟨a,ha⟩ : ∃ a, entries[i]? = some a :=
      ⟨_,List.getElem?_eq_getElem (Nat.lt_of_succ_lt (List.getElem?_eq_some_iff.mp atLeft).1)⟩
    obtain ⟨b,hb⟩ : ∃ b, others[i]? = some b :=
      ⟨_,List.getElem?_eq_getElem (Nat.lt_of_succ_lt (List.getElem?_eq_some_iff.mp atRight).1)⟩
    have hashes := (left.previous ha atLeft).symm.trans (right.previous hb atRight)
    have entry := same collisionFree left right ha hb hashes
    subst entry
    rw [List.take_add_one,List.take_add_one (l := others),ih ha hb,atLeft,atRight]

/-- A chain whose last hash occurs in another chain is a prefix of it. -/
theorem commits (collisionFree : C.CollisionFree entries others) (left : C.Linked start entries)
    (right : C.Linked start others) {last e : ε} (ends : entries.getLast? = some last) (mem : e ∈ others)
    (hash : C.hash e = C.hash last) : entries <+: others := by
  obtain ⟨j,atRight⟩ := List.mem_iff_getElem?.mp mem
  rw [List.getLast?_eq_getElem?] at ends
  obtain rfl := same collisionFree left right ends atRight hash.symm
  -- the entry carries its sequence number, so it is at the same position in both
  have position := (left.entry ends).2.symm.trans (right.entry atRight).2
  have within := (List.getElem?_eq_some_iff.mp ends).1
  have here : j = entries.length - 1 := by omega
  subst here
  have all := agree collisionFree left right ends atRight
  rw [Nat.sub_add_cancel (by omega),List.take_length] at all
  exact all ▸ List.take_prefix _ _

end HashChain
