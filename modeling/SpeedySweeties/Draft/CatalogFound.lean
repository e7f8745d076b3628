import SpeedySweeties.Draft.CatalogLaws

/-! Which item is found, said without the sorting: by its own name, and by a name with another
size than its own. -/
namespace SpeedySweeties.Draft
open Binary64 Ranking

/-! ### The found item -/

/-- The first by score, popularity and place, with no other near it below a score of one, and with
no other of score one and another id next to it at a score of one. -/
def Wins (requestedName : String) (catalogItems : List CatalogItem) (item : CatalogItem) : Prop :=
  ∃ a others, Leads compareCandidates (candidates requestedName catalogItems) a others ∧ a.catalogItem = item ∧
    (a.score < one → ∀ b ∈ others, ¬nearTie a b) ∧
    (a.score = one → ∀ b rest, Leads compareCandidates others b rest → b.score = one → b.catalogItem.id = a.catalogItem.id)

theorem decideLed (a : Candidate) {others : List Candidate} (some_ : others ≠ []) :
    ∃ b rest, Leads compareCandidates others b rest ∧ decideMatch (a::ranked compareCandidates others) =
      if a.score < one ∧ nearTie a b then none
      else if a.score = one ∧ b.score = one ∧ b.catalogItem.id ≠ a.catalogItem.id then none
      else some a.catalogItem := by
  obtain ⟨b,rest,leads⟩ := leader compareCandidates some_
  exact ⟨b,rest,leads,by rw [leads.ranked,decideMatch]⟩

theorem leadsMost {xs others : List Candidate} {a : Candidate} (leads : Leads compareCandidates xs a others) : ∀ c ∈ others, c.score ≤ a.score := by
  obtain ⟨before,after,-,rfl,first,later⟩ := leads
  intro c mem
  rcases List.mem_append.mp mem with mem | mem
  · exact compareIsLE (by simp [first c mem])
  · exact compareIsLE (later c mem)

theorem leadsOnce {xs others rest : List Candidate} {a b : Candidate} (left : Leads compareCandidates xs a others)
    (right : Leads compareCandidates xs b rest) : a = b :=
  (List.cons.inj (left.ranked.symm.trans right.ranked)).1

theorem foundWins {requestedName : String} {items : List CatalogItem} {item : CatalogItem} :
    findBestCatalogMatch requestedName items = some item ↔ Wins requestedName items item := by
  constructor
  · intro found
    have some_ : candidates requestedName items ≠ [] := by
      intro empty
      rw [noneOfEmpty empty] at found
      cases found
    obtain ⟨a,others,leads⟩ := leader compareCandidates some_
    rw [findBestCatalogMatch,leads.ranked] at found
    by_cases alone : others = []
    · subst alone
      refine ⟨a,[],leads,Option.some.inj found,fun _ _ mem => absurd mem List.not_mem_nil,fun _ b rest next => ?_⟩
      exact absurd (next.mem.mpr (.inl rfl)) List.not_mem_nil
    · obtain ⟨b,rest,next,decides⟩ := decideLed a alone
      rw [decides] at found
      split at found
      · cases found
      rename_i apart
      split at found
      · cases found
      rename_i alike
      refine ⟨a,others,leads,Option.some.inj found,fun low c mem near => ?_,fun perfect c rest_ next_ alsoPerfect => ?_⟩
      · refine apart ⟨low,nearMore near rfl ?_⟩
        rcases next.mem.mp mem with rfl | mem
        · exact le_rfl
        · exact leadsMost next c mem
      · by_contra otherId
        obtain rfl := leadsOnce next next_
        exact alike ⟨perfect,alsoPerfect,otherId⟩
  · rintro ⟨a,others,leads,rfl,apart,alike⟩
    rw [findBestCatalogMatch,leads.ranked]
    by_cases alone : others = []
    · subst alone
      rfl
    · obtain ⟨b,rest,next,decides⟩ := decideLed a alone
      rw [decides,if_neg (fun h => apart h.1 b (next.mem.mpr (.inl rfl)) h.2),if_neg (fun h => h.2.2 (alike h.1 b rest next h.2.1))]

/-! ### Different ids -/

/-- The only item of score one, or without one an item at some distance from all others. -/
def StandsOut (requestedName : String) (catalogItems : List CatalogItem) (item : CatalogItem) : Prop :=
  ∃ a ∈ candidates requestedName catalogItems, a.catalogItem = item ∧
    ((a.score = one ∧ ∀ b ∈ candidates requestedName catalogItems, b ≠ a → b.score ≠ one) ∨
      (a.score < one ∧ ∀ b ∈ candidates requestedName catalogItems, b ≠ a → ¬nearTie a b))

theorem candidateItems (requestedName : String) (items : List CatalogItem) :
    ((candidates requestedName items).map (·.catalogItem)).Sublist items := by
  unfold candidates
  induction items with
  | nil => exact .slnil
  | cons item items ih =>
    rw [List.filterMap_cons]
    cases kept : (catalogScore requestedName item).filter (threshold ≤ ·) with
    | none => exact ih.cons item
    | some score => exact ih.cons_cons item

section Distinct
variable {requestedName : String} {items : List CatalogItem} {item : CatalogItem} (idsOnce : (items.map (·.id)).Nodup)
include idsOnce

theorem otherIds {a b : Candidate} {others : List Candidate} (leads : Leads compareCandidates (candidates requestedName items) a others)
    (mem : b ∈ others) : b.catalogItem.id ≠ a.catalogItem.id := by
  have once : ((candidates requestedName items).map (·.catalogItem.id)).Nodup := by
    have ids := idsOnce.sublist ((candidateItems requestedName items).map (·.id))
    rwa [List.map_map] at ids
  obtain ⟨before,after,is,rfl,-,-⟩ := leads
  rw [is,List.map_append,List.map_cons,List.nodup_append] at once
  obtain ⟨-,later,apart⟩ := once
  rcases List.mem_append.mp mem with here | here
  · exact apart _ (List.mem_map_of_mem here) _ List.mem_cons_self
  · exact fun same => (List.nodup_cons.mp later).1 (same ▸ List.mem_map_of_mem here)

theorem winsStandsOut : Wins requestedName items item ↔ StandsOut requestedName items item := by
  constructor
  · rintro ⟨a,others,leads,rfl,apart,alike⟩
    have isA := leads.mem.mpr (.inl rfl)
    have among {b : Candidate} (mem : b ∈ candidates requestedName items) (differ : b ≠ a) : b ∈ others := (leads.mem.mp mem).resolve_left differ
    refine ⟨a,isA,rfl,?_⟩
    rcases lt_or_eq_of_le (candidateScore isA) with low | perfect
    · exact .inr ⟨low,fun b mem differ => apart low b (among mem differ)⟩
    · refine .inl ⟨perfect,fun b mem differ alsoPerfect => ?_⟩
      obtain ⟨c,rest,next⟩ := leader compareCandidates (List.ne_nil_of_mem (among mem differ))
      have isC : c ∈ others := next.mem.mpr (.inl rfl)
      have least : b.score ≤ c.score := by
        rcases next.mem.mp (among mem differ) with rfl | later
        · exact le_rfl
        · exact leadsMost next b later
      have full : c.score = one := le_antisymm (candidateScore (leads.mem.mpr (.inr isC))) (alsoPerfect ▸ least)
      exact otherIds idsOnce leads isC (alike perfect c rest next full)
  · rintro ⟨a,isA,rfl,standing⟩
    obtain ⟨best,others,leads⟩ := leader compareCandidates (List.ne_nil_of_mem isA)
    have isBest := leads.mem.mpr (.inl rfl)
    have most : a.score ≤ best.score := by
      rcases leads.mem.mp isA with rfl | later
      · exact le_rfl
      · exact leadsMost leads a later
    obtain rfl : best = a := by
      by_contra differ
      rcases standing with ⟨perfect,alone⟩ | ⟨-,apart⟩
      · exact alone best isBest differ (le_antisymm (candidateScore isBest) (perfect ▸ most))
      · exact apart best isBest differ (nearSelf most)
    have differ {b : Candidate} (mem : b ∈ others) : b ≠ best := fun same => otherIds idsOnce leads mem (by rw [same])
    refine ⟨best,others,leads,rfl,fun low b mem => ?_,fun perfect b rest next alsoPerfect => ?_⟩
    · rcases standing with ⟨perfect,-⟩ | ⟨-,apart⟩
      · exact absurd perfect (ne_of_lt low)
      · exact apart b (leads.mem.mpr (.inr mem)) (differ mem)
    · have isB : b ∈ others := next.mem.mpr (.inl rfl)
      rcases standing with ⟨-,alone⟩ | ⟨low,-⟩
      · exact absurd alsoPerfect (alone b (leads.mem.mpr (.inr isB)) (differ isB))
      · exact absurd perfect (ne_of_lt low)

end Distinct

/-! ### An item's own name -/

/-- A name that leaves something, and nothing that another item stands for. -/
def OwnName (catalogItems : List CatalogItem) (item : CatalogItem) : Prop :=
  normalizeProductText item.name ≠ "" ∧ ∀ other ∈ catalogItems, other ≠ item → normalizeProductText item.name ∉ catalogVariants other

theorem ownScore {item : CatalogItem} (named : normalizeProductText item.name ≠ "")
    (stable : normalizeProductText (normalizeProductText item.name) = normalizeProductText item.name) : catalogScore item.name item = some one := by
  have variant : normalizeProductText item.name ∈ catalogVariants item := by
    refine memDistinct.mpr (List.mem_filter.mpr ⟨?_,decide_eq_true named⟩)
    exact List.mem_map_of_mem (by simp)
  have same : productSimilarity item.name (normalizeProductText item.name) = one := by
    have text : (normalizeProductText item.name).toList ≠ [] := fun empty => named (String.toList_eq_nil_iff.mp empty)
    simp [productSimilarity,stable,text]
  rw [catalogScore,List.max?_eq_some_iff]
  refine ⟨List.mem_map.mpr ⟨_,variant,same⟩,fun score mem => ?_⟩
  obtain ⟨other,-,rfl⟩ := List.mem_map.mp mem
  exact similarityMost item.name other

theorem perfectStandsOut {requestedName : String} {items : List CatalogItem} {item : CatalogItem} (mem : item ∈ items)
    (perfect : catalogScore requestedName item = some one) :
    StandsOut requestedName items item ↔ ∀ other ∈ items, other ≠ item → catalogScore requestedName other ≠ some one := by
  have most : threshold ≤ one := by decide +kernel
  have isA : (⟨item,one⟩ : Candidate) ∈ candidates requestedName items := memCandidates.mpr ⟨mem,perfect,most⟩
  constructor
  · rintro ⟨a,isA_,same,standing⟩ other here differ alsoPerfect
    obtain rfl := candidateItem isA_ isA same
    rcases standing with ⟨-,alone⟩ | ⟨low,-⟩
    · refine alone ⟨other,one⟩ (memCandidates.mpr ⟨here,alsoPerfect,most⟩) (fun same => differ ?_) rfl
      exact congrArg Candidate.catalogItem same
    · exact absurd low (lt_irrefl _)
  · intro alone
    refine ⟨⟨item,one⟩,isA,rfl,.inl ⟨rfl,fun b isB differ full => ?_⟩⟩
    obtain ⟨here,scored,-⟩ := memCandidates.mp isB
    by_cases same : b.catalogItem = item
    · exact differ (candidateItem isB isA same)
    · exact alone b.catalogItem here same (full ▸ scored)

def corona : CatalogItem := { id := "c1", name := "Corona 6-Pack", normalizedName := some "corona 6 pack" }

/-- Digits and `ml`. -/
def isVolume (token : List Char) : Bool :=
  token.reverse.take 2 = ['l','m'] && token.reverse.drop 2 ≠ [] && (token.reverse.drop 2).all Char.isDigit

def statedVolumes (text : String) : List (List Char) := (tokens (normalizeProductText text).toList).filter isVolume

def CatalogItem.statedVolumes (item : CatalogItem) : List (List Char) :=
  [item.name,item.normalizedName.getD "",item.size.getD ""].flatMap Draft.statedVolumes

/-- The item states volumes, but not this one. -/
def OtherSize (volume : List Char) (item : CatalogItem) : Prop := item.statedVolumes ≠ [] ∧ volume ∉ item.statedVolumes

instance (volume : List Char) (item : CatalogItem) : Decidable (OtherSize volume item) := inferInstanceAs (Decidable (_ ∧ _))

/-- Where exactly one volume is requested, what is found does not state other ones only. -/
def SizeKept (requestedName : String) (catalogItems : List CatalogItem) : Prop :=
  ∀ volume, statedVolumes requestedName = [volume] → ∀ item, findBestCatalogMatch requestedName catalogItems = some item → ¬OtherSize volume item

end SpeedySweeties.Draft
