import SpeedySweeties.Draft.CatalogMatch

/-! When the match of a requested name depends on the set of the catalog items only, when an item
is found by its own name, and when the found one has the requested size. -/
namespace SpeedySweeties.Draft
open Binary64 Ranking

/-! ### Scores -/

theorem sharedMost (left right : List Char) : 2*sharedTokens left right ≤ (tokens left).length + (tokens right).length := by
  have some_ : sharedTokens left right ≤ (tokens left).length := List.length_filter_le _ _
  have others : sharedTokens left right ≤ (tokens right).length := by
    refine ((distinctNodup _).filter _).length_le_of_subset fun token mem => ?_
    exact of_decide_eq_true (List.mem_filter.mp mem).2
  omega

theorem tokensSome (text : List Char) : 0 < (tokens text).length := by
  have some_ : text.splitOn ' ' ≠ [] := List.splitOn_ne_nil _ _
  obtain ⟨token,mem⟩ := List.exists_mem_of_ne_nil _ some_
  exact List.length_pos_of_mem (memDistinct.mpr mem)

theorem partMost (share : Binary64) : add (fraction 86 100) (min (fraction 1 10) share) ≤ one := by
  have most : add (fraction 86 100) (fraction 1 10) ≤ one := by decide +kernel
  exact Nat.le_trans (addLeast _ _ _) most

theorem similarityMost (left right : String) : productSimilarity left right ≤ one := by
  unfold productSimilarity
  dsimp only
  split
  · exact Nat.zero_le _
  · split
    · exact le_rfl
    · split
      · exact partMost _
      · refine divMost (ofNatMono (sharedMost _ _)) ?_
        have one_ : 1 ≤ (tokens (normalizeProductText left).toList).length + (tokens (normalizeProductText right).toList).length :=
          Nat.le_add_right_of_le (tokensSome _)
        exact lt_of_lt_of_le (by decide +kernel : 0 < ofNat 1) (ofNatMono one_)

theorem scoreMost {requestedName : String} {item : CatalogItem} {score : Binary64} (is : catalogScore requestedName item = some score) :
    score ≤ one := by
  obtain ⟨mem,-⟩ := List.max?_eq_some_iff.mp is
  obtain ⟨variant,-,rfl⟩ := List.mem_map.mp mem
  exact similarityMost requestedName variant

/-! ### Candidates -/

section Candidates
variable {requestedName : String} {items others : List CatalogItem} {c : Candidate}

theorem memCandidates : c ∈ candidates requestedName items ↔
    c.catalogItem ∈ items ∧ catalogScore requestedName c.catalogItem = some c.score ∧ threshold ≤ c.score := by
  unfold candidates
  rw [List.mem_filterMap]
  constructor
  · rintro ⟨item,mem,is⟩
    obtain ⟨score,kept,rfl⟩ := Option.map_eq_some_iff.mp is
    obtain ⟨scored,most⟩ := Option.filter_eq_some_iff.mp kept
    exact ⟨mem,scored,of_decide_eq_true most⟩
  · rintro ⟨mem,scored,most⟩
    exact ⟨c.catalogItem,mem,by simp [scored,most]⟩

theorem candidateScore (mem : c ∈ candidates requestedName items) : c.score ≤ one := scoreMost (memCandidates.mp mem).2.1

theorem candidateItem {d : Candidate} (left : c ∈ candidates requestedName items) (right : d ∈ candidates requestedName others)
    (same : c.catalogItem = d.catalogItem) : c = d := by
  obtain ⟨-,scored,-⟩ := memCandidates.mp left
  obtain ⟨-,scored_,-⟩ := memCandidates.mp right
  rw [same,scored_] at scored
  cases c
  cases d
  exact congr (congrArg Candidate.mk same) (Option.some.inj scored).symm

theorem candidatesCons (mem : c ∈ candidates requestedName items) (others : List CatalogItem) :
    candidates requestedName (c.catalogItem::others) = c::candidates requestedName others := by
  obtain ⟨-,scored,most⟩ := memCandidates.mp mem
  simp [candidates,scored,most]

theorem candidatesSame (same : ∀ item, item ∈ others ↔ item ∈ items) : c ∈ candidates requestedName others ↔ c ∈ candidates requestedName items := by
  rw [memCandidates,memCandidates,same]

end Candidates

theorem compareIsLE {a b : Candidate} (le : (compareCandidates a b).isLE) : b.score ≤ a.score := by
  by_contra less
  have later : compareCandidates b a = .lt := thenByLt.mpr (.inl (byValueLt.mpr (lt_of_not_ge less)))
  simp [Std.OrientedCmp.gt_of_lt later] at le

theorem nearSelf {a b : Candidate} (le : a.score ≤ b.score) : nearTie a b = true := by
  have least : sub a.score b.score ≤ sub a.score a.score := subMono le
  rw [subSelf] at least
  refine decide_eq_true (lt_of_le_of_lt least ?_)
  decide +kernel

theorem nearMore {a b c d : Candidate} (near : nearTie a b = true) (same : c.score = a.score) (le : b.score ≤ d.score) : nearTie c d = true := by
  refine decide_eq_true (lt_of_le_of_lt ?_ (of_decide_eq_true near))
  rw [same]
  exact subMono le

/-! ### The set of the items -/

/-- The catalog has no candidate, or none with score one and two different ones that cannot be told
apart, or one with score one before all others, of which the next with score one has its id. -/
def Settled (requestedName : String) (catalogItems : List CatalogItem) : Prop :=
  let all := candidates requestedName catalogItems
  all = [] ∨
  (∃ a ∈ all, a.score < one ∧ (∀ c ∈ all, c.score ≤ a.score) ∧ ∃ b ∈ all, b ≠ a ∧ nearTie a b) ∨
  ∃ a ∈ all, a.score = one ∧ ∀ b ∈ all, b ≠ a → compareCandidates a b = .lt ∧
    (b.score = one → (∀ c ∈ all, c ≠ a → (compareCandidates b c).isLE) → b.catalogItem.id = a.catalogItem.id)

section Set
variable {requestedName : String} {items others : List CatalogItem}

theorem noneOfEmpty (empty : candidates requestedName items = []) : findBestCatalogMatch requestedName items = none := by
  rw [findBestCatalogMatch,empty]
  rfl

theorem noneOfNear {a b : Candidate} (isA : a ∈ candidates requestedName items) (isB : b ∈ candidates requestedName items) (low : a.score < one)
    (most : ∀ c ∈ candidates requestedName items, c.score ≤ a.score) (differ : b ≠ a) (near : nearTie a b = true) :
    findBestCatalogMatch requestedName items = none := by
  unfold findBestCatalogMatch
  cases is : ranked compareCandidates (candidates requestedName items) with
  | nil => rfl
  | cons best rest =>
    obtain ⟨mem,leads,-,followers⟩ := rankedTop is
    have score : best.score = a.score := le_antisymm (most best mem) (compareIsLE (leads a isA))
    have sorted : (ranked compareCandidates (candidates requestedName items)).Pairwise fun c d => (compareCandidates c d).isLE := rankedSorted _
    rw [is,List.pairwise_cons] at sorted
    -- One of the two comes after the best.
    have follower : ∃ c ∈ rest, nearTie a c = true := by
      by_cases same : best = a
      · exact ⟨b,followers b isB (same ▸ differ),near⟩
      · exact ⟨a,followers a isA (Ne.symm same),nearSelf le_rfl⟩
    obtain ⟨c,after,close⟩ := follower
    cases rest with
    | nil => cases after
    | cons runnerUp rest =>
      have least : c.score ≤ runnerUp.score := by
        rcases List.mem_cons.mp after with rfl | later
        · exact le_rfl
        · exact compareIsLE ((List.pairwise_cons.mp sorted.2).1 c later)
      rw [decideMatch,if_pos ⟨score ▸ low,nearMore close score least⟩]

/-- A candidate with score one that comes before all others is found, unless the next is another one with score one. -/
theorem someOfFirst {a : Candidate} (isA : a ∈ candidates requestedName items) (perfect : a.score = one)
    (first : ∀ b ∈ candidates requestedName items, b ≠ a → compareCandidates a b = .lt ∧
      (b.score = one → (∀ c ∈ candidates requestedName items, c ≠ a → (compareCandidates b c).isLE) → b.catalogItem.id = a.catalogItem.id)) :
    findBestCatalogMatch requestedName items = some a.catalogItem := by
  unfold findBestCatalogMatch
  cases is : ranked compareCandidates (candidates requestedName items) with
  | nil => exact absurd (memRanked.mpr isA) (is ▸ List.not_mem_nil)
  | cons best rest =>
    obtain ⟨mem,leads,within,followers⟩ := rankedTop is
    obtain rfl : best = a := by
      by_contra differ
      have later := leads a isA
      simp [Std.OrientedCmp.gt_of_lt (first best mem differ).1] at later
    have sorted : (ranked compareCandidates (candidates requestedName items)).Pairwise fun c d => (compareCandidates c d).isLE := rankedSorted _
    rw [is,List.pairwise_cons] at sorted
    cases rest with
    | nil => rfl
    | cons runnerUp rest =>
      have next : ∀ c ∈ candidates requestedName items, c ≠ best → (compareCandidates runnerUp c).isLE := by
        intro c isC differ
        rcases List.mem_cons.mp (followers c isC differ) with rfl | later
        · simp [Std.ReflCmp.compare_self]
        · exact (List.pairwise_cons.mp sorted.2).1 c later
      rw [decideMatch,if_neg (fun low => absurd low.1 (by rw [perfect]; exact lt_irrefl _)),if_neg]
      rintro ⟨-,alsoPerfect,otherId⟩
      by_cases same : runnerUp = best
      · exact otherId (by rw [same])
      · exact otherId ((first runnerUp (within _ List.mem_cons_self) same).2 alsoPerfect next)

theorem findTwice {a : Candidate} (isA : a ∈ candidates requestedName items)
    (leads : ∀ c ∈ candidates requestedName items, (compareCandidates a c).isLE) :
    findBestCatalogMatch requestedName (a.catalogItem::a.catalogItem::items) = if a.score < one then none else some a.catalogItem := by
  have leadsSelf : ∀ c ∈ a::candidates requestedName items, (compareCandidates a c).isLE := by
    intro c mem
    rcases List.mem_cons.mp mem with rfl | mem
    · simp [Std.ReflCmp.compare_self]
    · exact leads c mem
  rw [findBestCatalogMatch,candidatesCons isA,candidatesCons isA,rankedLead leadsSelf,rankedLead leads,decideMatch]
  by_cases low : a.score < one
  · rw [if_pos ⟨low,nearSelf le_rfl⟩,if_pos low]
  · rw [if_neg (fun h => low h.1),if_neg (fun h => h.2.2 rfl),if_neg low]

theorem sameTwice {item : CatalogItem} (mem : item ∈ items) (other : CatalogItem) : other ∈ item::item::items ↔ other ∈ items := by
  simp only [List.mem_cons]
  exact ⟨fun h => h.elim (fun is => is ▸ mem) fun h => h.elim (fun is => is ▸ mem) id,fun here => .inr (.inr here)⟩

theorem candidatesWithout {a c : Candidate} (mem : c ∈ candidates requestedName (items.filter (· ≠ a.catalogItem))) : c ∈ candidates requestedName items ∧ c ≠ a := by
  obtain ⟨kept,scored,most⟩ := memCandidates.mp mem
  obtain ⟨here,differ⟩ := List.mem_filter.mp kept
  exact ⟨memCandidates.mpr ⟨here,scored,most⟩,fun same => of_decide_eq_true differ (by rw [same])⟩

theorem settledOf (law : ∀ others, (∀ item, item ∈ others ↔ item ∈ items) →
    findBestCatalogMatch requestedName others = findBestCatalogMatch requestedName items) : Settled requestedName items := by
  cases is : ranked compareCandidates (candidates requestedName items) with
  | nil =>
    left
    exact List.eq_nil_iff_forall_not_mem.mpr fun c mem => absurd (memRanked.mpr mem) (is ▸ List.not_mem_nil)
  | cons a rest =>
    right
    obtain ⟨isA,leads,-,-⟩ := rankedTop is
    have here : a.catalogItem ∈ items := (memCandidates.mp isA).1
    have twice := (law _ (sameTwice here)).symm.trans (findTwice isA leads)
    have without : ∀ c ∈ candidates requestedName (items.filter (· ≠ a.catalogItem)), (compareCandidates a c).isLE :=
      fun c mem => leads c (candidatesWithout mem).1
    have sameOnce : ∀ item, item ∈ a.catalogItem::items.filter (· ≠ a.catalogItem) ↔ item ∈ items := by
      intro item
      by_cases same : item = a.catalogItem <;> simp [same,here]
    rcases lt_or_eq_of_le (candidateScore isA) with low | perfect
    · left
      rw [if_pos low] at twice
      refine ⟨a,isA,low,fun c mem => compareIsLE (leads c mem),?_⟩
      by_contra apart
      have once := (law _ sameOnce).trans twice
      rw [findBestCatalogMatch,candidatesCons isA,rankedLead without] at once
      cases others : ranked compareCandidates (candidates requestedName (items.filter (· ≠ a.catalogItem))) with
      | nil =>
        rw [others,decideMatch] at once
        cases once
      | cons b rest =>
        obtain ⟨isB,differ⟩ := candidatesWithout (memRanked.mp (others ▸ List.mem_cons_self))
        rw [others,decideMatch,if_neg (fun h => apart ⟨b,isB,differ,h.2⟩),if_neg (fun h => absurd h.1 (ne_of_lt low))] at once
        cases once
    · right
      rw [if_neg (by rw [perfect]; exact lt_irrefl _)] at twice
      refine ⟨a,isA,perfect,fun b isB differ => ⟨?_,fun alsoPerfect next => ?_⟩⟩
      · cases order : compareCandidates a b with
        | lt => rfl
        | gt => simpa [order] using leads b isB
        | eq =>
          have back : (compareCandidates b a).isLE := by simp [Std.OrientedCmp.eq_symm order]
          have leadsB : ∀ c ∈ candidates requestedName items, (compareCandidates b c).isLE :=
            fun c mem => Std.TransCmp.isLE_trans back (leads c mem)
          have full : ¬b.score < one := not_lt.mpr (perfect ▸ compareIsLE back)
          have other := (law _ (sameTwice (memCandidates.mp isB).1)).symm.trans (findTwice isB leadsB)
          rw [if_neg full,twice] at other
          exact absurd (candidateItem isB isA (Option.some.inj other).symm) differ
      · by_contra otherId
        have same : ∀ item, item ∈ a.catalogItem::b.catalogItem::items.filter (· ≠ a.catalogItem) ↔ item ∈ items := by
          intro item
          have thereB : b.catalogItem ∈ items := (memCandidates.mp isB).1
          by_cases isItem : item = a.catalogItem
          · simp [isItem,here]
          · simp only [List.mem_cons,isItem,false_or,List.mem_filter,ne_eq,decide_not,decide_false,Bool.not_false,and_true]
            exact ⟨fun h => h.elim (fun is => is ▸ thereB) id,.inr⟩
        have both := (law _ same).trans twice
        have leadsBoth : ∀ c ∈ b::candidates requestedName (items.filter (· ≠ a.catalogItem)), (compareCandidates a c).isLE := by
          intro c mem
          rcases List.mem_cons.mp mem with rfl | mem
          · exact leads _ isB
          · exact without c mem
        have leadsNext : ∀ c ∈ candidates requestedName (items.filter (· ≠ a.catalogItem)), (compareCandidates b c).isLE := by
          intro c mem
          obtain ⟨isC,other⟩ := candidatesWithout mem
          exact next c isC other
        rw [findBestCatalogMatch,candidatesCons isA,candidatesCons isB,rankedLead leadsBoth,rankedLead leadsNext,decideMatch,
          if_neg (fun h => absurd h.1 (by rw [perfect]; exact lt_irrefl _)),if_pos ⟨perfect,alsoPerfect,otherId⟩] at both
        cases both

def iceBag : CatalogItem := { id := "i1", name := "Ice bag" }

end Set
end SpeedySweeties.Draft
