import SpeedySweeties.Library.StoreClient

/-! What a client of an object store can rely on while others use it: a program meets a
condition when it ends in it whatever the others add to the store meanwhile and however
its own requests are answered. The run rule carries this to all calls of a system. -/

/-- A property of the store and the puts of each role that keep it. -/
structure Discipline (ι β : Type) where
  holds : Bucket (Authored β) → Prop
  permits : ι → Bucket (Authored β) → Nat → β → Prop
  empty : holds .empty
  put : ∀ {i B k b} (author : Nat), holds B → permits i B k b → B.find k = none → holds (B.put k ⟨author,b⟩)
  grown : ∀ {i B C k b}, B ≤ C → permits i B k b → permits i C k b

structure Caller (ι : Type) where
  id : Nat
  role : ι

/-- What one call sees: the store, its own put and the store at its last listing. -/
structure StoreWorld (β : Type) where
  bucket : Bucket (Authored β)
  upload : Upload β
  listed : Option (Bucket (Authored β))

section
variable {ι β ε μ α γ : Type} (D : Discipline ι β) (c : Caller ι) (faults : Prop)

def NotAuthored (B : Bucket (Authored β)) : Prop := ∀ k o, B.find k = some o → o.author ≠ c.id

def Upload.Recorded (B : Bucket (Authored β)) : Upload β → Prop
  | unsent => NotAuthored c B
  | denied => NotAuthored c B
  | inFlight k b => NotAuthored c B ∧ D.permits c.role B k b
  | stored k b => B.find k = some ⟨c.id,b⟩ ∧ D.permits c.role B k b
  | refused k _ => NotAuthored c B ∧ B.find k ≠ none

inductive Upload.Arrives : Upload β → Upload β → Prop where
  | same (u) : Arrives u u
  | stored (k b) : Arrives (.inFlight k b) (.stored k b)
  | refused (k b) : Arrives (.inFlight k b) (.refused k b)

inductive Upload.Putting (k : Nat) (b : β) : Upload β → Prop where
  | unsent : Putting k b .unsent
  | inFlight : Putting k b (.inFlight k b)
  | stored : Putting k b (.stored k b)
  | refused : Putting k b (.refused k b)

namespace StoreWorld

structure Valid (w : StoreWorld β) : Prop where
  bucket : D.holds w.bucket
  listed : ∀ B, w.listed = some B → D.holds B ∧ B ≤ w.bucket
  upload : w.upload.Recorded D c w.bucket

/-- What others and a late put of the call itself can do to it. -/
structure Evolves (w w' : StoreWorld β) : Prop where
  bucket : w.bucket ≤ w'.bucket
  listed : w'.listed = w.listed
  upload : w.upload.Arrives w'.upload
  valid : w'.Valid D c

/-- The same with listings of its own. -/
structure Continues (w w' : StoreWorld β) : Prop where
  bucket : w.bucket ≤ w'.bucket
  upload : w.upload.Arrives w'.upload
  valid : w'.Valid D c

def Attempts (k : Nat) (b : β) (w w' : StoreWorld β) : Prop :=
  ∃ u, (u = w.upload ∨ w.upload = .unsent ∧ u = .inFlight k b) ∧ Evolves D c { w with upload := u } w'

end StoreWorld

open StoreWorld

/-- The answers a slot can give that is asked in `B` and read in `B'`. -/
def Gives (B B' : Bucket (Authored β)) (settle : Nat → Except Fault (Option β) → Except ε (Option β))
    (slot : Nat × Option (Except ε (Option β))) (answer : Except ε (Option β)) : Prop :=
  match slot.2 with
  | some known => answer = known
  | none =>
    (∃ C, B ≤ C ∧ C ≤ B' ∧ D.holds C ∧ answer = settle slot.1 (.ok ((C.find slot.1).map (·.body)))) ∨
      faults ∧ ∃ fault, answer = settle slot.1 (.error fault)

namespace StoreClient

def Meets (Q : StoreWorld β → Except ε α → Prop) : StoreClient β ε μ α → StoreWorld β → Prop
  | finish r,w => Q w r
  | fetch settle slots next,w => ∀ w', Evolves D c w w' →
      (∀ found, List.Forall₂ (fun slot v => Gives D faults w.bucket w'.bucket settle slot (.ok v)) slots found →
        Meets Q (next (.ok found)) w') ∧
      ∀ slot ∈ slots, ∀ e, Gives D faults w.bucket w'.bucket settle slot (.error e) → Meets Q (next (.error e)) w'
  | list _ _ (some r) next,w => ∀ w', Evolves D c w w' → Meets Q (next r) w'
  | list k size none next,w => ∀ w', Evolves D c w w' →
      (∀ C limit, w.bucket ≤ C → C ≤ w'.bucket → D.holds C →
        Meets Q (next (.ok (C.page k (min size (limit + 1))))) { w' with listed := some C }) ∧
      (faults → ∀ fault, Meets Q (next (.error fault)) w')
  | put k b next,w => w.upload.Putting k b ∧ D.permits c.role w.bucket k b ∧ ∀ w', Attempts D c k b w w' →
      (w'.upload = .stored k b → Meets Q (next .created) w') ∧
      (w'.upload = .refused k b → Meets Q (next .uncertain) w') ∧
      (faults → Meets Q (next .uncertain) w' ∧
        (w'.upload = .inFlight k b → Meets Q (next .forbidden) { w' with upload := .denied }))
  | inspect next,w => ∀ m, Meets Q (next m) w
  | record _ next,w => Meets Q next w

end StoreClient

def StableUnder (Q : StoreWorld β → Except ε α → Prop) : Prop :=
  ∀ w w' r, Evolves D c w w' → Q w r → Q w' r

variable {D c faults} {w w' w'' : StoreWorld β} {Q R : StoreWorld β → Except ε α → Prop} {p : StoreClient β ε μ α}

/-! ### Growth -/

theorem Upload.Arrives.trans {u v x : Upload β} (first : u.Arrives v) (later : v.Arrives x) : u.Arrives x := by
  cases first with
  | same => exact later
  | stored k b => cases later; exact .stored k b
  | refused k b => cases later; exact .refused k b

theorem Upload.Arrives.unsent {u : Upload β} (arrives : u.Arrives .unsent) : u = .unsent := by
  cases arrives
  rfl

namespace StoreWorld

theorem Valid.refl (valid : w.Valid D c) : Evolves D c w w := ⟨le_refl _,rfl,.same _,valid⟩

theorem Evolves.trans (first : Evolves D c w w') (later : Evolves D c w' w'') : Evolves D c w w'' :=
  ⟨first.bucket.trans later.bucket,later.listed.trans first.listed,first.upload.trans later.upload,later.valid⟩

theorem Evolves.continues (h : Evolves D c w w') : Continues D c w w' := ⟨h.bucket,h.upload,h.valid⟩

theorem Valid.continues (valid : w.Valid D c) : Continues D c w w := valid.refl.continues

theorem Continues.trans (first : Continues D c w w') (later : Continues D c w' w'') : Continues D c w w'' :=
  ⟨first.bucket.trans later.bucket,first.upload.trans later.upload,later.valid⟩

theorem Continues.unsent (h : Continues D c w w') (unsent : w.upload = .unsent) : w'.upload = .unsent := by
  have arrives := h.upload
  rw [unsent] at arrives
  generalize w'.upload = u at arrives ⊢
  cases arrives
  rfl

theorem Valid.relisted {C : Bucket (Authored β)} (valid : w.Valid D c) (holds : D.holds C) (past : C ≤ w.bucket) :
    { w with listed := some C }.Valid D c where
  bucket := valid.bucket
  listed := by rintro _ ⟨⟩; exact ⟨holds,past⟩
  upload := valid.upload

theorem Evolves.withListed {listed : Option (Bucket (Authored β))} (moved : Evolves D c w w')
    (known : ∀ B, listed = some B → D.holds B ∧ B ≤ w.bucket) :
    Evolves D c { w with listed := listed } { w' with listed := listed } where
  bucket := moved.bucket
  listed := rfl
  upload := moved.upload
  valid := ⟨moved.valid.bucket,fun B same => ⟨(known B same).1,(known B same).2.trans moved.bucket⟩,moved.valid.upload⟩

theorem Attempts.after {k : Nat} {b : β} (moved : Evolves D c w w') (attempt : Attempts D c k b w' w'') :
    Attempts D c k b w w'' := by
  obtain ⟨u,kind,later⟩ := attempt
  rcases kind with rfl | ⟨unsent,rfl⟩
  · exact ⟨w.upload,.inl rfl,moved.trans later⟩
  · have before : w.upload = .unsent := Upload.Arrives.unsent (unsent ▸ moved.upload)
    exact ⟨_,.inr ⟨before,rfl⟩,⟨moved.bucket.trans later.bucket,later.listed.trans moved.listed,later.upload,later.valid⟩⟩

end StoreWorld

theorem Upload.Putting.arrives {k : Nat} {b : β} {u v : Upload β} (putting : u.Putting k b) (arrives : u.Arrives v) :
    v.Putting k b := by
  cases arrives with
  | same => exact putting
  | stored => cases putting; exact .stored
  | refused => cases putting; exact .refused

theorem Upload.Putting.ofStored {k k' : Nat} {b b' : β} {u : Upload β} (h : u.Putting k b)
    (same : u = .stored k' b') : u = .stored k b := by
  cases h <;> cases same
  rfl

theorem Upload.Putting.ofRefused {k k' : Nat} {b b' : β} {u : Upload β} (h : u.Putting k b)
    (same : u = .refused k' b') : u = .refused k b := by
  cases h <;> cases same
  rfl

theorem Upload.Putting.ofInFlight {k k' : Nat} {b b' : β} {u : Upload β} (h : u.Putting k b)
    (same : u = .inFlight k' b') : u = .inFlight k b := by
  cases h <;> cases same
  rfl

theorem NotAuthored.put {B : Bucket (Authored β)} {k d : Nat} {b : β} (others : NotAuthored c B) (ne : d ≠ c.id) :
    NotAuthored c (B.put k ⟨d,b⟩) := by
  intro k' o found
  by_cases same : k' = k
  · rw [same,Bucket.find_put_self] at found
    exact Option.some.inj found ▸ ne
  · exact others k' o (Bucket.find_put_ne same ▸ found)

theorem Upload.Recorded.put {u : Upload β} {B : Bucket (Authored β)} {k d : Nat} {b : β} (ne : d ≠ c.id)
    (absent : B.find k = none) (recorded : u.Recorded D c B) : u.Recorded D c (B.put k ⟨d,b⟩) := by
  have grown := Bucket.le_put (v := (⟨d,b⟩ : Authored β)) absent
  cases u with
  | unsent => exact NotAuthored.put recorded ne
  | denied => exact NotAuthored.put recorded ne
  | inFlight k' b' => exact ⟨recorded.1.put ne,D.grown grown recorded.2⟩
  | stored k' b' => exact ⟨Bucket.find_mono grown recorded.1,D.grown grown recorded.2⟩
  | refused k' b' =>
    refine ⟨recorded.1.put ne,?_⟩
    obtain ⟨o,found⟩ := Option.ne_none_iff_exists'.mp recorded.2
    simp [Bucket.find_mono grown found]

theorem Gives.after {B B' C : Bucket (Authored β)} {settle : Nat → Except Fault (Option β) → Except ε (Option β)}
    {slot : Nat × Option (Except ε (Option β))} {answer : Except ε (Option β)} (grown : C ≤ B)
    (h : Gives D faults B B' settle slot answer) : Gives D faults C B' settle slot answer := by
  unfold Gives at h ⊢
  split at h
  · exact h
  · exact h.imp_left fun ⟨E,from_,rest⟩ => ⟨E,grown.trans from_,rest⟩

theorem Gives.set {B B' : Bucket (Authored β)} {settle : Nat → Except Fault (Option β) → Except ε (Option β)}
    {slots : List (Nat × Option (Except ε (Option β)))} {found : List (Option β)} {i k : Nat}
    {a : Except ε (Option β)} (asked : slots[i]? = some (k,none)) (given : Gives D faults B B' settle (k,none) a)
    (h : List.Forall₂ (fun slot v => Gives D faults B B' settle slot (.ok v)) (slots.set i (k,some a)) found) :
    List.Forall₂ (fun slot v => Gives D faults B B' settle slot (.ok v)) slots found := by
  induction slots generalizing i found with
  | nil => simp at asked
  | cons slot slots ih =>
    cases i with
    | zero =>
      obtain rfl : slot = (k,none) := by simpa using asked
      cases h with
      | cons first rest => exact .cons (Eq.symm first ▸ given) rest
    | succ i =>
      cases h with
      | cons first rest => exact .cons first (ih (by simpa using asked) rest)

namespace StoreClient

theorem Meets.evolve (stable : StableUnder D c Q) (moved : Evolves D c w w') (h : Meets D c faults Q p w) :
    Meets D c faults Q p w' := by
  induction p generalizing w with
  | finish r => exact stable _ _ _ moved h
  | fetch settle slots next =>
    intro v later
    obtain ⟨good,bad⟩ := h v (moved.trans later)
    refine ⟨fun found given => good found (given.imp fun _ _ => Gives.after moved.bucket),fun slot listed e given => ?_⟩
    exact bad slot listed e (given.after moved.bucket)
  | list k size answer next =>
    cases answer with
    | some r => exact fun v later => h v (moved.trans later)
    | none =>
      intro v later
      obtain ⟨good,bad⟩ := h v (moved.trans later)
      exact ⟨fun C limit low => good C limit (moved.bucket.trans low),bad⟩
  | put k b next =>
    obtain ⟨putting,permits,rest⟩ := h
    exact ⟨putting.arrives moved.upload,D.grown moved.bucket permits,fun v attempt => rest v (attempt.after moved)⟩
  | inspect next ih => exact fun m => ih m moved (h m)
  | record m next ih => exact ih moved h

/-! ### Rules -/

theorem Meets.mono (implies : ∀ w r, Q w r → R w r) (h : Meets D c faults Q p w) : Meets D c faults R p w := by
  induction p generalizing w with
  | finish r => exact implies _ _ h
  | fetch settle slots next ih =>
    intro v moved
    obtain ⟨good,bad⟩ := h v moved
    exact ⟨fun found given => ih _ (good found given),fun slot listed e given => ih _ (bad slot listed e given)⟩
  | list k size answer next ih =>
    cases answer with
    | some r => exact fun v moved => ih _ (h v moved)
    | none =>
      intro v moved
      obtain ⟨good,bad⟩ := h v moved
      exact ⟨fun C limit low high holds => ih _ (good C limit low high holds),fun f fault => ih _ (bad f fault)⟩
  | put k b next ih =>
    obtain ⟨putting,permits,rest⟩ := h
    refine ⟨putting,permits,fun v attempt => ?_⟩
    obtain ⟨created,refused,faulty⟩ := rest v attempt
    exact ⟨fun e => ih _ (created e),fun e => ih _ (refused e),
      fun f => ⟨ih _ (faulty f).1,fun e => ih _ ((faulty f).2 e)⟩⟩
  | inspect next ih => exact fun m => ih m (h m)
  | record m next ih => exact ih h

theorem Meets.andThen {f : Except ε α → StoreClient β ε μ γ} {R : StoreWorld β → Except ε γ → Prop}
    (h : Meets D c faults (fun w r => Meets D c faults R (f r) w) p w) : Meets D c faults R (p.andThen f) w := by
  induction p generalizing w with
  | finish r => exact h
  | fetch settle slots next ih =>
    intro v moved
    obtain ⟨good,bad⟩ := h v moved
    exact ⟨fun found given => ih _ (good found given),fun slot listed e given => ih _ (bad slot listed e given)⟩
  | list k size answer next ih =>
    cases answer with
    | some r => exact fun v moved => ih _ (h v moved)
    | none =>
      intro v moved
      obtain ⟨good,bad⟩ := h v moved
      exact ⟨fun C limit low high holds => ih _ (good C limit low high holds),fun f fault => ih _ (bad f fault)⟩
  | put k b next ih =>
    obtain ⟨putting,permits,rest⟩ := h
    refine ⟨putting,permits,fun v attempt => ?_⟩
    obtain ⟨created,refused,faulty⟩ := rest v attempt
    exact ⟨fun e => ih _ (created e),fun e => ih _ (refused e),
      fun f => ⟨ih _ (faulty f).1,fun e => ih _ ((faulty f).2 e)⟩⟩
  | inspect next ih => exact fun m => ih m (h m)
  | record m next ih => exact ih h

theorem Meets.bind {f : α → StoreClient β ε μ γ} {R : StoreWorld β → Except ε γ → Prop}
    (h : Meets D c faults (fun w r => match r with
      | .ok a => Meets D c faults R (f a) w
      | .error e => R w (.error e)) p w) : Meets D c faults R (p >>= f) w :=
  Meets.andThen (h.mono fun _ r met => by cases r <;> exact met)

theorem Meets.recover {handle : ε → StoreClient β ε μ α}
    (h : Meets D c faults (fun w r => match r with
      | .ok a => Q w (.ok a)
      | .error e => Meets D c faults Q (handle e) w) p w) : Meets D c faults Q (p.recover handle) w :=
  Meets.andThen (h.mono fun _ r met => by cases r <;> exact met)

theorem Meets.ask {settle : Nat → Except Fault (Option β) → Except ε (Option β)} {ks : List Nat}
    {next : Except ε (List (Option β)) → StoreClient β ε μ α}
    (good : ∀ w' found, Continues D c w w' →
      List.Forall₂ (fun k v => Gives D faults w.bucket w'.bucket settle (k,none) (.ok v)) ks found →
      Meets D c faults Q (next (.ok found)) w')
    (bad : ∀ w' k e, Continues D c w w' → k ∈ ks → Gives D faults w.bucket w'.bucket settle (k,none) (.error e) →
      Meets D c faults Q (next (.error e)) w') :
    Meets D c faults Q (fetch settle (ks.map fun k => (k,none)) next) w := by
  refine fun v moved => ⟨fun found given => good v found moved.continues (List.forall₂_map_left_iff.mp given),?_⟩
  intro slot listed e given
  obtain ⟨k,asked,rfl⟩ := List.mem_map.mp listed
  exact bad v k e moved.continues asked given

theorem Meets.lists {k size : Nat} {next : Except Fault Page → StoreClient β ε μ α}
    (good : ∀ w' C limit, Continues D c w w' → w'.listed = some C → w.bucket ≤ C → C ≤ w'.bucket → D.holds C →
      Meets D c faults Q (next (.ok (C.page k (min size (limit + 1))))) w')
    (bad : faults → ∀ w' fault, Continues D c w w' → Meets D c faults Q (next (.error fault)) w') :
    Meets D c faults Q (list k size none next) w := by
  refine fun v moved => ⟨fun C limit low high holds => ?_,fun f fault => bad f v fault moved.continues⟩
  have relisted := moved.valid.relisted holds high
  exact good _ C limit ⟨moved.bucket,moved.upload,relisted⟩ rfl low high holds

/-! ### Own steps -/

theorem Meets.advance (m : μ) (h : Meets D c faults Q p w) : Meets D c faults Q (p.advance m).2 w := by
  induction p generalizing m with
  | inspect next ih => exact ih m m (h m)
  | record m' next ih => exact ih m' h
  | finish | fetch | list | put => exact h

theorem Meets.answered {settle : Nat → Except Fault (Option β) → Except ε (Option β)}
    {slots : List (Nat × Option (Except ε (Option β)))} {next : Except ε (List (Option β)) → StoreClient β ε μ α}
    {i k : Nat} {a : Except ε (Option β)} (asked : slots[i]? = some (k,none))
    (given : ∀ v, Evolves D c w v → Gives D faults w.bucket v.bucket settle (k,none) a)
    (h : Meets D c faults Q (fetch settle slots next) w) :
    Meets D c faults Q (fetch settle (slots.set i (k,some a)) next) w := by
  intro v moved
  obtain ⟨good,bad⟩ := h v moved
  refine ⟨fun found all => good found (Gives.set asked (given v moved) all),fun slot listed e answer => ?_⟩
  rcases List.mem_or_eq_of_mem_set listed with old | rfl
  · exact bad slot old e answer
  · exact bad _ (List.mem_of_getElem? asked) e (Eq.symm answer ▸ given v moved)

theorem Meets.serve {slot limit : Nat} {p' : StoreClient β ε μ α} (valid : w.Valid D c) (h : Meets D c faults Q p w)
    (served : p.serve w.bucket slot limit = some p') :
    Meets D c faults Q p' { w with listed := if p.lists then some w.bucket else w.listed } := by
  cases p with
  | fetch settle slots next =>
    simp only [StoreClient.serve] at served
    split at served <;> cases served
    rename_i k asked
    exact Meets.answered asked (fun v moved => .inl ⟨w.bucket,le_refl _,moved.bucket,valid.bucket,rfl⟩) h
  | list k size answer next =>
    cases answer with
    | some r => cases served
    | none =>
      cases served
      intro v moved
      have back : Evolves D c w { v with listed := w.listed } := moved.withListed valid.listed
      have result := (h _ back).1 w.bucket limit (le_refl _) moved.bucket valid.bucket
      have here : v.listed = some w.bucket := moved.listed
      rwa [← here] at result
  | finish | put | inspect | record => cases served

theorem Meets.fail {slot : Nat} {fault : Fault} {p' : StoreClient β ε μ α} (faulty : faults)
    (h : Meets D c faults Q p w) (failed : p.fail slot fault = some p') : Meets D c faults Q p' w := by
  cases p with
  | fetch settle slots next =>
    simp only [StoreClient.fail] at failed
    split at failed <;> cases failed
    rename_i k asked
    exact Meets.answered asked (fun v moved => .inr ⟨faulty,fault,rfl⟩) h
  | list k size answer next =>
    cases answer with
    | some r => cases failed
    | none =>
      cases failed
      exact fun v moved => (h v moved).2 faulty fault
  | finish | put | inspect | record => cases failed

theorem valuesAll {slots : List (Nat × Option (Except ε (Option β)))} {found : List (Option β)}
    (h : values slots = some found) : List.Forall₂ (fun slot v => slot.2 = some (.ok v)) slots found := by
  induction slots generalizing found with
  | nil => cases h; exact .nil
  | cons slot slots ih =>
    simp only [values,List.mapM_cons,Bind.bind,Pure.pure,Option.bind_eq_some_iff,Option.some.injEq] at h
    obtain ⟨v,known,rest,all,rfl⟩ := h
    refine .cons ?_ (ih all)
    obtain ⟨answer,known,ok⟩ := known
    cases answer with
    | error e => cases ok
    | ok v => cases ok; exact known

theorem wakes {settle : Nat → Except Fault (Option β) → Except ε (Option β)}
    {slots : List (Nat × Option (Except ε (Option β)))} {next : Except ε (List (Option β)) → StoreClient β ε μ α}
    (answered : ∀ slot ∈ slots, slot.2 ≠ none) : ∃ i r, (fetch settle slots next).wake i = some (next r) := by
  by_cases failed : ∃ (i : Nat) (e : ε), slots[i]?.bind Prod.snd = some (Except.error e)
  · obtain ⟨i,e,failed⟩ := failed
    exact ⟨i,.error e,by simp [StoreClient.wake,failed]⟩
  · have all : ∃ found, values slots = some found := by
      have regular : ∀ slot ∈ slots, ∃ v, slot.2 = some (.ok v) := by
        intro slot listed
        obtain ⟨i,at_⟩ := List.getElem?_of_mem listed
        cases known : slot.2 with
        | none => exact absurd known (answered slot listed)
        | some r =>
          cases r with
          | error e => exact absurd ⟨i,e,by rw [at_]; exact known⟩ failed
          | ok v => exact ⟨v,rfl⟩
      clear answered failed
      induction slots with
      | nil => exact ⟨[],rfl⟩
      | cons slot slots ih =>
        obtain ⟨v,known⟩ := regular slot List.mem_cons_self
        obtain ⟨found,rest⟩ := ih fun other listed => regular other (List.mem_cons_of_mem _ listed)
        refine ⟨v::found,?_⟩
        simp only [values] at rest ⊢
        simp [List.mapM_cons,known,rest,Except.toOption]
    obtain ⟨found,all⟩ := all
    refine ⟨0,.ok found,?_⟩
    simp only [StoreClient.wake]
    split
    · rename_i e known
      exact absurd ⟨0,e,known⟩ failed
    · rw [all]
      rfl

theorem Meets.wake {slot : Nat} {p' : StoreClient β ε μ α} (valid : w.Valid D c) (h : Meets D c faults Q p w)
    (woken : p.wake slot = some p') : Meets D c faults Q p' w := by
  cases p with
  | fetch settle slots next =>
    obtain ⟨good,bad⟩ := h w valid.refl
    simp only [StoreClient.wake] at woken
    split at woken
    · rename_i e failed
      cases woken
      obtain ⟨row,found,known⟩ := Option.bind_eq_some_iff.mp failed
      exact bad row (List.mem_of_getElem? found) e (by rw [Gives,known])
    · obtain ⟨found,all,rfl⟩ := Option.map_eq_some_iff.mp woken
      exact good found ((valuesAll all).imp fun row v known => by rw [Gives,known])
  | list k size answer next =>
    cases answer with
    | some r => cases woken; exact h w valid.refl
    | none => cases woken
  | finish | put | inspect | record => cases woken

end StoreClient
end
