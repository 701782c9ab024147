import Proxyshop.Policy.Durable
import Mathlib.Data.Fintype.Basic

/-!
# The book at rest

What one pair can look like while calls are under way, and that the book is consistent whenever none is.
-/

namespace Proxyshop.Policy

open Python Structures

/-! ## Sorted sets -/

namespace Book

variable {pairs : Dict Str ℚ} {count : Nat} {member : Str}

theorem mem_keys_of_lowest (popped : member ∈ lowest pairs count) : member ∈ Dict.keys pairs := by
  obtain ⟨entry, taken, rfl⟩ := List.mem_map.mp popped
  have sorted := List.mem_of_mem_take taken
  exact List.mem_map_of_mem ((List.perm_insertionSort _ _).subset sorted)

theorem nodup_lowest (distinct : (Dict.keys pairs).Nodup) : (lowest pairs count).Nodup := by
  have sorted : ((pairs.insertionSort fun entry entry' => ranked entry entry').map Prod.fst).Nodup :=
    ((List.perm_insertionSort _ _).map _).nodup_iff.mpr distinct
  exact sorted.sublist ((List.take_sublist _ _).map _)

theorem length_lowest : (lowest pairs count).length = min count pairs.length := by
  rw [lowest, List.length_map, List.length_take, List.length_insertionSort]

theorem length_popped (distinct : (Dict.keys pairs).Nodup) :
    (pairs.filter fun entry => entry.1 ∉ lowest pairs count).length ≤ pairs.length - count := by
  have popped : (lowest pairs count).length ≤
      (pairs.filter fun entry => entry.1 ∈ lowest pairs count).length := by
    rw [← List.length_map (f := Prod.fst)]
    apply List.Subperm.length_le
    apply List.subperm_of_subset (nodup_lowest distinct)
    intro member taken
    obtain ⟨entry, inside, rfl⟩ := List.mem_map.mp (mem_keys_of_lowest taken)
    exact List.mem_map_of_mem (List.mem_filter.mpr ⟨inside, decide_eq_true taken⟩)
  have split := List.length_eq_length_filter_add (l := pairs) fun entry => decide (entry.1 ∈ lowest pairs count)
  have same : (pairs.filter fun entry => !decide (entry.1 ∈ lowest pairs count))
      = pairs.filter fun entry => entry.1 ∉ lowest pairs count := by
    congr 1
    funext entry
    simp
  rw [same] at split
  rw [length_lowest] at popped
  omega

end Book

/-! ## One pair -/

section Standing

variable {ι : Type} (outcomes : ι → Outcome) (s : History ι) (member : Str)

/-- A call has popped the pair and has not deleted its fields. -/
def Leaves : Prop := ∃ j, member ∈ (s.stages j).leaving

def Recorded : Prop := ∃ j, s.stages j ≠ .idle ∧ (outcomes j).member = member

def Unseeded : Prop :=
  ∀ j, (outcomes j).member = member → s.stages j ≠ .halfSeeded ∧ s.stages j ≠ .seeded

inductive Standing : Prop
  | absent (unset : ∀ half, Dict.get? s.book.posteriors (member, half) = none)
      (stays : ¬ Leaves s member) (unseeded : Unseeded outcomes s member)
      (uncounted : s.outcomes member = 0)
      (listed : member ∈ Dict.keys s.book.pairs → Recorded outcomes s member)
  | leaving (leaves : Leaves s member) (unseeded : Unseeded outcomes s member)
      (uncounted : s.outcomes member = 0)
      (listed : member ∈ Dict.keys s.book.pairs → Recorded outcomes s member)
  | half (seeder : ι) (seeded : s.seeder member = some seeder) (own : (outcomes seeder).member = member)
      (alpha : Dict.get? s.book.posteriors (member, .alpha) = some (outcomes seeder).prior.alpha)
      (beta : Dict.get? s.book.posteriors (member, .beta) = none) (stays : ¬ Leaves s member)
      (uncounted : s.outcomes member = 0) (recorded : Recorded outcomes s member)
      (unfinished : ∀ j, (outcomes j).member = member → s.stages j ≠ .seeded)
  | whole (seeder : ι) (seeded : s.seeder member = some seeder) (own : (outcomes seeder).member = member)
      (alpha beta : ℚ) (alpha_eq : Dict.get? s.book.posteriors (member, .alpha) = some alpha)
      (beta_eq : Dict.get? s.book.posteriors (member, .beta) = some beta)
      (sum : alpha + beta = (outcomes seeder).prior.mass + s.outcomes member)
      (stays : ¬ Leaves s member) (listed : member ∈ Dict.keys s.book.pairs)

variable {outcomes s member}

/-- A pair whose fields, counts and seeder are as they were, and whose calls have not come closer to
seeding it, stands where it stood. -/
theorem Standing.frame {s' : History ι} (standing : Standing outcomes s member)
    (fields : ∀ half, Dict.get? s'.book.posteriors (member, half)
      = Dict.get? s.book.posteriors (member, half))
    (counted : s'.outcomes member = s.outcomes member) (seeder : s'.seeder member = s.seeder member)
    (leaves : Leaves s' member ↔ Leaves s member)
    (stages : ∀ j, (outcomes j).member = member →
      (s'.stages j = .halfSeeded → s.stages j = .halfSeeded) ∧
        (s'.stages j = .seeded → s.stages j = .seeded))
    (recorded : Recorded outcomes s member → Recorded outcomes s' member)
    (kept : member ∈ Dict.keys s.book.pairs → member ∈ Dict.keys s'.book.pairs)
    (listed : member ∈ Dict.keys s'.book.pairs →
      member ∈ Dict.keys s.book.pairs ∨ Recorded outcomes s' member) :
    Standing outcomes s' member := by
  have unseeded (none : Unseeded outcomes s member) : Unseeded outcomes s' member := fun j own =>
    ⟨fun here => (none j own).1 ((stages j own).1 here), fun here => (none j own).2 ((stages j own).2 here)⟩
  have still (before : member ∈ Dict.keys s.book.pairs → Recorded outcomes s member)
      (there : member ∈ Dict.keys s'.book.pairs) : Recorded outcomes s' member :=
    (listed there).elim (fun held => recorded (before held)) id
  cases standing with
  | absent unset stays none uncounted before =>
      exact .absent (fun half => (fields half).trans (unset half)) (mt leaves.mp stays) (unseeded none)
        (counted.trans uncounted) (still before)
  | leaving away none uncounted before =>
      exact .leaving (leaves.mpr away) (unseeded none) (counted.trans uncounted) (still before)
  | half seed seeded own alpha beta stays uncounted under_way unfinished =>
      exact .half seed (seeder.trans seeded) own ((fields _).trans alpha) ((fields _).trans beta)
        (mt leaves.mp stays) (counted.trans uncounted) (recorded under_way)
        fun j mine here => unfinished j mine ((stages j mine).2 here)
  | whole seed seeded own alpha beta alpha_eq beta_eq sum stays held =>
      exact .whole seed (seeder.trans seeded) own alpha beta ((fields _).trans alpha_eq)
        ((fields _).trans beta_eq) (counted.symm ▸ sum) (mt leaves.mp stays) (kept held)

end Standing

/-! ## Every pair -/

section Steps

variable {ι : Type} [DecidableEq ι] {maxPairs : Nat} {outcomes : ι → Outcome} {s : History ι} {i : ι}

/-- The set is over its bound only while a call has still to count or to pop. -/
def Bounded (maxPairs : Nat) (s : History ι) : Prop :=
  s.book.pairs.length ≤ maxPairs ∨ (∃ i, s.stages i = .touched) ∨
    ∃ i overflow, s.stages i = .counted overflow ∧ s.book.pairs.length ≤ maxPairs + overflow

structure Invariant (maxPairs : Nat) (outcomes : ι → Outcome) (s : History ι) : Prop where
  standing : ∀ member, Standing outcomes s member
  listed : ∀ j, s.stages j ≠ .idle → (outcomes j).member ∈ Dict.keys s.book.pairs
  apart : ∀ j k member, member ∈ (s.stages j).leaving → member ∈ (s.stages k).leaving → j = k
  once : ∀ j, (s.stages j).leaving.Nodup
  distinct : (Dict.keys s.book.pairs).Nodup
  bounded : Bounded maxPairs s

theorem leaves_update {stage : Stage} (same : stage.leaving = (s.stages i).leaving) (book : Book)
    (counts : Str → Nat) (seeders : Str → Option ι) (member : Str) :
    Leaves ⟨book, Function.update s.stages i stage, counts, seeders⟩ member ↔ Leaves s member := by
  unfold Leaves
  apply exists_congr
  intro j
  dsimp only
  by_cases mine : j = i
  · subst mine
    rw [Function.update_self, same]
  · rw [Function.update_of_ne mine]

theorem recorded_update {stage : Stage} (under_way : stage ≠ .idle) {book : Book}
    {counts : Str → Nat} {seeders : Str → Option ι} {member : Str}
    (recorded : Recorded outcomes s member) :
    Recorded outcomes ⟨book, Function.update s.stages i stage, counts, seeders⟩ member := by
  obtain ⟨j, busy, own⟩ := recorded
  refine ⟨j, ?_, own⟩
  dsimp only
  by_cases mine : j = i
  · subst mine
    rw [Function.update_self]
    exact under_way
  · rw [Function.update_of_ne mine]
    exact busy

theorem stages_update {stage : Stage} {member : Str}
    (closer : (outcomes i).member = member → (stage = .halfSeeded → s.stages i = .halfSeeded) ∧
      (stage = .seeded → s.stages i = .seeded)) (j : ι) (own : (outcomes j).member = member) :
    (Function.update s.stages i stage j = .halfSeeded → s.stages j = .halfSeeded) ∧
      (Function.update s.stages i stage j = .seeded → s.stages j = .seeded) := by
  by_cases mine : j = i
  · subst mine
    rw [Function.update_self]
    exact closer own
  · rw [Function.update_of_ne mine]
    exact ⟨id, id⟩

theorem listed_update {stage : Stage} {pairs : Dict Str ℚ}
    (listed : ∀ j, s.stages j ≠ .idle → (outcomes j).member ∈ Dict.keys pairs)
    (own : stage ≠ .idle → (outcomes i).member ∈ Dict.keys pairs) (j : ι)
    (busy : Function.update s.stages i stage j ≠ .idle) : (outcomes j).member ∈ Dict.keys pairs := by
  by_cases mine : j = i
  · subst mine
    rw [Function.update_self] at busy
    exact own busy
  · rw [Function.update_of_ne mine] at busy
    exact listed j busy

theorem apart_update {stage : Stage}
    (apart : ∀ j k member, member ∈ (s.stages j).leaving → member ∈ (s.stages k).leaving → j = k)
    (fewer : ∀ member ∈ stage.leaving, member ∈ (s.stages i).leaving) (j k : ι) (member : Str)
    (left : member ∈ (Function.update s.stages i stage j).leaving)
    (right : member ∈ (Function.update s.stages i stage k).leaving) : j = k := by
  have before (j : ι) (leaves : member ∈ (Function.update s.stages i stage j).leaving) :
      member ∈ (s.stages j).leaving := by
    by_cases mine : j = i
    · subst mine
      rw [Function.update_self] at leaves
      exact fewer member leaves
    · rwa [Function.update_of_ne mine] at leaves
  exact apart j k member (before j left) (before k right)

theorem once_update {stage : Stage} (once : ∀ j, (s.stages j).leaving.Nodup)
    (own : stage.leaving.Nodup) (j : ι) : (Function.update s.stages i stage j).leaving.Nodup := by
  by_cases mine : j = i
  · subst mine
    rwa [Function.update_self]
  · rw [Function.update_of_ne mine]
    exact once j

theorem Bounded.update {stage : Stage} {s' : History ι} (bounded : Bounded maxPairs s)
    (fewer : s'.book.pairs.length ≤ s.book.pairs.length)
    (stages : s'.stages = Function.update s.stages i stage) (uncounted : s.stages i ≠ .touched)
    (unpopped : ∀ overflow, s.stages i = .counted overflow → overflow = 0) : Bounded maxPairs s' := by
  unfold Bounded
  rw [stages]
  rcases bounded with within | ⟨j, touched⟩ | ⟨j, overflow, counted, within⟩
  · exact .inl (fewer.trans within)
  · have other : j ≠ i := by
      rintro rfl
      exact uncounted touched
    exact .inr (.inl ⟨j, (Function.update_of_ne other ..).trans touched⟩)
  · by_cases mine : j = i
    · subst mine
      rw [unpopped overflow counted] at within
      exact .inl (fewer.trans within)
    · exact .inr (.inr ⟨j, overflow, (Function.update_of_ne mine ..).trans counted, fewer.trans within⟩)

theorem mem_keys_set {pairs : Dict Str ℚ} {member member' : Str} {score : ℚ} :
    member' ∈ Dict.keys (Dict.set pairs member score) ↔ member' = member ∨ member' ∈ Dict.keys pairs := by
  rw [← Dict.contains_iff, ← Dict.contains_iff, Dict.contains, Dict.contains, Dict.get?_set]
  split <;> simp_all

theorem Invariant.zadd (invariant : Invariant maxPairs outcomes s) (idle : s.stages i = .idle)
    (clock : ℚ) : Invariant maxPairs outcomes { s with
      book := { s.book with pairs := Dict.set s.book.pairs (outcomes i).member clock }
      stages := Function.update s.stages i .touched } where
  standing member := by
    have leaves := @leaves_update ι _ s i .touched (by rw [idle]; rfl)
    refine (invariant.standing member).frame (fun _ => rfl) rfl rfl (leaves _ _ _ member)
      (stages_update fun _ => ⟨nofun, nofun⟩) (recorded_update (by simp))
      (fun held => mem_keys_set.mpr (.inr held)) ?_
    intro held
    rcases mem_keys_set.mp held with rfl | before
    · exact .inr ⟨i, by simp, rfl⟩
    · exact .inl before
  listed := listed_update (fun j busy => mem_keys_set.mpr (.inr (invariant.listed j busy)))
    fun _ => mem_keys_set.mpr (.inl rfl)
  apart := apart_update invariant.apart nofun
  once := once_update invariant.once List.nodup_nil
  distinct := Dict.nodup_keys_set invariant.distinct _ _
  bounded := .inr (.inl ⟨i, Function.update_self ..⟩)

theorem Invariant.zcard (invariant : Invariant maxPairs outcomes s) (touched : s.stages i = .touched) :
    Invariant maxPairs outcomes { s with
      stages := Function.update s.stages i (.counted (s.book.pairs.length - maxPairs)) } where
  standing member := (invariant.standing member).frame (fun _ => rfl) rfl rfl
    (leaves_update (by rw [touched]; rfl) _ _ _ member) (stages_update fun _ => ⟨nofun, nofun⟩)
    (recorded_update (by simp)) id .inl
  listed := listed_update invariant.listed fun _ => invariant.listed i (by simp [touched])
  apart := apart_update invariant.apart nofun
  once := once_update invariant.once List.nodup_nil
  distinct := invariant.distinct
  bounded := .inr (.inr ⟨i, _, Function.update_self .., by
    show s.book.pairs.length ≤ _
    omega⟩)

omit [DecidableEq ι] in
theorem Invariant.stays_of_unrecorded (invariant : Invariant maxPairs outcomes s) {member : Str}
    (listed : member ∈ Dict.keys s.book.pairs) (unrecorded : ¬ Recorded outcomes s member) :
    ¬ Leaves s member := by
  cases invariant.standing member with
  | absent unset stays => exact stays
  | leaving leaves unseeded uncounted recorded => exact absurd (recorded listed) unrecorded
  | half seeder seeded own alpha beta stays => exact stays
  | whole seeder seeded own alpha beta alpha_eq beta_eq sum stays => exact stays

def popped (s : History ι) (i : ι) (taken : List Str) : History ι where
  book := { s.book with pairs := s.book.pairs.filter fun entry => entry.1 ∉ taken }
  stages := Function.update s.stages i (.evicting taken)
  outcomes := fun member => if member ∈ taken then 0 else s.outcomes member
  seeder := s.seeder

theorem mem_keys_popped {taken : List Str} {member : Str} :
    member ∈ Dict.keys (popped s i taken).book.pairs ↔
      member ∈ Dict.keys s.book.pairs ∧ member ∉ taken := by
  simp only [popped, Dict.keys, List.mem_map, List.mem_filter, decide_eq_true_iff]
  constructor
  · rintro ⟨entry, ⟨inside, left⟩, rfl⟩
    exact ⟨⟨entry, inside, rfl⟩, left⟩
  · rintro ⟨⟨entry, inside, rfl⟩, left⟩
    exact ⟨entry, ⟨inside, left⟩, rfl⟩

theorem leaves_popped {taken : List Str} (none : (s.stages i).leaving = []) (member : Str) :
    Leaves (popped s i taken) member ↔ Leaves s member ∨ member ∈ taken := by
  unfold Leaves popped
  dsimp only
  constructor
  · rintro ⟨j, leaves⟩
    by_cases mine : j = i
    · subst mine
      rw [Function.update_self] at leaves
      exact .inr leaves
    · rw [Function.update_of_ne mine] at leaves
      exact .inl ⟨j, leaves⟩
  · rintro (⟨j, leaves⟩ | now)
    · have mine : j ≠ i := by
        rintro rfl
        rw [none] at leaves
        cases leaves
      exact ⟨j, by rwa [Function.update_of_ne mine]⟩
    · exact ⟨i, by rwa [Function.update_self]⟩

theorem Bounded.popped {overflow : Nat} (bounded : Bounded maxPairs s)
    (distinct : (Dict.keys s.book.pairs).Nodup) (counted : s.stages i = .counted overflow) :
    Bounded maxPairs (popped s i (Book.lowest s.book.pairs overflow)) := by
  have fewer : (Policy.popped s i (Book.lowest s.book.pairs overflow)).book.pairs.length
      ≤ s.book.pairs.length - overflow := Book.length_popped distinct
  rcases bounded with within | ⟨j, touched⟩ | ⟨j, excess, counted', within⟩
  · exact .inl (fewer.trans ((Nat.sub_le _ _).trans within))
  · have other : j ≠ i := by
      rintro rfl
      rw [counted] at touched
      cases touched
    exact .inr (.inl ⟨j, (Function.update_of_ne other ..).trans touched⟩)
  · by_cases mine : j = i
    · subst mine
      rw [counted] at counted'
      cases counted'
      exact .inl (fewer.trans (Nat.sub_le_of_le_add within))
    · exact .inr (.inr ⟨j, excess, (Function.update_of_ne mine ..).trans counted',
        (fewer.trans (Nat.sub_le _ _)).trans within⟩)

theorem Standing.popped {taken : List Str} (none : (s.stages i).leaving = [])
    (unrecorded : ∀ member ∈ taken, ¬ Recorded outcomes s member) {member : Str}
    (standing : Standing outcomes s member) : Standing outcomes (popped s i taken) member := by
  have leaves := @leaves_popped ι _ s i taken none member
  by_cases now : member ∈ taken
  · refine .leaving (leaves.mpr (.inr now)) ?_ (if_pos now) ?_
    · intro j own
      show Function.update s.stages i (.evicting taken) j ≠ _ ∧
        Function.update s.stages i (.evicting taken) j ≠ _
      by_cases mine : j = i
      · subst mine
        rw [Function.update_self]
        exact ⟨nofun, nofun⟩
      · have idle : s.stages j = .idle := by
          by_contra busy
          exact unrecorded member now ⟨j, busy, own⟩
        rw [Function.update_of_ne mine, idle]
        exact ⟨nofun, nofun⟩
    · exact fun held => absurd now (mem_keys_popped.mp held).2
  · exact standing.frame (fun _ => rfl) (if_neg now) rfl (leaves.trans (or_iff_left now))
      (stages_update fun _ => ⟨nofun, nofun⟩) (recorded_update (by simp))
      (fun held => mem_keys_popped.mpr ⟨held, now⟩) (fun held => .inl (mem_keys_popped.mp held).1)

theorem Invariant.zpopmin (invariant : Invariant maxPairs outcomes s) {overflow : Nat}
    (counted : s.stages i = .counted overflow) (orderly : Orderly outcomes s (.zpopmin overflow)) :
    Invariant maxPairs outcomes (popped s i (Book.lowest s.book.pairs overflow)) := by
  have none : (s.stages i).leaving = [] := by rw [counted]; rfl
  have unrecorded : ∀ member ∈ Book.lowest s.book.pairs overflow, ¬ Recorded outcomes s member := by
    rintro member taken ⟨j, busy, own⟩
    exact orderly member taken j busy own
  have staying : ∀ member ∈ Book.lowest s.book.pairs overflow, ¬ Leaves s member := fun member taken =>
    invariant.stays_of_unrecorded (Book.mem_keys_of_lowest taken) (unrecorded member taken)
  have kept (j : ι) (busy : s.stages j ≠ .idle) :
      (outcomes j).member ∈ Dict.keys (popped s i (Book.lowest s.book.pairs overflow)).book.pairs :=
    mem_keys_popped.mpr ⟨invariant.listed j busy, fun taken => unrecorded _ taken ⟨j, busy, rfl⟩⟩
  refine
    { standing := fun member => (invariant.standing member).popped none unrecorded
      listed := listed_update kept fun _ => kept i (by simp [counted])
      apart := ?_
      once := once_update invariant.once (Book.nodup_lowest invariant.distinct)
      distinct := invariant.distinct.sublist (List.filter_sublist.map _)
      bounded := invariant.bounded.popped invariant.distinct counted }
  intro j k member left right
  dsimp only [popped] at left right
  by_cases mine : j = i <;> by_cases yours : k = i
  · rw [mine, yours]
  · subst mine
    rw [Function.update_self] at left
    rw [Function.update_of_ne yours] at right
    exact absurd ⟨k, right⟩ (staying member left)
  · subst yours
    rw [Function.update_self] at right
    rw [Function.update_of_ne mine] at left
    exact absurd ⟨j, left⟩ (staying member right)
  · rw [Function.update_of_ne mine] at left
    rw [Function.update_of_ne yours] at right
    exact invariant.apart j k member left right

theorem Invariant.hdel (invariant : Invariant maxPairs outcomes s) {stale : Str} {rest : List Str}
    (evicting : s.stages i = .evicting (stale :: rest)) :
    Invariant maxPairs outcomes { s with
      book := { s.book with posteriors := s.book.posteriors.filter fun field => field.1.1 ≠ stale }
      stages := Function.update s.stages i (.evicting rest) } := by
  have mine : (s.stages i).leaving = stale :: rest := by rw [evicting]; rfl
  have once := invariant.once i
  rw [mine, List.nodup_cons] at once
  have busy : s.stages i ≠ .idle := by simp [evicting]
  have gone (j : ι) : stale ∉ (Function.update s.stages i (.evicting rest) j).leaving := by
    intro leaves
    by_cases own : j = i
    · subst own
      rw [Function.update_self] at leaves
      exact once.1 leaves
    · rw [Function.update_of_ne own] at leaves
      exact own (invariant.apart j i stale leaves (mine ▸ List.mem_cons_self))
  have fields (member : Str) (half : Half) :
      Dict.get? (s.book.posteriors.filter fun field => field.1.1 ≠ stale) (member, half)
        = if member ≠ stale then Dict.get? s.book.posteriors (member, half) else none := by
    rw [Dict.get?_filter (fun field : Str × Half => decide (field.1 ≠ stale))]
    simp
  refine
    { standing := ?_
      listed := listed_update invariant.listed fun _ => invariant.listed i busy
      apart := apart_update invariant.apart fun member left => mine ▸ List.mem_cons_of_mem _ left
      once := once_update invariant.once once.2
      distinct := invariant.distinct
      bounded := invariant.bounded.update le_rfl rfl (by simp [evicting]) (by simp [evicting]) }
  intro member
  by_cases own : member = stale
  · subst own
    have away : Leaves s member := ⟨i, mine ▸ List.mem_cons_self⟩
    obtain ⟨unseeded, uncounted, listed⟩ : Unseeded outcomes s member ∧ s.outcomes member = 0 ∧
        (member ∈ Dict.keys s.book.pairs → Recorded outcomes s member) := by
      cases invariant.standing member with
      | leaving leaves unseeded uncounted listed => exact ⟨unseeded, uncounted, listed⟩
      | absent unset stays => exact absurd away stays
      | half seeder seeded own alpha beta stays => exact absurd away stays
      | whole seeder seeded own alpha beta alpha_eq beta_eq sum stays => exact absurd away stays
    refine .absent (fun half => (fields member half).trans (if_neg (by simp))) ?_ ?_ uncounted
      fun held => recorded_update (by simp) (listed held)
    · rintro ⟨j, leaves⟩
      exact gone j leaves
    · intro j owner
      have same := @stages_update ι _ outcomes s i (.evicting rest) member (fun _ => ⟨by rintro ⟨⟩, by rintro ⟨⟩⟩) j owner
      exact ⟨fun here => (unseeded j owner).1 (same.1 here), fun here => (unseeded j owner).2 (same.2 here)⟩
  · refine (invariant.standing member).frame (fun half => (fields member half).trans (if_pos own)) rfl rfl
      ?_ (stages_update fun _ => ⟨by rintro ⟨⟩, by rintro ⟨⟩⟩) (recorded_update (by simp)) id .inl
    unfold Leaves
    apply exists_congr
    intro j
    dsimp only
    by_cases here : j = i
    · subst here
      rw [Function.update_self, mine, List.mem_cons]
      exact (or_iff_right own).symm
    · rw [Function.update_of_ne here]

/-! ## Seeding and counting -/

theorem Standing.elsewhere {stage : Stage} {posteriors : Dict (Str × Half) ℚ} {counts : Str → Nat}
    {seeders : Str → Option ι} {member : Str} (standing : Standing outcomes s member)
    (same : stage.leaving = (s.stages i).leaving) (other : (outcomes i).member ≠ member)
    (fields : ∀ half, Dict.get? posteriors (member, half) = Dict.get? s.book.posteriors (member, half))
    (counted : counts member = s.outcomes member) (seeder : seeders member = s.seeder member) :
    Standing outcomes ⟨⟨s.book.pairs, posteriors⟩, Function.update s.stages i stage, counts, seeders⟩
      member := by
  refine standing.frame fields counted seeder (leaves_update same _ _ _ member)
    (stages_update fun own => absurd own other) ?_ id .inl
  rintro ⟨j, busy, own⟩
  refine ⟨j, ?_, own⟩
  dsimp only
  rwa [Function.update_of_ne (by rintro rfl; exact other own)]

theorem Invariant.fielded (invariant : Invariant maxPairs outcomes s) {stage : Stage}
    {posteriors : Dict (Str × Half) ℚ} {counts : Str → Nat} {seeders : Str → Option ι}
    (same : stage.leaving = (s.stages i).leaving) (busy : s.stages i ≠ .idle)
    (uncounted : s.stages i ≠ .touched)
    (unpopped : ∀ overflow, s.stages i = .counted overflow → overflow = 0)
    (fields : ∀ member half, (outcomes i).member ≠ member →
      Dict.get? posteriors (member, half) = Dict.get? s.book.posteriors (member, half))
    (counted : ∀ member, (outcomes i).member ≠ member → counts member = s.outcomes member)
    (seeder : ∀ member, (outcomes i).member ≠ member → seeders member = s.seeder member)
    (own : Standing outcomes ⟨⟨s.book.pairs, posteriors⟩, Function.update s.stages i stage, counts, seeders⟩
      (outcomes i).member) :
    Invariant maxPairs outcomes
      ⟨⟨s.book.pairs, posteriors⟩, Function.update s.stages i stage, counts, seeders⟩ where
  standing member := by
    by_cases mine : (outcomes i).member = member
    · exact mine ▸ own
    · exact (invariant.standing member).elsewhere same mine (fun half => fields member half mine)
        (counted member mine) (seeder member mine)
  listed := listed_update invariant.listed fun _ => invariant.listed i busy
  apart := apart_update invariant.apart fun _ leaves => same ▸ leaves
  once := once_update invariant.once (same ▸ invariant.once i)
  distinct := invariant.distinct
  bounded := invariant.bounded.update le_rfl rfl uncounted unpopped

theorem get?_setDefault_of_ne {posteriors : Dict (Str × Half) ℚ} {member member' : Str}
    (other : member ≠ member') (half half' : Half) (value : ℚ) :
    Dict.get? (Dict.setDefault posteriors (member, half) value) (member', half')
      = Dict.get? posteriors (member', half') := by
  rw [Dict.get?_setDefault, if_neg]
  exact fun same => other (congrArg Prod.fst same).symm

theorem Invariant.seedAlpha (invariant : Invariant maxPairs outcomes s)
    (free : (s.stages i).leaving = []) (busy : s.stages i ≠ .idle) (uncounted : s.stages i ≠ .touched)
    (unpopped : ∀ overflow, s.stages i = .counted overflow → overflow = 0)
    (orderly : Orderly outcomes s (.hsetnx (outcomes i).member .alpha (outcomes i).prior.alpha)) :
    Invariant maxPairs outcomes
      ⟨⟨s.book.pairs,
          Dict.setDefault s.book.posteriors ((outcomes i).member, .alpha) (outcomes i).prior.alpha⟩,
        Function.update s.stages i .halfSeeded, s.outcomes,
        s.seeders i (.hsetnx (outcomes i).member .alpha (outcomes i).prior.alpha)⟩ := by
  apply invariant.fielded (free ▸ rfl) busy uncounted unpopped
  · exact fun member half other => get?_setDefault_of_ne other _ _ _
  · exact fun _ _ => rfl
  · exact fun member other => if_neg fun same => other same.1.symm
  have stays : ¬ Leaves s (outcomes i).member := fun ⟨j, leaves⟩ => orderly j leaves
  have recorded : Recorded outcomes s (outcomes i).member := ⟨i, busy, rfl⟩
  have leaves := @leaves_update ι _ s i .halfSeeded (free ▸ rfl)
  have unfinished (before : ∀ j, (outcomes j).member = (outcomes i).member → s.stages j ≠ .seeded) (j : ι)
      (own : (outcomes j).member = (outcomes i).member) :
      Function.update s.stages i .halfSeeded j ≠ .seeded := by
    by_cases mine : j = i
    · subst mine
      simp
    · rw [Function.update_of_ne mine]
      exact before j own
  have beta_eq : Dict.get? (Dict.setDefault s.book.posteriors ((outcomes i).member, Half.alpha)
      (outcomes i).prior.alpha) ((outcomes i).member, .beta)
        = Dict.get? s.book.posteriors ((outcomes i).member, .beta) := by
    rw [Dict.get?_setDefault, if_neg]
    simp
  cases invariant.standing (outcomes i).member with
  | leaving away => exact absurd away stays
  | absent unset _ unseeded uncounted =>
      refine .half i (if_pos ⟨rfl, unset .alpha⟩) rfl ?_ (beta_eq.trans (unset .beta))
        (mt (leaves _ _ _ _).mp stays) uncounted (recorded_update (by simp) recorded)
        (unfinished fun j own => (unseeded j own).2)
      rw [Dict.get?_setDefault, if_pos rfl, unset]
      rfl
  | half seeder seeded own alpha beta _ uncounted _ before =>
      have set : ¬ (Dict.get? s.book.posteriors ((outcomes i).member, Half.alpha) = none) := by simp [alpha]
      refine .half seeder ((if_neg fun h => set h.2).trans seeded) own ?_ (beta_eq.trans beta)
        (mt (leaves _ _ _ _).mp stays) uncounted (recorded_update (by simp) recorded) (unfinished before)
      rw [Dict.get?_setDefault, if_pos rfl, alpha]
      rfl
  | whole seeder seeded own alpha beta alpha_eq beta_eq' sum _ listed =>
      have set : ¬ (Dict.get? s.book.posteriors ((outcomes i).member, Half.alpha) = none) := by simp [alpha_eq]
      refine .whole seeder ((if_neg fun h => set h.2).trans seeded) own alpha beta ?_
        (beta_eq.trans beta_eq') sum (mt (leaves _ _ _ _).mp stays) listed
      rw [Dict.get?_setDefault, if_pos rfl, alpha_eq]
      rfl

theorem Invariant.seedBeta (invariant : Invariant maxPairs outcomes s)
    (seeding : s.stages i = .halfSeeded)
    (orderly : Orderly outcomes s (.hsetnx (outcomes i).member .beta (outcomes i).prior.beta)) :
    Invariant maxPairs outcomes
      ⟨⟨s.book.pairs,
          Dict.setDefault s.book.posteriors ((outcomes i).member, .beta) (outcomes i).prior.beta⟩,
        Function.update s.stages i .seeded, s.outcomes, s.seeder⟩ := by
  have busy : s.stages i ≠ .idle := by simp [seeding]
  have same : Stage.seeded.leaving = (s.stages i).leaving := by rw [seeding]; rfl
  apply invariant.fielded same busy (by simp [seeding]) (by simp [seeding])
  · exact fun member half other => get?_setDefault_of_ne other _ _ _
  · exact fun _ _ => rfl
  · exact fun _ _ => rfl
  have leaves := leaves_update same
  have alpha_same : Dict.get? (Dict.setDefault s.book.posteriors ((outcomes i).member, Half.beta)
      (outcomes i).prior.beta) ((outcomes i).member, .alpha)
        = Dict.get? s.book.posteriors ((outcomes i).member, .alpha) := by
    rw [Dict.get?_setDefault, if_neg]
    simp
  have listed := invariant.listed i busy
  cases invariant.standing (outcomes i).member with
  | absent unset stays unseeded => exact absurd seeding (unseeded i rfl).1
  | leaving away unseeded => exact absurd seeding (unseeded i rfl).1
  | half seeder seeded own alpha beta stays uncounted =>
      refine .whole seeder seeded own _ (outcomes i).prior.beta (alpha_same.trans alpha) ?_ ?_
        (mt (leaves _ _ _ _).mp stays) listed
      · rw [Dict.get?_setDefault, if_pos rfl, beta]
        rfl
      · show _ = _ + ((s.outcomes (outcomes i).member : Nat) : ℚ)
        rw [uncounted, ← orderly beta seeder seeded, Prior.mass, Nat.cast_zero, add_zero]
  | whole seeder seeded own alpha beta alpha_eq beta_eq sum stays =>
      refine .whole seeder seeded own alpha beta (alpha_same.trans alpha_eq) ?_ sum
        (mt (leaves _ _ _ _).mp stays) listed
      rw [Dict.get?_setDefault, if_pos rfl, beta_eq]
      rfl

theorem Invariant.hincrbyfloat (invariant : Invariant maxPairs outcomes s) (seeded : s.stages i = .seeded)
    (half : Half) :
    Invariant maxPairs outcomes
      ⟨⟨s.book.pairs, Dict.adjust s.book.posteriors ((outcomes i).member, half) 0 (· + 1)⟩,
        Function.update s.stages i .idle, s.counts (.hincrbyfloat (outcomes i).member half 1) (),
        s.seeder⟩ := by
  have busy : s.stages i ≠ .idle := by simp [seeded]
  have same : Stage.idle.leaving = (s.stages i).leaving := by rw [seeded]; rfl
  apply invariant.fielded same busy (by simp [seeded]) (by simp [seeded])
  · intro member half' other
    rw [Dict.get?_adjust, if_neg]
    exact fun same => other (congrArg Prod.fst same).symm
  · exact fun member other => if_neg other.symm
  · exact fun _ _ => rfl
  have leaves := leaves_update same
  cases invariant.standing (outcomes i).member with
  | absent unset stays unseeded => exact absurd seeded (unseeded i rfl).2
  | leaving away unseeded => exact absurd seeded (unseeded i rfl).2
  | half seeder _ own alpha beta stays uncounted recorded unfinished => exact absurd seeded (unfinished i rfl)
  | whole seeder from_prior own alpha beta alpha_eq beta_eq sum stays listed =>
      have counted : s.counts (.hincrbyfloat (outcomes i).member half 1) () (outcomes i).member
          = s.outcomes (outcomes i).member + 1 := if_pos rfl
      have moved (half' : Half) := Dict.get?_adjust s.book.posteriors ((outcomes i).member, half)
        ((outcomes i).member, half') 0 (· + 1)
      cases half with
      | alpha =>
          refine .whole seeder from_prior own (alpha + 1) beta ?_ ?_ ?_ (mt (leaves _ _ _ _).mp stays) listed
          · exact (moved .alpha).trans (by rw [if_pos rfl, alpha_eq]; rfl)
          · exact (moved .beta).trans (by rw [if_neg (by simp), beta_eq])
          · show _ = _ + ((s.counts (.hincrbyfloat _ .alpha 1) () _ : Nat) : ℚ)
            rw [counted, Nat.cast_succ, ← add_assoc, ← sum, add_right_comm]
      | beta =>
          refine .whole seeder from_prior own alpha (beta + 1) ?_ ?_ ?_ (mt (leaves _ _ _ _).mp stays) listed
          · exact (moved .alpha).trans (by rw [if_neg (by simp), alpha_eq])
          · exact (moved .beta).trans (by rw [if_pos rfl, beta_eq]; rfl)
          · show _ = _ + ((s.counts (.hincrbyfloat _ .beta 1) () _ : Nat) : ℚ)
            rw [counted, Nat.cast_succ, ← add_assoc, ← add_assoc, sum]

end Steps

/-! ## Runs -/

section Runs

variable {ι : Type} [DecidableEq ι] {maxPairs : Nat} {outcomes : ι → Outcome} {i : ι}

def Placed (maxPairs : Nat) (outcomes : ι → Outcome) (s : History ι) (stages : ι → Stage) : Prop :=
  s.stages = stages ∧ Invariant maxPairs outcomes s

def Done (_ : Except Empty Unit) (stage : Stage) : Prop := stage = .idle

theorem fold_upholds {stage : Stage} (free : stage.leaving = []) (busy : stage ≠ .idle)
    (uncounted : stage ≠ .touched) (unpopped : ∀ overflow, stage = .counted overflow → overflow = 0) :
    Upholds (OrderlyEffect maxPairs outcomes) (Placed maxPairs outcomes) i (fold (outcomes i)) stage
      Done := by
  rintro s marks ⟨rfl, invariant⟩ rfl reply s' ⟨⟨clock, -, rfl⟩, orderly⟩
  refine ⟨.halfSeeded, ⟨rfl, invariant.seedAlpha free busy uncounted unpopped orderly⟩, ?_⟩
  rintro s marks ⟨rfl, invariant⟩ seeding reply s' ⟨⟨clock, -, rfl⟩, orderly⟩
  refine ⟨.seeded, ⟨rfl, invariant.seedBeta seeding orderly⟩, ?_⟩
  rintro s marks ⟨rfl, invariant⟩ seeded reply s' ⟨⟨clock, -, rfl⟩, -⟩
  exact ⟨.idle, ⟨rfl, invariant.hincrbyfloat seeded _⟩, rfl⟩

theorem evict_upholds (stale : List Str) :
    Upholds (OrderlyEffect maxPairs outcomes) (Placed maxPairs outcomes) i (evict stale)
      (.evicting stale) fun _ stage => stage = .evicting [] := by
  induction stale with
  | nil => exact rfl
  | cons member rest ih =>
      rintro s marks ⟨rfl, invariant⟩ evicting reply s' ⟨⟨clock, -, rfl⟩, -⟩
      have tail : (s.stages i).leaving.tail = rest := by
        rw [evicting]
        rfl
      refine ⟨.evicting rest, ⟨congrArg (fun left => Function.update s.stages i (.evicting left)) tail, ?_⟩, ih⟩
      show Invariant _ _ ⟨_, Function.update s.stages i (.evicting (s.stages i).leaving.tail), _, _⟩
      rw [tail]
      exact invariant.hdel evicting

theorem evictOverflow_upholds (overflow : Nat) :
    Upholds (OrderlyEffect maxPairs outcomes) (Placed maxPairs outcomes) i (evictOverflow overflow)
      (.counted overflow) fun _ stage => stage = .evicting [] ∨ stage = .counted 0 := by
  unfold evictOverflow
  split
  · rintro s marks ⟨rfl, invariant⟩ counted popped s' ⟨⟨clock, rfl, rfl⟩, orderly⟩
    exact ⟨_, ⟨rfl, invariant.zpopmin counted orderly⟩, (evict_upholds _).imp fun _ _ => .inl⟩
  · rename_i within
    exact .inr (congrArg Stage.counted (Nat.eq_zero_of_not_pos within))

theorem write_upholds (i : ι) :
    Upholds (OrderlyEffect maxPairs outcomes) (Placed maxPairs outcomes) i
      (write maxPairs (outcomes i)) .idle Done := by
  rintro s marks ⟨rfl, invariant⟩ idle reply s' ⟨⟨clock, -, rfl⟩, -⟩
  refine ⟨.touched, ⟨rfl, invariant.zadd idle clock⟩, ?_⟩
  rintro s marks ⟨rfl, invariant⟩ touched size s' ⟨⟨clock, rfl, rfl⟩, -⟩
  refine ⟨_, ⟨rfl, invariant.zcard touched⟩, ?_⟩
  show Upholds _ _ i (evictOverflow _ >>= fun _ => fold _) _ _
  refine Upholds.bind ((evictOverflow_upholds _).imp fun outcome stage stands => ?_)
  cases outcome with
  | error e => exact e.elim
  | ok nothing =>
      rcases stands with rfl | rfl
      · exact fold_upholds rfl (by simp) (by simp) (by simp)
      · exact fold_upholds rfl (by simp) (by simp) (by simp)

omit [DecidableEq ι] in
theorem initial_invariant : Invariant maxPairs outcomes History.initial where
  standing member := by
    have quiet : ¬ Leaves (History.initial : History ι) member := fun ⟨_, leaves⟩ => nomatch leaves
    exact .absent (fun _ => rfl) quiet (fun _ _ => ⟨nofun, nofun⟩) rfl nofun
  listed _ busy := absurd rfl busy
  apart _ _ _ := nofun
  once _ := List.nodup_nil
  distinct := List.nodup_nil
  bounded := .inl (Nat.zero_le _)

theorem fresh_stands : Stands (OrderlyEffect maxPairs outcomes) (Placed maxPairs outcomes) (fun _ => Done)
    (fresh maxPairs outcomes) fun _ => .idle :=
  ⟨⟨rfl, initial_invariant⟩, write_upholds⟩

omit [DecidableEq ι] in
theorem Invariant.consistent {s : History ι} (invariant : Invariant maxPairs outcomes s) (quiet : Quiet s) :
    Consistent maxPairs outcomes s := by
  have unrecorded (member : Str) : ¬ Recorded outcomes s member := fun ⟨j, busy, _⟩ => busy (quiet j)
  have stays (member : Str) : ¬ Leaves s member := by
    rintro ⟨j, leaves⟩
    rw [quiet j] at leaves
    cases leaves
  refine { bounded := ?_, fields := ?_, counts := ?_ }
  · rcases invariant.bounded with within | ⟨j, touched⟩ | ⟨j, overflow, counted, -⟩
    · exact within
    · rw [quiet j] at touched
      cases touched
    · rw [quiet j] at counted
      cases counted
  · intro member half
    rw [← not_iff_not, ← Dict.get?_eq_none_iff]
    cases invariant.standing member with
    | absent unset _ _ _ listed => exact iff_of_true (unset half) (mt listed (unrecorded member))
    | leaving leaves => exact absurd leaves (stays member)
    | half seeder seeded own alpha beta _ _ recorded => exact absurd recorded (unrecorded member)
    | whole seeder seeded own alpha beta alpha_eq beta_eq sum _ listed =>
        refine iff_of_false ?_ (not_not_intro listed)
        cases half <;> simp [alpha_eq, beta_eq]
  · intro member listed
    cases invariant.standing member with
    | absent unset _ _ _ before => exact absurd (before listed) (unrecorded member)
    | leaving leaves => exact absurd leaves (stays member)
    | half seeder seeded own alpha beta _ _ recorded => exact absurd recorded (unrecorded member)
    | whole seeder seeded own alpha beta alpha_eq beta_eq sum =>
        exact ⟨seeder, alpha, beta, seeded, own, alpha_eq, beta_eq, sum⟩

/-- However the writers interleave, the book is consistent whenever none of them is under way, where
every command is orderly. -/
theorem consistent_at_rest {w : World (History ι) ι Command Reply Empty Unit}
    (run : Run (OrderlyEffect maxPairs outcomes) (fresh maxPairs outcomes) w) (quiet : Quiet w.shared) :
    Consistent maxPairs outcomes w.shared := by
  obtain ⟨marks, ⟨-, invariant⟩, -⟩ := fresh_stands.run run
  exact invariant.consistent quiet

end Runs

/-! ## Schedules -/

section Schedules

variable {ι : Type} [DecidableEq ι]

abbrev Writers (ι : Type) := World (History ι) ι Command Reply Empty Unit

def advance (maxPairs : Nat) (w : Writers ι) (turn : ι × ℚ) : Writers ι :=
  match w.calls turn.1 with
  | .perform command next =>
      let done := w.shared.book.run turn.2 command
      { shared :=
          { book := done.2
            stages := Function.update w.shared.stages turn.1
              ((w.shared.stages turn.1).after maxPairs command done.1)
            outcomes := w.shared.counts command done.1
            seeder := w.shared.seeders turn.1 command }
        calls := Function.update w.calls turn.1 (next done.1) }
  | _ => w

theorem advance_run (maxPairs : Nat) (w : Writers ι) (turn : ι × ℚ) :
    Run (Effect maxPairs) w (advance maxPairs w turn) := by
  unfold advance
  split
  · rename_i command next due
    exact .single ⟨turn.1, .perform due ⟨turn.2, rfl, rfl⟩⟩
  · exact .refl

theorem schedule_run (maxPairs : Nat) (w : Writers ι) (turns : List (ι × ℚ)) :
    Run (Effect maxPairs) w (turns.foldl (advance maxPairs) w) := by
  induction turns generalizing w with
  | nil => exact .refl
  | cons turn turns ih => exact (advance_run maxPairs w turn).trans (ih _)

def InOrder (maxPairs : Nat) (outcomes : ι → Outcome) : Writers ι → List (ι × ℚ) → Prop
  | _, [] => True
  | w, turn :: turns =>
      (∀ command next, w.calls turn.1 = .perform command next → Orderly outcomes w.shared command) ∧
        InOrder maxPairs outcomes (advance maxPairs w turn) turns

theorem advance_orderly {maxPairs : Nat} {outcomes : ι → Outcome} {w : Writers ι} {turn : ι × ℚ}
    (orderly : ∀ command next, w.calls turn.1 = .perform command next → Orderly outcomes w.shared command) :
    Run (OrderlyEffect maxPairs outcomes) w (advance maxPairs w turn) := by
  unfold advance
  split
  · rename_i command next due
    exact .single ⟨turn.1, .perform due ⟨⟨turn.2, rfl, rfl⟩, orderly _ _ due⟩⟩
  · exact .refl

theorem orderly_run {maxPairs : Nat} {outcomes : ι → Outcome} {w : Writers ι} {turns : List (ι × ℚ)}
    (inOrder : InOrder maxPairs outcomes w turns) :
    Run (OrderlyEffect maxPairs outcomes) w (turns.foldl (advance maxPairs) w) := by
  induction turns generalizing w with
  | nil => exact .refl
  | cons turn turns ih => exact (advance_orderly inOrder.1).trans (ih inOrder.2)

instance [Fintype ι] (s : History ι) : Decidable (Quiet s) :=
  inferInstanceAs (Decidable (∀ i, s.stages i = .idle))

end Schedules

/-- Four writers: one pair is evicted by the third while the fourth records it again. -/
def overtaken : Fin 4 → Outcome
  | 0 => ⟨str "c:p", true, ⟨1, 1⟩⟩
  | 1 => ⟨str "c:q", true, ⟨1, 1⟩⟩
  | 2 => ⟨str "c:r", true, ⟨1, 1⟩⟩
  | 3 => ⟨str "c:p", true, ⟨1, 1⟩⟩

/-- The third writer deletes the fields of the first pair after the fourth has counted its outcome. -/
def overtakenTurns : List (Fin 4 × ℚ) :=
  List.replicate 5 (0, 1) ++ List.replicate 5 (1, 2) ++ List.replicate 3 (2, 3) ++
    List.replicate 7 (3, 4) ++ List.replicate 4 (2, 5)

/-- The pair is named without its fields. -/
theorem outcome_deleted : ∃ w, Run (Effect 2) (fresh 2 overtaken) w ∧ Quiet w.shared ∧
    ¬ Consistent 2 overtaken w.shared := by
  refine ⟨_, schedule_run 2 (fresh 2 overtaken) overtakenTurns, by decide, ?_⟩
  intro consistent
  have listed : str "c:p" ∈ Dict.keys (overtakenTurns.foldl (advance 2) (fresh 2 overtaken)).shared.book.pairs := by
    decide
  have held := (consistent.fields (str "c:p") .alpha).mpr listed
  exact absurd held (by decide)

def lone : Unit → Outcome := fun _ => ⟨str "c:p", true, ⟨1, 1⟩⟩

def loneTurns : List (Unit × ℚ) := List.replicate 5 ((), 1)

theorem lone_in_order : InOrder 1 lone (fresh 1 lone) loneTurns := by
  refine ⟨?_, ?_, ?_, ?_, ?_, trivial⟩
  · rintro _ _ ⟨⟩
    trivial
  · rintro _ _ ⟨⟩
    trivial
  · rintro _ _ ⟨⟩ j leaving
    cases leaving
  · rintro _ _ ⟨⟩ - j seeded
    rfl
  · rintro _ _ ⟨⟩
    trivial

/-- One writer that records an outcome alone. -/
theorem consistent_at_rest_alone :
    Quiet (loneTurns.foldl (advance 1) (fresh 1 lone)).shared ∧
      (loneTurns.foldl (advance 1) (fresh 1 lone)).shared.book.pairs ≠ [] ∧
      Consistent 1 lone (loneTurns.foldl (advance 1) (fresh 1 lone)).shared := by
  have quiet : Quiet (loneTurns.foldl (advance 1) (fresh 1 lone)).shared := by decide
  exact ⟨quiet, by decide, consistent_at_rest (orderly_run lone_in_order) quiet⟩

end Proxyshop.Policy
