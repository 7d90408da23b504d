import Mathlib.Data.List.Nodup
import Mathlib.Data.List.Perm.Subperm
import Mathlib.Data.Nat.Find
import ScopeAtlas.Ordered

/-!
Searches that go outward from a start. A search in layers lists exactly what lies within its number of
steps, the nearest first. A search with a queue goes through the same layers one element at a time,
so within a finite set and with enough rounds it lists the same elements in the same order.

Main statements: `mem_reachWithin`, `pairwise_reachWithin`, `closureFrom_layers`.
-/

namespace ScopeAtlas

/-! ### Lists without repetition -/

section Distinct

variable {α β : Type} [BEq β] [LawfulBEq β] {key : α → β} {values : List α} {value : α}

theorem foldl_distinctOn (key : α → β) (length : Nat) : ∀ {values : List α}, values.length ≤ length →
    ∀ found : List α,
      values.foldl (fun found value =>
        if found.any fun earlier => key earlier == key value then found else found ++ [value]) found =
      found ++ distinctOn key (values.filter fun value =>
        !found.any fun earlier => key earlier == key value) := by
  induction length with
  | zero =>
    intro values short found
    obtain rfl := List.eq_nil_of_length_eq_zero (Nat.le_zero.mp short)
    simp [distinctOn]
  | succ length ih =>
    intro values short found
    cases values with
    | nil => simp [distinctOn]
    | cons first rest =>
      have shorter : rest.length ≤ length := Nat.le_of_succ_le_succ short
      rw [List.foldl_cons, List.filter_cons]
      split
      next known => rw [ih shorter, if_neg (by simp [known])]
      next new =>
        have filtered := Nat.le_trans (List.length_filter_le (fun value =>
          !found.any fun earlier => key earlier == key value) rest) shorter
        have front : distinctOn key (first :: rest.filter fun value =>
              !found.any fun earlier => key earlier == key value) =
            [first] ++ distinctOn key ((rest.filter fun value =>
              !found.any fun earlier => key earlier == key value).filter fun value =>
                !(key first == key value)) := by
          rw [distinctOn, List.foldl_cons]
          simpa using ih filtered [first]
        rw [ih shorter, if_pos (by simpa using new), front, List.filter_filter, List.append_assoc]
        congr 3
        apply List.filter_congr
        intro value _
        simp [Bool.and_comm]

theorem distinctOn_cons (first : α) (rest : List α) :
    distinctOn key (first :: rest) =
      first :: distinctOn key (rest.filter fun value => !(key first == key value)) := by
  rw [distinctOn, List.foldl_cons]
  simpa using foldl_distinctOn key rest.length (Nat.le_refl _) [first]

theorem distinctOn_induction (key : α → β) {motive : List α → List α → Prop} (nil : motive [] [])
    (cons : ∀ first rest kept, motive (rest.filter fun value => !(key first == key value)) kept →
      motive (first :: rest) (first :: kept)) (values : List α) :
    motive values (distinctOn key values) := by
  induction shorter : values.length using Nat.strong_induction_on generalizing values with
  | _ length ih =>
    cases values with
    | nil => exact nil
    | cons first rest =>
      rw [distinctOn_cons]
      refine cons first rest _ (ih _ ?_ _ rfl)
      rw [← shorter, List.length_cons]
      exact Nat.lt_succ_of_le (List.length_filter_le _ _)

theorem mem_of_mem_distinctOn (member : value ∈ distinctOn key values) : value ∈ values := by
  refine distinctOn_induction key
    (motive := fun values kept => value ∈ kept → value ∈ values) id ?_ values member
  intro first rest kept inside member
  rcases List.mem_cons.mp member with rfl | later
  · exact List.mem_cons_self
  · exact List.mem_cons_of_mem _ (List.mem_of_mem_filter (inside later))

theorem exists_of_mem_distinctOn (key : α → β) {values : List α} {value : α}
    (member : value ∈ values) : ∃ kept ∈ distinctOn key values, key kept = key value := by
  refine distinctOn_induction key
    (motive := fun values kept => value ∈ values → ∃ earlier ∈ kept, key earlier = key value)
    (by simp) ?_ values member
  intro first rest kept inside member
  by_cases same : key first = key value
  · exact ⟨first, List.mem_cons_self, same⟩
  · have later : value ∈ rest := by
      rcases List.mem_cons.mp member with rfl | later
      · exact absurd rfl same
      · exact later
    obtain ⟨earlier, found, alike⟩ := inside (List.mem_filter.mpr ⟨later, by simpa using same⟩)
    exact ⟨earlier, List.mem_cons_of_mem _ found, alike⟩

end Distinct

section Fresh

variable {α : Type} [BEq α] [LawfulBEq α] {seen left right values candidates : List α} {value : α}

theorem mem_distinct : value ∈ distinct left ↔ value ∈ left := by
  constructor
  · exact mem_of_mem_distinctOn
  · intro member
    obtain ⟨kept, inside, same⟩ := exists_of_mem_distinctOn id member
    exact (show kept = value from same) ▸ inside

theorem distinct_subset (subset : left ⊆ right) : distinct left ⊆ distinct right :=
  fun _ member => mem_distinct.mpr (subset (mem_distinct.mp member))

theorem nodup_distinct (values : List α) : (distinct values).Nodup := by
  refine (distinctOn_induction id
    (motive := fun values kept => kept ⊆ values ∧ kept.Nodup) ⟨List.nil_subset _, List.nodup_nil⟩ ?_
    values).2
  intro first rest kept ⟨inside, unrepeated⟩
  refine ⟨List.cons_subset_cons _ fun value member => List.mem_of_mem_filter (inside member),
    List.nodup_cons.mpr ⟨fun member => ?_, unrepeated⟩⟩
  simpa using (List.mem_filter.mp (inside member)).2

theorem mem_fresh : value ∈ fresh seen candidates ↔ value ∈ candidates ∧ value ∉ seen := by
  simp [fresh, mem_distinct]

theorem nodup_append_fresh (unrepeated : seen.Nodup) (candidates : List α) :
    (seen ++ fresh seen candidates).Nodup := by
  rw [List.nodup_append]
  refine ⟨unrepeated, nodup_distinct _, ?_⟩
  rintro old member new isNew rfl
  exact (mem_fresh.mp isNew).2 member

theorem fresh_append (seen left right : List α) :
    fresh seen (left ++ right) = fresh seen left ++ fresh (seen ++ fresh seen left) right := by
  rw [fresh, distinct, distinctOn, List.filter_append, List.foldl_append, ← distinctOn, ← distinct,
    ← fresh, foldl_distinctOn id _ (Nat.le_refl _), List.filter_filter]
  congr 2
  apply List.filter_congr
  intro value _
  rw [Bool.eq_iff_iff]
  simp [and_comm, List.forall_mem_ne']

end Fresh

/-! ### The closure of a relation -/

section Closure

variable {α : Type} [BEq α]

theorem closureFrom_nil (successors : α → List α) (rounds : Nat) (seen : List α) :
    closureFrom successors rounds seen [] = seen := by
  cases rounds with
  | zero => rfl
  | succ rounds => rfl

variable [LawfulBEq α] {successors : α → List α} {all : List α}

theorem closureFrom_subset (closed : ∀ value ∈ all, successors value ⊆ all) (rounds : Nat) :
    ∀ {seen waiting : List α}, seen ⊆ all → waiting ⊆ all →
      closureFrom successors rounds seen waiting ⊆ all := by
  induction rounds with
  | zero => exact fun inside _ => inside
  | succ rounds ih =>
    intro seen waiting inside waits
    cases waiting with
    | nil => rwa [closureFrom_nil]
    | cons current waiting =>
      have added : fresh seen (successors current) ⊆ all := fun value member =>
        closed current (waits List.mem_cons_self) (mem_fresh.mp member).1
      exact ih (List.append_subset.mpr ⟨inside, added⟩)
        (List.append_subset.mpr ⟨fun value member => waits (List.mem_cons_of_mem _ member), added⟩)

/-- A queue is worked off in as many rounds as it is long, and then holds what all its elements
together lead to. -/
theorem closureFrom_frontier (successors : α → List α) (rounds : Nat) (frontier : List α) :
    ∀ seen waiting : List α,
      closureFrom successors (rounds + frontier.length) seen (frontier ++ waiting) =
        closureFrom successors rounds (seen ++ fresh seen (frontier.flatMap successors))
          (waiting ++ fresh seen (frontier.flatMap successors)) := by
  induction frontier with
  | nil => simp [fresh, distinct, distinctOn]
  | cons current rest ih =>
    intro seen waiting
    rw [List.length_cons, ← Nat.add_assoc, List.cons_append, closureFrom, List.append_assoc, ih,
      List.flatMap_cons, fresh_append]
    simp only [List.append_assoc]

theorem fresh_flatMap_subset (closed : ∀ value ∈ all, successors value ⊆ all) {frontier : List α}
    (ahead : frontier ⊆ all) (seen : List α) : fresh seen (frontier.flatMap successors) ⊆ all := by
  intro value member
  obtain ⟨current, inside, next⟩ := List.mem_flatMap.mp (mem_fresh.mp member).1
  exact closed current (ahead inside) next

theorem closureFrom_turn (closed : ∀ value ∈ all, successors value ⊆ all) {rounds : Nat}
    {seen frontier : List α} (unrepeated : seen.Nodup) (inside : seen ⊆ all) (ahead : frontier ⊆ all)
    (enough : frontier.length + all.length ≤ rounds + seen.length) :
    seen.length + (fresh seen (frontier.flatMap successors)).length ≤ all.length ∧
      closureFrom successors rounds seen frontier =
        closureFrom successors (rounds - frontier.length)
          (seen ++ fresh seen (frontier.flatMap successors))
          (fresh seen (frontier.flatMap successors)) := by
  have wider := List.append_subset.mpr ⟨inside, fresh_flatMap_subset closed ahead seen⟩
  have few := (List.subperm_of_subset (nodup_append_fresh unrepeated _) wider).length_le
  rw [List.length_append] at few
  refine ⟨few, ?_⟩
  have turn := closureFrom_frontier successors (rounds - frontier.length) frontier seen []
  rwa [List.append_nil, List.nil_append, Nat.sub_add_cancel (by omega)] at turn

theorem closureFrom_layers (closed : ∀ value ∈ all, successors value ⊆ all) (steps : Nat) :
    ∀ {rounds : Nat} {seen frontier : List α}, seen.Nodup → seen ⊆ all → frontier ⊆ all →
      frontier.length + all.length ≤ rounds + seen.length → all.length ≤ steps + seen.length →
      closureFrom successors rounds seen frontier =
        seen ++ reachWithin successors steps seen frontier := by
  induction steps with
  | zero =>
    intro rounds seen frontier unrepeated inside ahead enough complete
    obtain ⟨few, turn⟩ := closureFrom_turn closed unrepeated inside ahead enough
    have none : fresh seen (frontier.flatMap successors) = [] :=
      List.eq_nil_of_length_eq_zero (by omega)
    rw [turn, none, closureFrom_nil, reachWithin]
  | succ steps ih =>
    intro rounds seen frontier unrepeated inside ahead enough complete
    obtain ⟨few, turn⟩ := closureFrom_turn closed unrepeated inside ahead enough
    have further := fresh_flatMap_subset closed ahead seen
    have longer := nodup_append_fresh unrepeated (frontier.flatMap successors)
    rw [turn, reachWithin]
    generalize fresh seen (frontier.flatMap successors) = next at *
    cases next with
    | nil => rw [closureFrom_nil]
    | cons first rest =>
      rw [ih longer (List.append_subset.mpr ⟨inside, further⟩) further, List.append_assoc]
      · rw [List.length_append]
        omega
      · rw [List.length_append, List.length_cons]
        omega

theorem closureFrom_eq (closed : ∀ value ∈ all, successors value ⊆ all) {rounds other : Nat}
    {seen waiting : List α} (unrepeated : seen.Nodup) (inside : seen ⊆ all) (waits : waiting ⊆ all)
    (enough : waiting.length + all.length ≤ rounds + seen.length)
    (enoughOther : waiting.length + all.length ≤ other + seen.length) :
    closureFrom successors rounds seen waiting = closureFrom successors other seen waiting := by
  rw [closureFrom_layers closed all.length unrepeated inside waits enough (Nat.le_add_right _ _),
    closureFrom_layers closed all.length unrepeated inside waits enoughOther (Nat.le_add_right _ _)]

end Closure

/-! ### Distances -/

inductive Walk {α : Type} (step : α → α → Prop) (start : α) : Nat → α → Prop
  | here : Walk step start 0 start
  | onward {length : Nat} {middle last : α} (before : Walk step start length middle)
    (next : step middle last) : Walk step start (length + 1) last

structure Distance {α : Type} (step : α → α → Prop) (start : α) (length : Nat) (last : α) : Prop where
  walk : Walk step start length last
  shortest : ∀ other, Walk step start other last → length ≤ other

section Distance

variable {α : Type} {step : α → α → Prop} {start first middle last : α} {length other : Nat}

theorem Walk.behind (walk : Walk step middle length last) (next : step start middle) :
    Walk step start (length + 1) last := by
  induction walk with
  | here => exact .onward .here next
  | onward _ onward ih => exact .onward ih onward

theorem Walk.reverse (walk : Walk step start length last) :
    Walk (fun next before => step before next) last length start := by
  induction walk with
  | here => exact .here
  | onward _ next ih => exact ih.behind next

theorem distance_reverse_iff :
    Distance (fun next before => step before next) last length start ↔
      Distance step start length last :=
  ⟨fun ⟨walk, shortest⟩ => ⟨walk.reverse, fun other walk => shortest other walk.reverse⟩,
    fun ⟨walk, shortest⟩ => ⟨walk.reverse, fun other walk => shortest other walk.reverse⟩⟩

theorem Distance.unique (near : Distance step start length last)
    (far : Distance step start other last) : length = other :=
  Nat.le_antisymm (near.shortest _ far.walk) (far.shortest _ near.walk)

theorem Walk.exists_distance (walk : Walk step start length last) :
    ∃ least ≤ length, Distance step start least last := by
  classical
  have some : ∃ length, Walk step start length last := ⟨length, walk⟩
  exact ⟨Nat.find some, Nat.find_min' some walk, Nat.find_spec some,
    fun _ other => Nat.find_min' some other⟩

@[simp]
theorem distance_zero : Distance step start 0 last ↔ last = start := by
  constructor
  · rintro ⟨walk, _⟩
    cases walk
    rfl
  · rintro rfl
    exact ⟨.here, fun _ _ => Nat.zero_le _⟩

theorem Distance.exists_before (far : Distance step start (length + 1) last) :
    ∃ middle, Distance step start length middle ∧ step middle last := by
  obtain ⟨walk, shortest⟩ := far
  cases walk with
  | onward before next =>
    refine ⟨_, ⟨before, fun other shorter => ?_⟩, next⟩
    exact Nat.le_of_succ_le_succ (shortest _ (.onward shorter next))

theorem Distance.exists_at (far : Distance step start length last) (other : Nat)
    (nearer : other ≤ length) : ∃ middle, Distance step start other middle := by
  induction nearer generalizing last with
  | refl => exact ⟨last, far⟩
  | step _ ih =>
    obtain ⟨middle, before, _⟩ := far.exists_before
    exact ih before

end Distance

/-! ### Layers -/

/-- A search that has gone `depth` steps: it has visited what is that near, and its frontier is what
is exactly that far. -/
structure Layered {α : Type} (step : α → α → Prop) (start : α) (depth : Nat)
    (visited frontier : List α) : Prop where
  seen : ∀ value, value ∈ visited ↔ ∃ length ≤ depth, Distance step start length value
  ahead : ∀ value, value ∈ frontier ↔ Distance step start depth value

section Layers

variable {α : Type} {step : α → α → Prop} {start : α} {depth : Nat} {visited frontier : List α}

theorem layered_start : Layered step start 0 [start] [start] := by
  constructor
  · simp
  · simp

variable [BEq α] [LawfulBEq α] {successors : α → List α}
  (follows : ∀ value next, next ∈ successors value ↔ step value next)

include follows

theorem Layered.mem_next (layered : Layered step start depth visited frontier) (value : α) :
    value ∈ fresh visited (frontier.flatMap successors) ↔ Distance step start (depth + 1) value := by
  rw [mem_fresh, List.mem_flatMap, layered.seen]
  constructor
  · rintro ⟨⟨middle, inside, next⟩, unseen⟩
    have walk : Walk step start (depth + 1) value :=
      .onward ((layered.ahead middle).mp inside).walk ((follows middle value).mp next)
    obtain ⟨least, bound, distance⟩ := walk.exists_distance
    obtain rfl : least = depth + 1 := by
      by_contra other
      exact unseen ⟨least, by omega, distance⟩
    exact distance
  · intro distance
    obtain ⟨middle, before, next⟩ := distance.exists_before
    refine ⟨⟨middle, (layered.ahead middle).mpr before, (follows middle value).mpr next⟩, ?_⟩
    rintro ⟨length, near, other⟩
    exact absurd (other.unique distance) (by omega)

theorem Layered.next (layered : Layered step start depth visited frontier) :
    Layered step start (depth + 1)
      (visited ++ fresh visited (frontier.flatMap successors))
      (fresh visited (frontier.flatMap successors)) := by
  refine ⟨fun value => ?_, layered.mem_next follows⟩
  rw [List.mem_append, layered.seen, layered.mem_next follows]
  constructor
  · rintro (⟨length, near, distance⟩ | distance)
    · exact ⟨length, by omega, distance⟩
    · exact ⟨depth + 1, Nat.le_refl _, distance⟩
  · rintro ⟨length, near, distance⟩
    rcases Nat.lt_or_eq_of_le near with nearer | rfl
    · exact .inl ⟨length, by omega, distance⟩
    · exact .inr distance

theorem mem_reachWithin (steps : Nat) : ∀ {depth : Nat} {visited frontier : List α},
    Layered step start depth visited frontier → ∀ value,
      value ∈ reachWithin successors steps visited frontier ↔
        ∃ length, depth < length ∧ length ≤ depth + steps ∧ Distance step start length value := by
  induction steps with
  | zero =>
    intro depth visited frontier layered value
    simp only [reachWithin, List.not_mem_nil, false_iff]
    rintro ⟨length, beyond, within, _⟩
    omega
  | succ steps ih =>
    intro depth visited frontier layered value
    have further := layered.next follows
    rw [reachWithin]
    have onward := layered.mem_next follows
    generalize fresh visited (frontier.flatMap successors) = next at *
    cases next with
    | nil =>
      simp only [List.not_mem_nil, false_iff]
      rintro ⟨length, beyond, within, distance⟩
      obtain ⟨middle, between⟩ := distance.exists_at (depth + 1) beyond
      exact absurd ((onward middle).mpr between) List.not_mem_nil
    | cons first rest =>
      rw [List.mem_append, onward, ih further]
      constructor
      · rintro (distance | ⟨length, beyond, within, distance⟩)
        · exact ⟨depth + 1, by omega, by omega, distance⟩
        · exact ⟨length, by omega, by omega, distance⟩
      · rintro ⟨length, beyond, within, distance⟩
        by_cases nearest : length = depth + 1
        · exact .inl (nearest ▸ distance)
        · exact .inr ⟨length, by omega, by omega, distance⟩

theorem pairwise_reachWithin (steps : Nat) : ∀ {depth : Nat} {visited frontier : List α},
    Layered step start depth visited frontier →
      (reachWithin successors steps visited frontier).Pairwise fun near far =>
        near ≠ far ∧ ∀ short long, Distance step start short near →
          Distance step start long far → short ≤ long := by
  induction steps with
  | zero => exact fun _ => .nil
  | succ steps ih =>
    intro depth visited frontier layered
    have further := layered.next follows
    rw [reachWithin]
    have onward := layered.mem_next follows
    have unrepeated : (fresh visited (frontier.flatMap successors)).Nodup := nodup_distinct _
    generalize fresh visited (frontier.flatMap successors) = next at *
    cases next with
    | nil => exact .nil
    | cons first rest =>
      refine List.pairwise_append.mpr ⟨unrepeated.imp_of_mem ?_, ih further, ?_⟩
      · intro near far nearest alike different
        refine ⟨different, fun short long shortest longest => ?_⟩
        rw [shortest.unique ((onward near).mp nearest), longest.unique ((onward far).mp alike)]
      · intro near nearest far beyond
        obtain ⟨length, farther, _, distance⟩ :=
          (mem_reachWithin follows steps further far).mp beyond
        have here := (onward near).mp nearest
        refine ⟨?_, fun short long shortest longest => ?_⟩
        · rintro rfl
          exact absurd (here.unique distance) (by omega)
        · rw [shortest.unique here, longest.unique distance]
          omega

/-! A search with a queue within a finite list. -/

variable {all : List α} (closed : ∀ value ∈ all, successors value ⊆ all) (inside : start ∈ all)
  {rounds : Nat} (enough : all.length ≤ rounds)

include closed inside enough

omit follows in
theorem breadthFirst_layers (steps : Nat) (complete : all.length ≤ steps + 1) :
    breadthFirst successors rounds start =
      start :: reachWithin successors steps [start] [start] := by
  have within : [start] ⊆ all := by simpa using inside
  refine closureFrom_layers closed steps (List.nodup_singleton start) within within ?_ complete
  rw [List.length_singleton]
  omega

theorem mem_breadthFirst (value : α) :
    value ∈ breadthFirst successors rounds start ↔ ∃ length, Walk step start length value := by
  constructor
  · intro member
    rw [breadthFirst_layers closed inside enough all.length (Nat.le_succ _)] at member
    rcases List.mem_cons.mp member with rfl | later
    · exact ⟨0, .here⟩
    · obtain ⟨length, _, _, distance⟩ := (mem_reachWithin follows _ layered_start value).mp later
      exact ⟨length, distance.walk⟩
  · rintro ⟨length, walk⟩
    obtain ⟨least, _, distance⟩ := walk.exists_distance
    -- More steps than needed change nothing, so there may be as many as the value is far away.
    rw [breadthFirst_layers closed inside enough (all.length + least) (by omega)]
    by_cases nearest : least = 0
    · subst nearest
      exact List.mem_cons.mpr (.inl (distance_zero.mp distance))
    · exact List.mem_cons_of_mem _
        ((mem_reachWithin follows _ layered_start value).mpr ⟨least, by omega, by omega, distance⟩)

theorem pairwise_breadthFirst :
    (breadthFirst successors rounds start).Pairwise fun near far =>
      near ≠ far ∧ ∀ short long, Distance step start short near →
        Distance step start long far → short ≤ long := by
  rw [breadthFirst_layers closed inside enough all.length (Nat.le_succ _)]
  refine .cons ?_ (pairwise_reachWithin follows _ layered_start)
  intro far beyond
  obtain ⟨length, positive, _, distance⟩ := (mem_reachWithin follows _ layered_start far).mp beyond
  refine ⟨?_, fun short long shortest _ => ?_⟩
  · rintro rfl
    exact absurd (distance.unique (distance_zero.mpr rfl)) (by omega)
  · rw [shortest.unique (distance_zero.mpr rfl)]
    exact Nat.zero_le _

end Layers

end ScopeAtlas
