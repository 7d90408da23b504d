import ScopeAtlas.Proofs.NestedSpans

/-!
Containment of locations. Positions are in a linear order, and a location without a locator covers
its start and whatever else lies before its stop. One rule then serves points and stretches alike:
a location contains another exactly when it covers the start of the other and stops no earlier.
Locators are ordered by what one of them continues.

Main statement: `contains_partialOrder`.
-/

namespace ScopeAtlas

namespace Position

variable {first second : Position}

theorem lt_iff : first < second ↔ ¬ second ≤ first := by
  change first.before second = true ↔ ¬ first.before second = false
  rw [Bool.not_eq_false]

theorem le_antisymm (forth : first ≤ second) (back : second ≤ first) : first = second := by
  rw [le_iff] at forth back
  have line : first.line = second.line := by omega
  have column : first.column = second.column := by omega
  cases first
  cases second
  rw [Position.mk.injEq]
  exact ⟨line, column⟩

theorem le_total (first second : Position) : first ≤ second ∨ second ≤ first := by
  rw [le_iff, le_iff]
  omega

instance : Std.IsLinearOrder Position where
  le_refl := le_refl
  le_trans _ _ _ := le_trans
  le_antisymm _ _ := le_antisymm
  le_total := le_total

instance : Std.LawfulOrderLT Position where
  lt_iff first second := by
    rw [lt_iff, iff_and_self]
    exact (le_total first second).resolve_right

end Position

namespace Location

/-! ### Containment by position -/

structure IsSpan (location : Location) : Prop where
  bare : location.locator = none
  forward : location.start ≤ location.stop

/-- The start is covered in any case, also where nothing lies before the stop. -/
def Covers (location : Location) (position : Position) : Prop :=
  location.start ≤ position ∧ (position < location.stop ∨ position = location.start)

/-- The first location has an extent, all of it before the second one. -/
structure EndsBefore (first second : Location) : Prop where
  extent : first.start < first.stop
  order : first.stop ≤ second.start

section Positions

variable {outer inner first second : Location} {position : Position}

theorem covers_start (location : Location) : location.Covers location.start :=
  ⟨Position.le_refl _, .inr rfl⟩

theorem Covers.mono (covers : outer.Covers inner.start) (stops : inner.stop ≤ outer.stop)
    (inside : inner.Covers position) : outer.Covers position := by
  obtain ⟨behind, beforeStop | rfl⟩ := inside
  · exact ⟨Position.le_trans covers.1 behind, .inl (Std.lt_of_lt_of_le beforeStop stops)⟩
  · exact covers

theorem EndsBefore.not_covers (ends : first.EndsBefore second) (here : first.Covers position) :
    ¬ second.Covers position := by
  rintro ⟨behind, _⟩
  have beforeStop : position < first.stop := by
    obtain ⟨_, before | rfl⟩ := here
    · exact before
    · exact ends.extent
  have beforeStart : position < second.start := Std.lt_of_lt_of_le beforeStop ends.order
  exact Position.lt_iff.mp beforeStart behind

theorem spanCovers_point (isPoint : inner.isPoint = true) :
    outer.spanCovers inner = true ↔ outer.Covers inner.start := by
  rw [spanCovers, if_pos isPoint, Covers]
  split
  next before => simp [Position.lt_iff.mp before]
  next notBefore => simp [Std.not_lt.mp notBefore]

theorem spanCovers_stretch (notPoint : ¬ inner.isPoint = true) :
    outer.spanCovers inner = true ↔ outer.start ≤ inner.start ∧ inner.stop ≤ outer.stop := by
  rw [spanCovers, if_neg notPoint]
  split
  next before => simp [Position.lt_iff.mp before]
  next notBefore => simp [Std.not_lt.mp notBefore]

theorem spanCovers_iff (outerForward : outer.start ≤ outer.stop)
    (innerForward : inner.start ≤ inner.stop) :
    outer.spanCovers inner = true ↔ outer.Covers inner.start ∧ inner.stop ≤ outer.stop := by
  by_cases isPoint : inner.isPoint = true
  · have stop : inner.start = inner.stop := beq_iff_eq.mp isPoint
    rw [spanCovers_point isPoint, ← stop, iff_self_and]
    rintro ⟨_, before | start⟩
    · exact Std.le_of_lt before
    · rwa [start]
  · have extent : inner.start < inner.stop :=
      Std.lt_of_le_of_ne innerForward fun same => isPoint (beq_iff_eq.mpr same)
    rw [spanCovers_stretch isPoint, Covers, and_assoc, and_congr_right_iff]
    intro _
    rw [iff_and_self]
    exact fun stops => .inl (Std.lt_of_lt_of_le extent stops)

theorem contains_of_bare (bare : inner.locator = none) : outer.contains inner = true ↔
    outer.inFile inner.file = true ∧ outer.spanCovers inner = true := by
  rw [contains, bare, Bool.and_eq_true]
  cases outer.locator <;> rfl

theorem IsSpan.contains_iff (outerSpan : outer.IsSpan) (innerSpan : inner.IsSpan) :
    outer.contains inner = true ↔
      outer.inFile inner.file = true ∧ outer.Covers inner.start ∧ inner.stop ≤ outer.stop := by
  rw [contains_of_bare innerSpan.bare, spanCovers_iff outerSpan.forward innerSpan.forward]

theorem IsSpan.contains_of_same (outerSpan : outer.IsSpan) (innerSpan : inner.IsSpan)
    (file : outer.inFile inner.file = true) (start : outer.start = inner.start)
    (stop : outer.stop = inner.stop) : outer.contains inner = true := by
  rw [outerSpan.contains_iff innerSpan, ← start, ← stop]
  exact ⟨file, outer.covers_start, Position.le_refl _⟩

theorem covers_of_contains_point (bare : inner.locator = none) (isPoint : inner.isPoint = true)
    (contains : outer.contains inner = true) : outer.Covers inner.start :=
  (spanCovers_point isPoint).mp ((contains_of_bare bare).mp contains).2

end Positions

/-! ### Containment by locator -/

section Locators

variable {outer middle inner first second : String}

theorem locatorCovers_refl (locator : String) : locatorCovers locator locator = true := by
  simp [locatorCovers]

theorem locatorCovers_trans (upper : locatorCovers outer middle = true)
    (lower : locatorCovers middle inner = true) : locatorCovers outer inner = true := by
  obtain ⟨steps, middlePath, leads⟩ := Markup.locatorCovers_iff.mp upper
  obtain ⟨further, innerPath, leadsFurther⟩ := Markup.locatorCovers_iff.mp lower
  refine Markup.locatorCovers_iff.mpr ⟨steps ++ further, ?_, leads.append leadsFurther⟩
  rw [innerPath, middlePath, List.append_assoc]

theorem locatorCovers_antisymm (forth : locatorCovers first second = true)
    (back : locatorCovers second first = true) : first = second := by
  obtain ⟨steps, secondPath, _⟩ := Markup.locatorCovers_iff.mp forth
  obtain ⟨further, firstPath, _⟩ := Markup.locatorCovers_iff.mp back
  have begins : first.toList <+: second.toList := ⟨steps, secondPath.symm⟩
  have returns : second.toList <+: first.toList := ⟨further, firstPath.symm⟩
  exact String.toList_inj.mp (begins.eq_of_length_le returns.length_le)

theorem contains_of_located {outer inner : Location} {outerPath innerPath : String}
    (outerAt : outer.locator = some outerPath) (innerAt : inner.locator = some innerPath) :
    outer.contains inner = true ↔
      outer.inFile inner.file = true ∧ locatorCovers outerPath innerPath = true := by
  rw [contains, outerAt, innerAt, Bool.and_eq_true]

end Locators

/-! ### Partial orders -/

/-- Containment is a partial order on the locations of one kind, in which those that contain each
other are the ones that are alike. -/
structure ContainmentOrders (kind : Location → Prop) (alike : Location → Location → Prop) :
    Prop where
  refl : ∀ location, kind location → location.contains location = true
  trans : ∀ outer middle inner, kind outer → kind middle → kind inner →
    outer.contains middle = true → middle.contains inner = true → outer.contains inner = true
  mutual_iff : ∀ first second, kind first → kind second →
    (first.contains second = true ∧ second.contains first = true ↔ alike first second)

theorem containmentOrders_spans : ContainmentOrders IsSpan fun first second =>
    first.inFile second.file = true ∧ first.start = second.start ∧ first.stop = second.stop := by
  constructor
  · intro location span
    exact span.contains_of_same span (Text.sameFolded_refl _) rfl rfl
  · intro outer middle inner outerSpan middleSpan innerSpan upper lower
    obtain ⟨upperFile, upperStart, upperStop⟩ := (outerSpan.contains_iff middleSpan).mp upper
    obtain ⟨lowerFile, lowerStart, lowerStop⟩ := (middleSpan.contains_iff innerSpan).mp lower
    exact (outerSpan.contains_iff innerSpan).mpr ⟨Text.sameFolded_trans upperFile lowerFile,
      upperStart.mono upperStop lowerStart, Position.le_trans lowerStop upperStop⟩
  · intro first second firstSpan secondSpan
    constructor
    · rintro ⟨forth, back⟩
      obtain ⟨file, forthStart, forthStop⟩ := (firstSpan.contains_iff secondSpan).mp forth
      obtain ⟨_, backStart, backStop⟩ := (secondSpan.contains_iff firstSpan).mp back
      exact ⟨file, Position.le_antisymm forthStart.1 backStart.1,
        Position.le_antisymm backStop forthStop⟩
    · rintro ⟨file, start, stop⟩
      exact ⟨firstSpan.contains_of_same secondSpan file start stop,
        secondSpan.contains_of_same firstSpan (Text.sameFolded_symm file) start.symm stop.symm⟩

theorem containmentOrders_located :
    ContainmentOrders (fun location => location.locator.isSome = true) fun first second =>
      first.inFile second.file = true ∧ first.locator = second.locator := by
  simp only [Option.isSome_iff_exists]
  constructor
  · rintro location ⟨path, here⟩
    exact (contains_of_located here here).mpr ⟨Text.sameFolded_refl _, locatorCovers_refl path⟩
  · rintro outer middle inner ⟨_, outerAt⟩ ⟨_, middleAt⟩ ⟨_, innerAt⟩ upper lower
    obtain ⟨upperFile, above⟩ := (contains_of_located outerAt middleAt).mp upper
    obtain ⟨lowerFile, below⟩ := (contains_of_located middleAt innerAt).mp lower
    exact (contains_of_located outerAt innerAt).mpr
      ⟨Text.sameFolded_trans upperFile lowerFile, locatorCovers_trans above below⟩
  · rintro first second ⟨firstPath, firstAt⟩ ⟨secondPath, secondAt⟩
    rw [contains_of_located firstAt secondAt, contains_of_located secondAt firstAt, firstAt,
      secondAt, Option.some.injEq]
    constructor
    · rintro ⟨⟨file, forth⟩, ⟨_, back⟩⟩
      exact ⟨file, locatorCovers_antisymm forth back⟩
    · rintro ⟨file, rfl⟩
      exact ⟨⟨file, locatorCovers_refl firstPath⟩,
        ⟨Text.sameFolded_symm file, locatorCovers_refl firstPath⟩⟩

/-! ### Spans that follow one another -/

theorem EndsBefore.apart {first second place : Location} (ends : first.EndsBefore second)
    (bare : place.locator = none) (isPoint : place.isPoint = true) :
    ¬ (first.contains place = true ∧ second.contains place = true) := by
  rintro ⟨inFirst, inSecond⟩
  exact ends.not_covers (covers_of_contains_point bare isPoint inFirst)
    (covers_of_contains_point bare isPoint inSecond)

theorem EndsBefore.not_contains {first second : Location} (ends : first.EndsBefore second)
    (firstSpan : first.IsSpan) (secondSpan : second.IsSpan) :
    first.contains second = false ∧ second.contains first = false := by
  constructor
  · rw [← Bool.not_eq_true, firstSpan.contains_iff secondSpan]
    rintro ⟨_, covers, _⟩
    exact ends.not_covers covers second.covers_start
  · rw [← Bool.not_eq_true, secondSpan.contains_iff firstSpan]
    rintro ⟨_, covers, _⟩
    exact ends.not_covers first.covers_start covers

/-- Containment is a partial order on the spans without a locator and on the locations with one:
those that contain each other agree up to letter case in their file and in both positions, or in
the locator. Two spans of which the first has an extent and ends before the second starts contain
neither each other nor a common place, whatever their files. -/
theorem contains_partialOrder :
    (ContainmentOrders IsSpan fun first second =>
      first.inFile second.file = true ∧ first.start = second.start ∧ first.stop = second.stop) ∧
    (ContainmentOrders (fun location => location.locator.isSome = true) fun first second =>
      first.inFile second.file = true ∧ first.locator = second.locator) ∧
    ∀ first second : Location, first.IsSpan → second.IsSpan → first.EndsBefore second →
      (∀ place : Location, place.locator = none → place.isPoint = true →
        ¬ (first.contains place = true ∧ second.contains place = true)) ∧
      first.contains second = false ∧ second.contains first = false := by
  refine ⟨containmentOrders_spans, containmentOrders_located, ?_⟩
  intro first second firstSpan secondSpan ends
  exact ⟨fun _ bare isPoint => ends.apart bare isPoint, ends.not_contains firstSpan secondSpan⟩

theorem contains_partialOrder_adjacent_functions :
    let unit := span "test.cpp" ⟨1, 1⟩ .unbounded
    let shouted := span "TEST.CPP" ⟨1, 1⟩ .unbounded
    let main := span "test.cpp" ⟨1, 1⟩ ⟨3, 1⟩
    let helper := span "test.cpp" ⟨3, 1⟩ .unbounded
    let border := point "test.cpp" 3 1
    let element (path : String) : Location := ⟨"test.cpp", ⟨1, 1⟩, ⟨1, 1⟩, some path, false⟩
    let top := element "/unit"
    let function := element "/unit/function[1]"
    let block := element "/unit/function[1]/block[1]"
    (unit.IsSpan ∧ shouted.IsSpan ∧ main.IsSpan ∧ helper.IsSpan ∧ border.IsSpan) ∧
      (unit.contains shouted = true ∧ shouted.contains unit = true) ∧
      (unit.contains helper = true ∧ helper.contains border = true ∧
        unit.contains border = true) ∧
      (top.contains function = true ∧ function.contains block = true ∧
        top.contains block = true) ∧
      main.EndsBefore helper ∧ ¬ (main.contains border = true ∧ helper.contains border = true) ∧
      main.contains helper = false ∧ helper.contains main = false := by
  intro unit shouted main helper border element top function block
  obtain ⟨spans, located, apart⟩ := contains_partialOrder
  have unitSpan : unit.IsSpan := ⟨rfl, by decide⟩
  have shoutedSpan : shouted.IsSpan := ⟨rfl, by decide⟩
  have mainSpan : main.IsSpan := ⟨rfl, by decide⟩
  have helperSpan : helper.IsSpan := ⟨rfl, by decide⟩
  have borderSpan : border.IsSpan := ⟨rfl, by decide⟩
  have sameFile : Text.sameFolded "test.cpp" "TEST.CPP" = true :=
    (Text.sameFolded_toList _ _).trans rfl
  have helperInUnit : unit.contains helper = true := by decide +kernel
  have borderInHelper : helper.contains border = true := by decide +kernel
  have functionInTop : top.contains function = true := by decide +kernel
  have blockInFunction : function.contains block = true := by decide +kernel
  have ends : main.EndsBefore helper := ⟨by decide, by decide⟩
  have alike : unit.contains shouted = true ∧ shouted.contains unit = true :=
    (spans.mutual_iff unit shouted unitSpan shoutedSpan).mpr ⟨sameFile, rfl, rfl⟩
  have borderInUnit : unit.contains border = true :=
    spans.trans unit helper border unitSpan helperSpan borderSpan helperInUnit borderInHelper
  have blockInTop : top.contains block = true :=
    located.trans top function block rfl rfl rfl functionInTop blockInFunction
  obtain ⟨noPlace, neither⟩ := apart main helper mainSpan helperSpan ends
  have notCommon := noPlace border rfl (by decide)
  exact ⟨⟨unitSpan, shoutedSpan, mainSpan, helperSpan, borderSpan⟩, alike,
    ⟨helperInUnit, borderInHelper, borderInUnit⟩, ⟨functionInTop, blockInFunction, blockInTop⟩,
    ends, notCommon, neither⟩

/-- With a location that has no locator between two that have one, containment is not passed on. -/
example :
    let outer : Location := ⟨"test.cpp", ⟨1, 1⟩, ⟨9, 1⟩, some "/unit/function[1]", false⟩
    let middle := span "test.cpp" ⟨2, 1⟩ ⟨8, 1⟩
    let inner : Location := ⟨"test.cpp", ⟨3, 1⟩, ⟨4, 1⟩, some "/unit/function[2]", false⟩
    outer.contains middle = true ∧ middle.contains inner = true ∧
      outer.contains inner = false := by
  decide +kernel

end Location

end ScopeAtlas
