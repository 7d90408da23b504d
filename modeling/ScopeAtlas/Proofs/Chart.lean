import Mathlib.Algebra.Group.Pi.Basic
import Mathlib.Algebra.Order.Group.Multiset
import Mathlib.Data.Multiset.Filter
import ScopeAtlas.Proofs.Assembly
import ScopeAtlas.Proofs.Identity

/-!
Charts. A chart forgets the numbers of a view: it tells, for every route of keys down from the
root, which locations, expressions and facets are found at its end. Enriching a statement and
growing a leaf add to the chart, removing a file filters it, and trees with the same chart have
the same shape.
-/

namespace ScopeAtlas

open ScopeTree

def StatementKind.bare (kind : StatementKind) : StatementKind :=
  kind.mapScope fun scope => ⟨scope.name, none, []⟩

/-- What tells a statement from the others of its parent: the entity it stands for, or else the
place in one file that it comes from. -/
inductive Key
  | named (entity : Entity)
  | single (kind : StatementKind) (file : String) (number : Nat)
  deriving DecidableEq

abbrev Route := List Key

inductive Mark
  | seen (location : Location)
  | holds (expression : Expression)
  | spoken (facet : Facet)

def Mark.file : Mark → String
  | .seen location => location.file
  | .holds expression => expression.location.file
  | .spoken facet => facet.file

def Statement.facets (statement : Statement) : List Facet :=
  (statement.scope?.map NamedScope.facets).getD []

def Statement.marks (statement : Statement) : List Mark :=
  statement.locations.map .seen ++ statement.content.map .holds ++ statement.facets.map .spoken

/-- The entries at the end of every route. -/
abbrev Chart := Route → Multiset Mark

def Chart.without (chart : Chart) (file : String) : Chart := fun route =>
  (chart route).filter fun mark => Text.sameFolded mark.file file = false

def Key.Fits : Key → Statement → Prop
  | .named entity, statement => entity.Typed ∧ ∃ scope, statement.kind = .named scope ∧
      scope.name = entity.name ∧ scope.qualifier = none ∧
      ∀ facet ∈ scope.facets, facet.definition.entity? scope.name = some entity
  | .single kind file _, statement => statement.kind.bare = kind ∧
      (∀ location ∈ statement.locations, location.file = file) ∧
      ∀ scope, statement.scope? = some scope → scope.qualifier = none ∧
        ∀ facet ∈ scope.facets, facet.definition.entity? scope.name = none

/-- The labels of a view are routes, and its entries are those of the chart. -/
structure Charted (view : View) (label : StatementId → Route) (chart : Chart) : Prop where
  top : label root = []
  inner : ∀ {id parent statement}, view id = some statement → statement.parent = some parent →
    ∃ key : Key, label id = label parent ++ [key] ∧ key.Fits statement
  apart : ∀ {id other statement another}, view id = some statement → view other = some another →
    label id = label other → id = other
  marks : ∀ {id statement}, view id = some statement → chart (label id) = statement.marks
  covered : ∀ {route}, chart route ≠ 0 → ∃ id statement, view id = some statement ∧ label id = route

section Marks

theorem Key.Fits.of_parts {key : Key} {before after : Statement} (fits : key.Fits before)
    (kind : after.kind = before.kind) (locations : after.locations = before.locations) :
    key.Fits after := by
  cases key with
  | named entity =>
    obtain ⟨typed, scope, named, rest⟩ := fits
    exact ⟨typed, scope, kind.trans named, rest⟩
  | single bare file number =>
    obtain ⟨sameBare, sameFile, spoken⟩ := fits
    refine ⟨by rw [kind, sameBare], by rw [locations]; exact sameFile, ?_⟩
    intro scope found
    exact spoken scope (by rw [Statement.scope?, ← kind]; exact found)

theorem facets_of_scope? {statement : Statement} {scope : NamedScope}
    (found : statement.scope? = some scope) : statement.facets = scope.facets := by
  simp [Statement.facets, found]

theorem facets_of_unnamed {statement : Statement} (unnamed : statement.scope? = none) :
    statement.facets = [] := by
  simp [Statement.facets, unnamed]

def Key.bare : Key → StatementKind
  | .named entity => .named ⟨entity.name, none, []⟩
  | .single kind _ _ => kind

theorem Key.Fits.bare_eq {key : Key} {statement : Statement} (fits : key.Fits statement) :
    statement.kind.bare = key.bare := by
  cases key with
  | named entity =>
    obtain ⟨_, scope, kind, name, _⟩ := fits
    simp [kind, StatementKind.bare, StatementKind.mapScope, Key.bare, name]
  | single kind file number => exact fits.1

theorem Traced.seen_mark {view : View} (traced : Traced view) {id : StatementId}
    {statement : Statement} (found : view id = some statement) {mark : Mark}
    (member : mark ∈ statement.marks) : statement.hasLocationIn mark.file = true := by
  simp only [Statement.marks, List.mem_append, List.mem_map] at member
  rcases member with (⟨location, inside, rfl⟩ | ⟨expression, inside, rfl⟩) | ⟨facet, inside, rfl⟩
  · exact Statement.hasLocationIn_of_mem inside
  · exact traced.content found expression inside
  · cases scopeAt : statement.scope? with
    | none => simp [facets_of_unnamed scopeAt] at inside
    | some scope =>
      rw [facets_of_scope? scopeAt] at inside
      exact traced.facets found scopeAt facet inside

end Marks

namespace Charted

variable {view : View} {label : StatementId → Route} {chart : Chart}

theorem child_of_label (charted : Charted view label chart) (formed : view.WellFormed)
    {id other : StatementId} {statement below : Statement} {key : Key}
    (found : view id = some statement) (otherAt : view other = some below)
    (longer : label other = label id ++ [key]) :
    other ∈ statement.children ∧ key.Fits below := by
  have notRoot : other ≠ root := by
    rintro rfl
    rw [charted.top] at longer
    simp at longer
  obtain ⟨parent, above, parentAt, aboveAt, member⟩ := formed.listed otherAt notRoot
  obtain ⟨own, ownLabel, fits⟩ := charted.inner otherAt parentAt
  rw [longer] at ownLabel
  obtain ⟨sameRoute, sameKey⟩ := List.append_inj' ownLabel rfl
  obtain rfl : id = parent := charted.apart found aboveAt sameRoute
  rw [found, Option.some.injEq] at aboveAt
  rw [List.singleton_inj] at sameKey
  exact ⟨aboveAt ▸ member, sameKey ▸ fits⟩

theorem enrich (charted : Charted view label chart) {target : StatementId}
    {change : Statement → Statement} {before : Statement} {extra : List Mark}
    (found : view target = some before) (keeps : View.KeepsLinks change)
    (gained : ((change before).marks : Multiset Mark) = before.marks + extra)
    (fits : ∀ key : Key, key.Fits before → label target ≠ [] → key.Fits (change before)) :
    Charted (view.enrich target change) label (chart + Pi.single (label target) ↑extra) := by
  constructor
  · exact charted.top
  · intro id parent statement statementAt parentAt
    obtain ⟨own, ownAt, ⟨rfl, rfl⟩ | ⟨_, rfl⟩⟩ := View.enrich_eq_some statementAt
    · rw [found, Option.some.injEq] at ownAt
      subst ownAt
      rw [keeps.parent] at parentAt
      obtain ⟨key, longer, ownFits⟩ := charted.inner found parentAt
      exact ⟨key, longer, fits key ownFits (by simp [longer])⟩
    · exact charted.inner ownAt parentAt
  · intro id other statement another statementAt anotherAt same
    obtain ⟨own, ownAt, _⟩ := View.enrich_eq_some statementAt
    obtain ⟨own', ownAt', _⟩ := View.enrich_eq_some anotherAt
    exact charted.apart ownAt ownAt' same
  · intro id statement statementAt
    obtain ⟨own, ownAt, ⟨rfl, rfl⟩ | ⟨different, rfl⟩⟩ := View.enrich_eq_some statementAt
    · rw [found, Option.some.injEq] at ownAt
      subst ownAt
      rw [Pi.add_apply, Pi.single_eq_same, charted.marks found, gained]
    · have elsewhere : label id ≠ label target :=
        fun same => different (charted.apart ownAt found same)
      rw [Pi.add_apply, Pi.single_eq_of_ne elsewhere, add_zero, charted.marks ownAt]
  · intro route inhabited
    by_cases here : route = label target
    · exact ⟨target, _, View.enrich_self found, here.symm⟩
    · rw [Pi.add_apply, Pi.single_eq_of_ne here, add_zero] at inhabited
      obtain ⟨id, statement, statementAt, same⟩ := charted.covered inhabited
      obtain ⟨after, afterAt, _⟩ := View.exists_enrich target keeps statementAt
      exact ⟨id, after, afterAt, same⟩

theorem grow (charted : Charted view label chart) (formed : view.WellFormed)
    {id parent : StatementId} {leaf above : Statement} {key : Key} (vacant : view id = none)
    (aboveAt : view parent = some above) (fits : key.Fits leaf)
    (fresh : ∀ other statement, view other = some statement → label other ≠ label parent ++ [key]) :
    Charted (view.grow id parent leaf) (Function.update label id (label parent ++ [key]))
      (chart + Pi.single (label parent ++ [key]) ↑leaf.marks) := by
  have notRoot : root ≠ id := by
    rintro rfl
    obtain ⟨top, topAt, _⟩ := formed.top
    simp [vacant] at topAt
  have different : parent ≠ id := by
    rintro rfl
    simp [vacant] at aboveAt
  have empty : chart (label parent ++ [key]) = 0 := by
    by_contra inhabited
    obtain ⟨other, statement, otherAt, same⟩ := charted.covered inhabited
    exact fresh other statement otherAt same
  have origin {other : StatementId} {statement : Statement}
      (found : view.grow id parent leaf other = some statement) :
      (other = id ∧ statement = { leaf with parent := some parent, children := [] }) ∨
        other ≠ id ∧ ∃ before, view other = some before ∧ statement.parent = before.parent ∧
          statement.marks = before.marks ∧ statement.kind = before.kind ∧
          statement.locations = before.locations := by
    rcases View.grow_eq_some found with leafCase | ⟨notLeaf, before, beforeAt, cases⟩
    · exact .inl leafCase
    · refine .inr ⟨notLeaf, before, beforeAt, ?_⟩
      rcases cases with ⟨_, rfl⟩ | ⟨_, rfl⟩
      · exact ⟨rfl, rfl, rfl, rfl⟩
      · exact ⟨rfl, rfl, rfl, rfl⟩
  constructor
  · rw [Function.update_of_ne notRoot, charted.top]
  · intro other upper statement found parentAt
    rcases origin found with ⟨rfl, rfl⟩ | ⟨notLeaf, before, beforeAt, sameParent, _, kind, places⟩
    · obtain rfl : parent = upper := Option.some.inj parentAt
      refine ⟨key, ?_, fits.of_parts rfl rfl⟩
      rw [Function.update_self, Function.update_of_ne different]
    · rw [sameParent] at parentAt
      obtain ⟨own, longer, ownFits⟩ := charted.inner beforeAt parentAt
      have upperLive : upper ≠ id := by
        rintro rfl
        have otherNotRoot : other ≠ root := by
          rintro rfl
          rw [charted.top] at longer
          simp at longer
        obtain ⟨_, _, parentAt', liveAt, _⟩ := formed.listed beforeAt otherNotRoot
        rw [parentAt, Option.some.injEq] at parentAt'
        rw [← parentAt', vacant] at liveAt
        simp at liveAt
      refine ⟨own, ?_, ownFits.of_parts kind places⟩
      rw [Function.update_of_ne notLeaf, Function.update_of_ne upperLive, longer]
  · intro other another statement second found secondAt same
    rcases origin found with ⟨rfl, _⟩ | ⟨notLeaf, before, beforeAt, _⟩
    · rcases origin secondAt with ⟨isLeaf, _⟩ | ⟨notLeaf, before, beforeAt, _⟩
      · exact isLeaf.symm
      · rw [Function.update_self, Function.update_of_ne notLeaf] at same
        exact absurd same.symm (fresh another before beforeAt)
    · rw [Function.update_of_ne notLeaf] at same
      rcases origin secondAt with ⟨rfl, _⟩ | ⟨notLeaf', before', beforeAt', _⟩
      · rw [Function.update_self] at same
        exact absurd same (fresh other before beforeAt)
      · rw [Function.update_of_ne notLeaf'] at same
        exact charted.apart beforeAt beforeAt' same
  · intro other statement found
    rcases origin found with ⟨rfl, rfl⟩ | ⟨notLeaf, before, beforeAt, _, marks, _⟩
    · rw [Function.update_self, Pi.add_apply, empty, Pi.single_eq_same, zero_add]
      rfl
    · rw [Function.update_of_ne notLeaf, Pi.add_apply,
        Pi.single_eq_of_ne (fresh other before beforeAt), add_zero, charted.marks beforeAt, marks]
  · intro route inhabited
    by_cases here : route = label parent ++ [key]
    · exact ⟨id, _, View.grow_self, by rw [Function.update_self, here]⟩
    · rw [Pi.add_apply, Pi.single_eq_of_ne here, add_zero] at inhabited
      obtain ⟨other, statement, otherAt, same⟩ := charted.covered inhabited
      obtain ⟨after, afterAt, _⟩ := View.exists_grow parent leaf vacant otherAt
      refine ⟨other, after, afterAt, ?_⟩
      rw [Function.update_of_ne _, same]
      rintro rfl
      simp [vacant] at otherAt

end Charted

theorem empty_charted (language : Language) :
    Charted (empty language).get? (fun _ => []) 0 := by
  constructor
  · rfl
  · intro id parent statement found parentAt
    rw [(get?_single found).2] at parentAt
    simp [Statement.detached] at parentAt
  · intro id other statement another found otherAt _
    rw [(get?_single found).1, (get?_single otherAt).1]
  · intro id statement found
    rw [(get?_single found).2]
    rfl
  · intro route inhabited
    exact absurd rfl inhabited

section Removal

variable {tree : ScopeTree} {file : String}

theorem facets_leftover (statement : Statement) : (tree.leftover file statement).facets =
    statement.facets.filter fun facet => !Text.sameFolded facet.file file := by
  simp only [leftover, stripStatement, Statement.facets, Statement.scope?]
  cases statement.kind <;> rfl

theorem marks_leftover (statement : Statement) : (tree.leftover file statement).marks =
    statement.marks.filter fun mark => Text.sameFolded mark.file file = false := by
  have outside (name : String) :
      decide (Text.sameFolded name file = false) = !Text.sameFolded name file := by
    cases Text.sameFolded name file with
    | false => rfl
    | true => rfl
  simp only [Statement.marks, facets_leftover, List.filter_append, List.filter_map,
    Function.comp_def, outside]
  rfl

theorem Key.Fits.leftover {key : Key} {statement : Statement} (fits : key.Fits statement) :
    key.Fits (tree.leftover file statement) := by
  cases key with
  | named entity =>
    obtain ⟨typed, scope, kind, name, free, agree⟩ := fits
    refine ⟨typed, scope.withoutFile file, ?_, name, free, ?_⟩
    · simp [ScopeTree.leftover, stripStatement, kind, StatementKind.mapScope]
    · exact fun facet member => agree facet (List.mem_filter.mp member).1
  | single kind place number =>
    obtain ⟨bare, places, spoken⟩ := fits
    refine ⟨?_, fun location member => places location (List.mem_filter.mp member).1, ?_⟩
    · rw [← bare, ScopeTree.leftover, stripStatement, StatementKind.bare, StatementKind.bare]
      cases statement.kind <;> rfl
    · intro scope found
      obtain ⟨own, ownAt, rfl⟩ := scope?_stripStatement found
      obtain ⟨free, agree⟩ := spoken own ownAt
      exact ⟨free, fun facet member => agree facet (List.mem_filter.mp member).1⟩

theorem remnant_charted (traced : Traced tree.get?) {label : StatementId → Route} {chart : Chart}
    (charted : Charted tree.get? label chart) :
    Charted (tree.remnant file) label (chart.without file) := by
  constructor
  · exact charted.top
  · intro id parent statement found parentAt
    obtain ⟨_, before, beforeAt, rfl⟩ := remnant_eq_some.mp found
    obtain ⟨key, longer, fits⟩ := charted.inner beforeAt parentAt
    exact ⟨key, longer, fits.leftover⟩
  · intro id other statement another found otherAt same
    obtain ⟨_, before, beforeAt, _⟩ := remnant_eq_some.mp found
    obtain ⟨_, before', beforeAt', _⟩ := remnant_eq_some.mp otherAt
    exact charted.apart beforeAt beforeAt' same
  · intro id statement found
    obtain ⟨_, before, beforeAt, rfl⟩ := remnant_eq_some.mp found
    rw [Chart.without, charted.marks beforeAt, Multiset.filter_coe, marks_leftover]
  · intro route inhabited
    obtain ⟨mark, member⟩ := Multiset.exists_mem_of_ne_zero inhabited
    obtain ⟨member, outside⟩ := Multiset.mem_filter.mp member
    obtain ⟨id, statement, found, same⟩ :=
      charted.covered fun nothing => Multiset.notMem_zero mark (nothing ▸ member)
    rw [← same, charted.marks found, Multiset.mem_coe] at member
    have alive := survives_of_seen found (traced.seen_mark found member) outside
    exact ⟨id, _, remnant_of_survives found alive, same⟩

end Removal

/-! Shapes. -/

def SameKind : StatementKind → StatementKind → Prop
  | .named first, .named second => first.name = second.name ∧ first.facets.Perm second.facets
  | first, second => first = second

/-- Two statements of two trees agree in everything but numbers, languages and the order of
locations, expressions, facets and children. -/
inductive SameShape (left right : ScopeTree) : StatementId → StatementId → Prop
  | node {leftId rightId : StatementId} {first second : Statement}
      (pairs : List (StatementId × StatementId)) :
      left.get? leftId = some first → right.get? rightId = some second →
      SameKind first.kind second.kind → first.locations.Perm second.locations →
      first.content.Perm second.content → (pairs.map Prod.fst).Perm first.children →
      (pairs.map Prod.snd).Perm second.children →
      (∀ pair ∈ pairs, SameShape left right pair.1 pair.2) → SameShape left right leftId rightId

section Shapes

theorem perm_of_marks {first second : Statement}
    (same : (first.marks : Multiset Mark) = second.marks) :
    first.locations.Perm second.locations ∧ first.content.Perm second.content ∧
      first.facets.Perm second.facets := by
  have perm : first.marks.Perm second.marks := Multiset.coe_eq_coe.mp same
  refine ⟨?_, ?_, ?_⟩
  · have seen := perm.filterMap fun | .seen location => some location | _ => none
    simpa [Statement.marks, List.filterMap_append, List.filterMap_map, Function.comp_def] using seen
  · have held := perm.filterMap fun | .holds expression => some expression | _ => none
    simpa [Statement.marks, List.filterMap_append, List.filterMap_map, Function.comp_def] using held
  · have said := perm.filterMap fun | .spoken facet => some facet | _ => none
    simpa [Statement.marks, List.filterMap_append, List.filterMap_map, Function.comp_def] using said

theorem kind_of_scope? {statement : Statement} {scope : NamedScope}
    (found : statement.scope? = some scope) : statement.kind = .named scope := by
  cases kind : statement.kind <;>
    simp only [Statement.scope?, kind, StatementKind.scope?, reduceCtorEq, Option.some.injEq] at found
  rw [found]

theorem bare_of_unnamed {kind : StatementKind} (unnamed : kind.scope? = none) : kind.bare = kind := by
  cases kind with
  | named scope => simp [StatementKind.scope?] at unnamed
  | _ => rfl

theorem scope?_bare (kind : StatementKind) :
    kind.bare.scope? = kind.scope?.map fun scope => ⟨scope.name, none, []⟩ := by
  cases kind <;> rfl

theorem SameKind.refl (kind : StatementKind) : SameKind kind kind := by
  cases kind with
  | named scope => exact ⟨rfl, .refl _⟩
  | _ => rfl

theorem sameKind_of_bare {first second : Statement} (bare : first.kind.bare = second.kind.bare)
    (facets : first.facets.Perm second.facets) : SameKind first.kind second.kind := by
  have scopes := congrArg StatementKind.scope? bare
  rw [scope?_bare, scope?_bare] at scopes
  cases firstScope : first.scope? with
  | none =>
    have secondScope : second.scope? = none := by
      rw [Statement.scope?] at firstScope
      rwa [firstScope, Option.map_none, eq_comm, Option.map_eq_none_iff] at scopes
    rw [bare_of_unnamed firstScope, bare_of_unnamed secondScope] at bare
    exact bare ▸ .refl _
  | some own =>
    rw [← Statement.scope?, firstScope, Option.map_some, eq_comm, Option.map_eq_some_iff] at scopes
    obtain ⟨other, secondScope, names⟩ := scopes
    rw [facets_of_scope? firstScope, facets_of_scope? secondScope] at facets
    rw [kind_of_scope? firstScope, kind_of_scope? secondScope]
    exact ⟨(NamedScope.mk.inj names).1.symm, facets⟩

variable {left right : ScopeTree} {leftLabel rightLabel : StatementId → Route} {chart : Chart}

theorem exists_counterpart (leftTraced : Traced left.get?)
    (leftFormed : left.WellFormed) (leftCharted : Charted left.get? leftLabel chart)
    (rightFormed : right.WellFormed) (rightCharted : Charted right.get? rightLabel chart)
    {leftId rightId child : StatementId} {first second : Statement}
    (firstAt : left.get? leftId = some first) (secondAt : right.get? rightId = some second)
    (same : leftLabel leftId = rightLabel rightId) (member : child ∈ first.children) :
    ∃ other ∈ second.children, leftLabel child = rightLabel other := by
  obtain ⟨below, childAt, parentAt⟩ := leftFormed.linked firstAt member
  obtain ⟨key, longer, _⟩ := leftCharted.inner childAt parentAt
  have inhabited : chart (leftLabel child) ≠ 0 := by
    rw [leftCharted.marks childAt]
    have located := leftTraced.located childAt (leftFormed.child_ne_root firstAt member)
    simp [Statement.marks, located]
  obtain ⟨other, statement, otherAt, sameLabel⟩ := rightCharted.covered inhabited
  refine ⟨other, ?_, sameLabel.symm⟩
  rw [longer, same] at sameLabel
  exact (rightCharted.child_of_label rightFormed secondAt otherAt sameLabel).1

theorem Charted.last_key {view : View} {label : StatementId → Route}
    (charted : Charted view label chart) (formed : view.WellFormed) {id : StatementId}
    {statement : Statement} (found : view id = some statement) :
    (id = root ∧ label id = []) ∨ ∃ route key, label id = route ++ [key] ∧ key.Fits statement := by
  by_cases isRoot : id = root
  · exact .inl ⟨isRoot, isRoot ▸ charted.top⟩
  · obtain ⟨parent, _, parentAt, _⟩ := formed.listed found isRoot
    obtain ⟨key, longer, fits⟩ := charted.inner found parentAt
    exact .inr ⟨_, key, longer, fits⟩

theorem bare_eq_of_label (leftFormed : left.WellFormed) (leftTraced : Traced left.get?)
    (leftCharted : Charted left.get? leftLabel chart) (rightFormed : right.WellFormed)
    (rightTraced : Traced right.get?) (rightCharted : Charted right.get? rightLabel chart)
    {leftId rightId : StatementId} {first second : Statement}
    (firstAt : left.get? leftId = some first) (secondAt : right.get? rightId = some second)
    (same : leftLabel leftId = rightLabel rightId) : first.kind.bare = second.kind.bare := by
  rcases leftCharted.last_key leftFormed firstAt with ⟨rfl, empty⟩ | ⟨route, key, longer, fits⟩
  · rcases rightCharted.last_key rightFormed secondAt with ⟨rfl, _⟩ | ⟨route, key, longer, _⟩
    · rw [leftTraced.top firstAt, rightTraced.top secondAt]
    · simp [← same, empty] at longer
  · rcases rightCharted.last_key rightFormed secondAt with ⟨_, empty⟩ | ⟨route', key', longer', fits'⟩
    · simp [same, empty] at longer
    · rw [same, longer'] at longer
      have sameKey := List.singleton_inj.mp (List.append_inj' longer rfl).2
      rw [fits.bare_eq, fits'.bare_eq, sameKey]

/-- Well formed and traced trees with one chart have the same shape. -/
theorem sameShape_of_charted (leftFormed : left.WellFormed) (leftTraced : Traced left.get?)
    (leftCharted : Charted left.get? leftLabel chart) (rightFormed : right.WellFormed)
    (rightTraced : Traced right.get?) (rightCharted : Charted right.get? rightLabel chart) :
    SameShape left right root root := by
  -- The induction is on the levels that are left below a statement.
  have levels : ∀ (height : Nat) (leftId rightId : StatementId) (first second : Statement),
      left.get? leftId = some first → right.get? rightId = some second →
      leftLabel leftId = rightLabel rightId → left.nextId ≤ height + View.depth left.get? leftId →
      SameShape left right leftId rightId := by
    intro height
    induction height with
    | zero =>
      intro leftId rightId first second firstAt _ _ enough
      rw [Nat.zero_add] at enough
      exact absurd (leftFormed.depth_lt firstAt) (Nat.not_lt.mpr enough)
    | succ height ih =>
      intro leftId rightId first second firstAt secondAt same enough
      have sameMarks : (first.marks : Multiset Mark) = second.marks := by
        rw [← leftCharted.marks firstAt, ← rightCharted.marks secondAt, same]
      obtain ⟨locations, content, facets⟩ := perm_of_marks sameMarks
      have kind := sameKind_of_bare (bare_eq_of_label leftFormed leftTraced leftCharted rightFormed
        rightTraced rightCharted firstAt secondAt same) facets
      choose! counterpart member sameLabel using fun child (member : child ∈ first.children) =>
        exists_counterpart leftTraced leftFormed leftCharted rightFormed rightCharted firstAt
          secondAt same member
      have onto : (first.children.map counterpart).Perm second.children := by
        have distinct : (first.children.map counterpart).Nodup := by
          refine (leftFormed.unrepeated firstAt).map_on ?_
          intro child inside other inside' equal
          obtain ⟨below, belowAt, _⟩ := leftFormed.linked firstAt inside
          obtain ⟨below', belowAt', _⟩ := leftFormed.linked firstAt inside'
          apply leftCharted.apart belowAt belowAt'
          rw [sameLabel child inside, sameLabel other inside', equal]
        rw [List.perm_ext_iff_of_nodup distinct (rightFormed.unrepeated secondAt)]
        intro other
        rw [List.mem_map]
        constructor
        · rintro ⟨child, inside, rfl⟩
          exact member child inside
        · intro inside
          obtain ⟨child, childMember, equal⟩ := exists_counterpart rightTraced rightFormed
            rightCharted leftFormed leftCharted secondAt firstAt same.symm inside
          obtain ⟨below, belowAt, _⟩ := rightFormed.linked secondAt inside
          obtain ⟨below', belowAt', _⟩ := rightFormed.linked secondAt (member child childMember)
          refine ⟨child, childMember, rightCharted.apart belowAt' belowAt ?_⟩
          rw [equal, sameLabel child childMember]
      refine .node (first.children.map fun child => (child, counterpart child)) firstAt secondAt
        kind locations content ?_ ?_ ?_
      · rw [List.map_map]
        exact .of_eq (List.map_id _)
      · rw [List.map_map]
        exact onto
      · intro pair inside
        obtain ⟨child, childMember, rfl⟩ := List.mem_map.mp inside
        obtain ⟨below, belowAt, _⟩ := leftFormed.linked firstAt childMember
        obtain ⟨below', belowAt', _⟩ := rightFormed.linked secondAt (member child childMember)
        apply ih child (counterpart child) below below' belowAt belowAt'
          (sameLabel child childMember)
        rwa [leftFormed.depth_child firstAt childMember, Nat.add_comm _ 1, ← Nat.add_assoc]
  obtain ⟨first, firstAt, _⟩ := leftFormed.top
  obtain ⟨second, secondAt, _⟩ := rightFormed.top
  exact levels _ root root first second firstAt secondAt
    (leftCharted.top.trans rightCharted.top.symm) (Nat.le_add_right _ _)

end Shapes

end ScopeAtlas
