import ScopeAtlas.Proofs.Reversal
import ScopeAtlas.ScopeTree.Locate

/-!
A question about a place in one file has the same answer whatever happens to another file. Merging
and removing the other file leave between two trees of which the wider one holds more statements,
none of them at the place, and shares with the narrower one what the search looks at. The first hit
is then the same statement in both.
-/

namespace ScopeAtlas

open Markup ScopeTree SourceUnit

/-- The second tree adds to the first one only what a search for the location passes over. -/
structure Widens (location : Location) (tree wider : ScopeTree) : Prop where
  kept : ∀ {id own}, tree.get? id = some own → ∃ now, wider.get? id = some now ∧
    own.children = now.children.filter tree.isLive ∧ now.isScope = own.isScope ∧
    now.containsLocation location = own.containsLocation location
  added : ∀ {id now}, wider.get? id = some now → tree.get? id = none →
    now.containsLocation location = false

section Search

variable {location : Location} {tree wider : ScopeTree} {accept : Statement → Bool}

theorem findSome?_eq_findSome?_filter {children : List StatementId} {live : StatementId → Bool}
    {narrow wide : StatementId → Option StatementId}
    (kept : ∀ child ∈ children, live child = true → wide child = narrow child)
    (passed : ∀ child ∈ children, live child = false → wide child = none) :
    children.findSome? wide = (children.filter live).findSome? narrow := by
  induction children with
  | nil => rfl
  | cons child rest ih =>
    have restEq := ih (fun other member => kept other (List.mem_cons_of_mem _ member))
      (fun other member => passed other (List.mem_cons_of_mem _ member))
    cases alive : live child with
    | true =>
      rw [List.filter_cons_of_pos alive, List.findSome?_cons, List.findSome?_cons,
        kept child List.mem_cons_self alive, restEq]
    | false =>
      rw [List.filter_cons_of_neg (by simp [alive]), List.findSome?_cons,
        passed child List.mem_cons_self alive, restEq]

theorem Widens.child_added (widens : Widens location tree wider) (formed : tree.WellFormed)
    (widerFormed : wider.WellFormed) {id child : StatementId} {now : Statement}
    (nowAt : wider.get? id = some now) (vacant : tree.get? id = none)
    (member : child ∈ now.children) : tree.get? child = none := by
  cases childAt : tree.get? child with
  | none => rfl
  | some own =>
    have notRoot := widerFormed.child_ne_root nowAt member
    obtain ⟨parent, above, _, aboveAt, listed⟩ := formed.listed childAt notRoot
    obtain ⟨upper, upperAt, children, _⟩ := widens.kept aboveAt
    rw [children, List.mem_filter] at listed
    obtain ⟨below, belowAt, parentAt⟩ := widerFormed.linked nowAt member
    have sameParent := widerFormed.parent_of_child upperAt listed.1 belowAt
    rw [parentAt, Option.some.injEq] at sameParent
    simp [← sameParent, vacant] at aboveAt

theorem Widens.locate_added (widens : Widens location tree wider) (formed : tree.WellFormed)
    (widerFormed : wider.WellFormed) (depth : Nat) : ∀ id : StatementId, tree.get? id = none →
      wider.locate accept location depth id = none := by
  induction depth with
  | zero => exact fun _ _ => rfl
  | succ depth ih =>
    intro id vacant
    cases nowAt : wider.get? id with
    | none => simp [locate, nowAt]
    | some now =>
      have below : now.children.findSome? (wider.locate accept location depth) = none := by
        rw [List.findSome?_eq_none_iff]
        exact fun child member =>
          ih child (widens.child_added formed widerFormed nowAt vacant member)
      simp [locate, nowAt, below, widens.added nowAt vacant]

theorem Widens.locate_kept (widens : Widens location tree wider) (formed : tree.WellFormed)
    (widerFormed : wider.WellFormed)
    (agrees : ∀ own now : Statement, now.isScope = own.isScope → accept now = accept own)
    (depth : Nat) : ∀ (wideDepth : Nat) (id : StatementId) (own : Statement),
      tree.get? id = some own → tree.nextId ≤ depth + View.depth tree.get? id →
      wider.nextId ≤ wideDepth + View.depth wider.get? id →
      wider.locate accept location wideDepth id = tree.locate accept location depth id := by
  induction depth with
  | zero =>
    intro wideDepth id own found enough
    rw [Nat.zero_add] at enough
    exact absurd (formed.depth_lt found) (Nat.not_lt.mpr enough)
  | succ depth ih =>
    intro wideDepth id own found enough wideEnough
    obtain ⟨now, nowAt, children, scope, contains⟩ := widens.kept found
    cases wideDepth with
    | zero =>
      rw [Nat.zero_add] at wideEnough
      exact absurd (widerFormed.depth_lt nowAt) (Nat.not_lt.mpr wideEnough)
    | succ wideDepth =>
      have same : now.children.findSome? (wider.locate accept location wideDepth) =
          own.children.findSome? (tree.locate accept location depth) := by
        rw [children]
        refine findSome?_eq_findSome?_filter ?_ ?_
        · intro child member live
          obtain ⟨inner, innerAt⟩ := Option.isSome_iff_exists.mp live
          have listed : child ∈ own.children := by
            rw [children]
            exact List.mem_filter.mpr ⟨member, live⟩
          refine ih wideDepth child inner innerAt ?_ ?_
          · rwa [formed.depth_child found listed, Nat.add_comm _ 1, ← Nat.add_assoc]
          · rwa [widerFormed.depth_child nowAt member, Nat.add_comm _ 1, ← Nat.add_assoc]
        · intro child member dead
          refine widens.locate_added formed widerFormed wideDepth child ?_
          simpa [isLive] using dead
      simp only [locate, found, nowAt, same, agrees own now scope, contains]

theorem Widens.locate_root (widens : Widens location tree wider) (formed : tree.WellFormed)
    (widerFormed : wider.WellFormed)
    (agrees : ∀ own now : Statement, now.isScope = own.isScope → accept now = accept own) :
    wider.locate accept location (wider.slots.size + 1) root =
      tree.locate accept location (tree.slots.size + 1) root := by
  obtain ⟨top, topAt, _⟩ := formed.top
  have enough (any : ScopeTree) : any.nextId ≤ any.slots.size + 1 + View.depth any.get? root :=
    Nat.le_trans (Nat.le_succ _) (Nat.le_add_right _ _)
  exact widens.locate_kept formed widerFormed agrees _ _ root top topAt (enough tree) (enough wider)

theorem Widens.statementAt?_eq (widens : Widens location tree wider) (formed : tree.WellFormed)
    (widerFormed : wider.WellFormed) : wider.statementAt? location = tree.statementAt? location :=
  widens.locate_root formed widerFormed fun _ _ _ => rfl

theorem Widens.scopeAt?_eq (widens : Widens location tree wider) (formed : tree.WellFormed)
    (widerFormed : wider.WellFormed) : wider.scopeAt? location = tree.scopeAt? location := by
  have rootLive {any : ScopeTree} (anyFormed : any.WellFormed) : any.isLive root = true := by
    obtain ⟨top, topAt, _⟩ := anyFormed.top
    simp [isLive, topAt]
  rw [scopeAt?, scopeAt?, widens.locate_root formed widerFormed fun _ _ same => same,
    rootLive formed, rootLive widerFormed]

end Search

section OtherFile

variable {location : Location} {other : String} {tree : ScopeTree}

theorem contains_of_other {own : Location} (apart : Text.sameFolded other location.file = false)
    (ofOther : own.inFile other = true) : own.contains location = false := by
  have outside : own.inFile location.file = false := by
    rw [Location.inFile, Text.sameFolded_congr_left ofOther, apart]
  simp [Location.contains, outside]

theorem containsLocation_stripStatement (apart : Text.sameFolded other location.file = false)
    (statement : Statement) : (stripStatement other statement).containsLocation location =
      statement.containsLocation location := by
  simp only [Statement.containsLocation, stripStatement, List.any_filter]
  refine List.any_congr rfl fun own => ?_
  cases ofOther : own.inFile other with
  | true => simp [contains_of_other apart ofOther]
  | false => simp

theorem isScope_stripStatement (file : String) (statement : Statement) :
    (stripStatement file statement).isScope = statement.isScope := by
  cases kind : statement.kind <;>
    simp [stripStatement, Statement.isScope, kind, StatementKind.mapScope, StatementKind.isScope]

theorem Accrued.widens {merged : ScopeTree} (accrued : Accrued tree other merged.get?)
    (formed : tree.WellFormed) (apart : Text.sameFolded other location.file = false) :
    Widens location tree merged := by
  constructor
  · intro id own found
    obtain ⟨now, extra, nowAt, children, new, stripped⟩ := accrued.kept found
    refine ⟨now, nowAt, ?_, ?_, ?_⟩
    · have later : extra.filter tree.isLive = [] := by
        rw [List.filter_eq_nil_iff]
        intro child member
        simp [isLive, get?_eq_none_of_nextId_le (new child member)]
      rw [children, List.filter_append, formed.filter_isLive_children found, later,
        List.append_nil]
    · rw [← isScope_stripStatement other now, stripped]
      exact isScope_stripStatement other own
    · rw [← containsLocation_stripStatement apart now, stripped]
      exact containsLocation_stripStatement apart own
  · intro id now nowAt vacant
    simp only [Statement.containsLocation, List.any_eq_false]
    intro own member
    have ofOther : own.inFile other = true := by
      simp [Location.inFile, accrued.added nowAt vacant own member]
    simp [contains_of_other apart ofOther]

theorem removeFile_widened (formed : tree.WellFormed) (traced : Traced tree.get?)
    (apart : Text.sameFolded other location.file = false) :
    Widens location (tree.removeFile other).1 tree := by
  have left := get?_removeFile formed traced other
  constructor
  · intro id own found
    rw [left, remnant_eq_some] at found
    obtain ⟨_, before, beforeAt, rfl⟩ := found
    refine ⟨before, beforeAt, ?_, ?_, ?_⟩
    · refine List.filter_congr fun child member => ?_
      obtain ⟨below, belowAt, _⟩ := formed.linked beforeAt member
      rw [isLive, left]
      cases alive : tree.survives other child with
      | true => simp [remnant_of_survives belowAt alive]
      | false => simp [remnant_of_not_survives alive]
    · exact (isScope_stripStatement other before).symm
    · exact (containsLocation_stripStatement apart before).symm
  · intro id now nowAt vacant
    rw [left] at vacant
    have gone : tree.survives other id = false := by
      by_contra alive
      simp [remnant_of_survives nowAt (by simpa using alive)] at vacant
    rw [survives_of_get? nowAt, Bool.or_eq_false_iff, List.any_eq_false] at gone
    simp only [Statement.containsLocation, List.any_eq_false]
    intro own member
    have ofOther : own.inFile other = true := by simpa using gone.2 own member
    simp [contains_of_other apart ofOther]

end OtherFile

/-- Which statement and which scope are at a place of one file does not depend on another file:
merging a unit of it and removing it change neither answer. -/
theorem located_alike_for_other_file {language : Language} {tree : ScopeTree}
    (assembled : Assembled language tree) (location : Location) {other : String}
    (apart : Text.sameFolded other location.file = false) :
    (∀ (unitLanguage : Language) (element : Element) (unit : ScopeTree),
      readAs unitLanguage element = .ok unit → element.filename? = some other →
      (tree.merge unit).statementAt? location = tree.statementAt? location ∧
        (tree.merge unit).scopeAt? location = tree.scopeAt? location) ∧
    (tree.removeFile other).1.statementAt? location = tree.statementAt? location ∧
      (tree.removeFile other).1.scopeAt? location = tree.scopeAt? location := by
  obtain ⟨formed, traced⟩ := assembled.sound
  constructor
  · intro unitLanguage element unit parsed named
    obtain ⟨file, named', ofUnit⟩ := readAs_fileTree parsed
    obtain rfl : file = other := Option.some.inj (named'.symm.trans named)
    have mergedFormed := merge_wellFormed formed ofUnit.formed
    have widens : Widens location tree (tree.merge unit) :=
      (merge_accrued formed traced ofUnit).widens formed apart
    exact ⟨widens.statementAt?_eq formed mergedFormed, widens.scopeAt?_eq formed mergedFormed⟩
  · have leftFormed : (tree.removeFile other).1.WellFormed := removeFile_wellFormed formed traced
    have widens := removeFile_widened formed traced apart
    exact ⟨(widens.statementAt?_eq leftFormed formed).symm,
      (widens.scopeAt?_eq leftFormed formed).symm⟩

theorem located_alike_header_and_source :
    let tree := ((empty .cPlusPlus).merge (classTree "a.cpp")).merge (classTree "a.h")
    let location := Location.point "a.h" 4 1
    (tree.statementAt? location = some 2 ∧ tree.scopeAt? location = some 2) ∧
      ((tree.merge (classTree "A.cpp")).statementAt? location = some 2 ∧
        (tree.merge (classTree "A.cpp")).scopeAt? location = some 2) ∧
      (tree.removeFile "A.cpp").1.statementAt? location = some 2 ∧
        (tree.removeFile "A.cpp").1.scopeAt? location = some 2 := by
  intro tree location
  have assembled : Assembled .cPlusPlus tree :=
    .merge (.merge .start (readAs_classUnit "a.cpp")) (readAs_classUnit "a.h")
  have apart : Text.sameFolded "A.cpp" "a.h" = false := (Text.sameFolded_toList _ _).trans rfl
  have statement : tree.statementAt? location = some 2 := by decide +kernel
  have scope : tree.scopeAt? location = some 2 := by decide +kernel
  have alike := located_alike_for_other_file assembled location apart
  rw [statement, scope] at alike
  exact ⟨⟨statement, scope⟩, alike.1 _ _ _ (readAs_classUnit "A.cpp") rfl, alike.2⟩

end ScopeAtlas
