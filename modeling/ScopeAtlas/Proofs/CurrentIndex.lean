import ScopeAtlas.Proofs.Contributions
import ScopeAtlas.Proofs.Handles
import ScopeAtlas.Proofs.LoadedTree

/-!
Lookups by qualified name answer from the inventory that a program keeps beside its tree. Whatever
is merged, loaded, removed or cleared, the inventory is the one of the tree as it stands: where the
removal of a file reports no change there was none, in any tree. So a lookup gives what a walk
through the tree would give, in the order of the walk.
-/

namespace ScopeAtlas

open Markup ScopeTree SourceUnit

section Removal

variable {tree : ScopeTree} {file : String}

theorem modify_eq_self {id : StatementId} {statement : Statement} {change : Statement → Statement}
    (found : tree.get? id = some statement) (same : change statement = statement) :
    tree.modify id change = tree := by
  have slot : tree.slots[id]? = some (some statement) := Option.join_eq_some_iff.mp found
  have slots : tree.slots.modify id (fun own => own.map change) = tree.slots := by
    apply Array.ext_getElem?
    intro index
    rw [Array.getElem?_modify]
    split
    · rename_i isHere
      simp [← isHere, slot, same]
    · rfl
  rw [ScopeTree.modify, slots]

theorem stripChild_unchanged {strip : ScopeTree → StatementId → ScopeTree × Bool}
    (strips : ∀ tree id, (strip tree id).2 = false → (strip tree id).1 = tree)
    {state : ScopeTree × Bool} {child : StatementId}
    (quiet : (stripChild strip file state child).2 = false) :
    state.2 = false ∧ (stripChild strip file state child).1 = state.1 := by
  unfold stripChild at quiet ⊢
  cases childAt : state.1.get? child with
  | none =>
    rw [childAt] at quiet
    exact ⟨quiet, rfl⟩
  | some inner =>
    simp only [childAt] at quiet ⊢
    by_cases seen : inner.hasLocationIn file = true
    · rw [if_pos seen, Bool.or_eq_false_iff] at quiet
      have same := strips state.1 child quiet.2
      have located : inner.locations.isEmpty = false := by
        obtain ⟨location, member, _⟩ := Statement.hasLocationIn_iff.mp seen
        simpa using List.ne_nil_of_mem member
      simp only [if_pos seen, same, childAt, located]
      exact ⟨quiet.1, rfl⟩
    · rw [if_neg seen] at quiet ⊢
      exact ⟨quiet, rfl⟩

theorem stripBelow_unchanged (depth : Nat) : ∀ (tree : ScopeTree) (id : StatementId),
    (stripBelow file depth tree id).2 = false → (stripBelow file depth tree id).1 = tree := by
  induction depth with
  | zero => exact fun _ _ _ => rfl
  | succ depth ih =>
    intro tree id
    cases found : tree.get? id with
    | none => simp [stripBelow, found]
    | some statement =>
      rw [stripBelow_succ found]
      refine List.foldlRecOn (motive := fun state : ScopeTree × Bool =>
        state.2 = false → state.1 = tree) _ _ ?_ ?_
      · intro untouched
        exact modify_eq_self found (stripStatement_of_not_contributed untouched)
      · intro state sofar child _ quiet
        obtain ⟨quietBefore, same⟩ := stripChild_unchanged ih quiet
        exact same.trans (sofar quietBefore)

theorem removeFile_unchanged (quiet : (tree.removeFile file).2 = false) :
    (tree.removeFile file).1 = tree :=
  stripBelow_unchanged _ tree root quiet

end Removal

inductive Edit
  | merge (unit : ScopeTree)
  | load (text : String)
  | remove (file : String)
  | clear

def Program.edit (program : Program) : Edit → Program
  | .merge unit => (program.mergeUnit unit).1
  | .load text => match program.loadDocument text with
    | .ok (loaded, _) => loaded
    | .error _ => program
  | .remove file => (program.removeFile file).1
  | .clear => program.clear

/-- The inventory is the one of the tree. -/
def Program.Current (program : Program) : Prop :=
  program.inventory = .build program.tree

section Inventories

variable {program : Program}

theorem current_ofTree (tree : ScopeTree) : (Program.ofTree tree).Current :=
  rfl

theorem build_empty (language : Language) : Inventory.build (.empty language) = .empty :=
  rfl

theorem current_mergeUnits (units : List ScopeTree) :
    ∀ program : Program, program.Current → (program.mergeUnits units).1.Current := by
  induction units with
  | nil => exact fun _ current => current
  | cons unit rest ih => exact fun program _ => ih _ (current_ofTree _)

theorem Program.Current.removeFile (current : program.Current) (file : String) :
    (program.removeFile file).1.Current := by
  unfold Program.removeFile
  cases removed : program.tree.removeFile file with
  | mk left changed =>
    cases changed with
    | true => exact current_ofTree left
    | false =>
      have same := @removeFile_unchanged program.tree file (by rw [removed])
      rw [removed] at same
      rw [show left = program.tree from same]
      exact current

theorem Program.Current.edit (current : program.Current) (edit : Edit) :
    (program.edit edit).Current := by
  cases edit with
  | merge unit => exact current_ofTree _
  | load text =>
    rw [Program.edit, Program.loadDocument]
    cases readDocument text with
    | error failure => exact current
    | ok units => exact current_mergeUnits units program current
  | remove file => exact current.removeFile file
  | clear => exact (build_empty program.tree.language).symm

theorem Program.Current.edits (current : program.Current) (edits : List Edit) :
    (edits.foldl Program.edit program).Current :=
  List.foldlRecOn edits Program.edit current fun _ sofar edit _ => sofar.edit edit

end Inventories

/-! A unit made by hand may hold anything. Where the merged units are trees, the program holds one
tree below an unnamed global namespace. -/

def Edit.WellFormed : Edit → Prop
  | .merge unit => unit.WellFormed
  | _ => True

structure Program.Rooted (program : Program) : Prop where
  formed : program.tree.WellFormed
  unnamed : program.tree.scope? root = none

section Trees

variable {program : Program}

theorem Updated.scope?_root {before after : ScopeTree} (updated : Updated before after)
    (formed : before.WellFormed) (unnamed : before.scope? root = none) :
    after.scope? root = none := by
  obtain ⟨afterFormed, persists⟩ := updated.persists formed
  obtain ⟨earlier, earlierAt, _⟩ := formed.top
  obtain ⟨later, laterAt, _⟩ := afterFormed.top
  have scopes := congrArg StatementKind.scope? (persists.survivor earlierAt laterAt).2.1
  rw [scope?_of_get? earlierAt, Statement.scope?] at unnamed
  rw [scope?_bare, scope?_bare, unnamed, Option.map_none, Option.map_eq_none_iff] at scopes
  rw [scope?_of_get? laterAt, Statement.scope?, scopes]

theorem Program.Rooted.updated (rooted : program.Rooted) {after : Program}
    (updated : Updated program.tree after.tree) : after.Rooted :=
  ⟨(updated.persists rooted.formed).1, updated.scope?_root rooted.formed rooted.unnamed⟩

theorem updated_removeFiles (files : List String) :
    ∀ tree : ScopeTree, Updated tree (Program.removeFiles tree files).1 := by
  induction files with
  | nil => exact fun _ => .refl
  | cons file rest ih => exact fun tree => .head (.removeFile file) (ih _)

theorem updated_mergeUnit (program : Program) {unit : ScopeTree} (formed : unit.WellFormed) :
    Updated program.tree (program.mergeUnit unit).1.tree :=
  (updated_removeFiles unit.files program.tree).tail (.merge formed)

theorem updated_mergeUnits (units : List ScopeTree) (formed : ∀ unit ∈ units, unit.WellFormed) :
    ∀ program : Program, Updated program.tree (program.mergeUnits units).1.tree := by
  induction units with
  | nil => exact fun _ => .refl
  | cons unit rest ih =>
    intro program
    have first := updated_mergeUnit program (formed unit List.mem_cons_self)
    exact first.trans (ih (fun other member => formed other (List.mem_cons_of_mem _ member)) _)

theorem updated_removeFile (program : Program) (file : String) :
    Updated program.tree (program.removeFile file).1.tree := by
  rw [Holds.tree_removeFile]
  exact .single (.removeFile file)

theorem rooted_empty (language : Language) : (Program.empty language).Rooted :=
  ⟨empty_wellFormed language, rfl⟩

theorem Program.Rooted.edit (rooted : program.Rooted) {edit : Edit} (formed : edit.WellFormed) :
    (program.edit edit).Rooted := by
  cases edit with
  | merge unit => exact rooted.updated (updated_mergeUnit program formed)
  | load text =>
    rw [Program.edit, Program.loadDocument]
    cases parsed : readDocument text with
    | error failure => exact rooted
    | ok units =>
      refine rooted.updated (updated_mergeUnits units (fun unit member => ?_) program)
      obtain ⟨_, ofUnit⟩ := fileTree_of_readDocument parsed unit member
      exact ofUnit.formed
  | remove file => exact rooted.updated (updated_removeFile program file)
  | clear => exact ⟨empty_wellFormed program.tree.language, rfl⟩

theorem Program.Rooted.edits (rooted : program.Rooted) {edits : List Edit}
    (formed : ∀ edit ∈ edits, edit.WellFormed) : (edits.foldl Program.edit program).Rooted :=
  List.foldlRecOn edits Program.edit rooted fun _ sofar edit member =>
    sofar.edit (formed edit member)

end Trees

/-- A namespace, type or placeholder with a name whose qualified name is the one asked for: the
parts of the question between points and colons, trimmed and joined with points. -/
def ScopeTree.Answers (tree : ScopeTree) (question : String) (id : StatementId) : Prop :=
  (∃ name, Titled tree id name) ∧ tree.qualifiedName id =
    ".".intercalate (((question.toList.splitOnP fun letter => letter == '.' || letter == ':').map
      fun piece => Text.trim (String.ofList piece)).filter fun part => part != "")

section Lookup

variable {tree : ScopeTree}

theorem exists_titled_iff {id : StatementId} : (∃ name, Titled tree id name) ↔
    ((tree.scope? id).any fun scope => scope.isContainer && scope.name != "") = true := by
  unfold Titled
  cases tree.scope? id with
  | none => simp
  | some scope => simp

instance (id : StatementId) : Decidable (∃ name, Titled tree id name) :=
  decidable_of_iff' _ exists_titled_iff

instance (question : String) : DecidablePred (tree.Answers question) := fun _ =>
  inferInstanceAs (Decidable (_ ∧ _))

theorem pieces_eq_splitOnP (separates : Char → Bool) (letters : List Char) :
    Text.pieces separates letters = letters.splitOnP separates := by
  induction letters with
  | nil => rfl
  | cons letter rest ih =>
    rw [List.splitOnP_cons_eq_if_modifyHead, Text.pieces, ih]
    by_cases cut : separates letter = true
    · rw [if_pos cut, if_pos cut]
    · rw [if_neg cut, if_neg cut]
      cases split : rest.splitOnP separates with
      | nil => exact absurd split (List.splitOnP_ne_nil separates rest)
      | cons piece later => rfl

theorem lookupParts_build (question : String) :
    (Inventory.build tree).lookupParts (Program.nameParts question) =
      (tree.descendants root).filter fun id => tree.Answers question id := by
  have parts : (Program.nameParts question).filter (fun part => part != "") =
      Program.nameParts question := by
    rw [Program.nameParts, List.filter_filter]
    simp only [Bool.and_self]
  rw [Inventory.lookupParts, parts, lookup_build]
  refine List.filter_congr fun id _ => ?_
  rw [Bool.eq_iff_iff, decide_eq_true_eq, ScopeTree.Answers, ← pieces_eq_splitOnP,
    Option.any_eq_true]
  simp only [entryOf?_eq_some, beq_iff_eq]
  constructor
  · rintro ⟨entry, ⟨name, titled, rfl⟩, same⟩
    exact ⟨⟨name, titled⟩, same⟩
  · rintro ⟨⟨name, titled⟩, same⟩
    exact ⟨_, ⟨name, titled, rfl⟩, same⟩

end Lookup

/-- After any edits a lookup by qualified name gives, in the order of a walk through the tree as it
stands, exactly the named scopes that have the name. Where every merged unit is one tree the walk
meets all live statements. -/
theorem findScopes_never_stale (language : Language) (edits : List Edit) (question : String) :
    let program := edits.foldl Program.edit (.empty language)
    program.findScopes question =
        (program.tree.descendants root).filter (fun id => program.tree.Answers question id) ∧
      ((∀ edit ∈ edits, edit.WellFormed) → ∃ seen, Walked program.tree [root] seen ∧ seen.Nodup ∧
        (∀ id, id ∈ seen ↔ program.tree.isLive id = true) ∧
        program.findScopes question = seen.filter fun id => program.tree.Answers question id) := by
  intro program
  have current : program.Current := (current_ofTree (.empty language)).edits edits
  have answered : program.findScopes question =
      (program.tree.descendants root).filter fun id => program.tree.Answers question id := by
    rw [Program.findScopes, current, lookupParts_build]
  refine ⟨answered, fun formed => ?_⟩
  have rooted : program.Rooted := (rooted_empty language).edits formed
  have unasked : ¬program.tree.Answers question root := by
    rintro ⟨⟨name, scope, scopeAt, _⟩, _⟩
    simp [rooted.unnamed] at scopeAt
  refine ⟨root :: program.tree.descendants root, walked_descendants rooted.formed,
    nodup_root_cons_descendants rooted.formed, fun id => mem_root_cons_descendants rooted.formed, ?_⟩
  rw [answered, List.filter_cons_of_neg (by simpa using unasked)]

theorem findScopes_never_stale_header_removed :
    let edits := [Edit.merge (classTree "a.h"), .load "", .remove "b.h",
      .merge (memberTree "a.cpp"), .remove "a.h"]
    let program := edits.foldl Program.edit (.empty .cPlusPlus)
    program.findScopes ":: A ." = [2] ∧ (∀ edit ∈ edits, edit.WellFormed) ∧
      ∃ seen, Walked program.tree [root] seen ∧ seen.Nodup ∧
        (∀ id, id ∈ seen ↔ program.tree.isLive id = true) ∧
        seen.filter (fun id => program.tree.Answers ":: A ." id) = [2] := by
  intro edits program
  have answer : program.findScopes ":: A ." = [2] := by decide +kernel
  have formed : ∀ edit ∈ edits, edit.WellFormed := by
    obtain ⟨_, _, ofUnit⟩ := readAs_fileTree (readAs_classUnit "a.h")
    simp [edits, Edit.WellFormed, ofUnit.formed, memberTree_wellFormed]
  obtain ⟨seen, walked, distinct, all, same⟩ :=
    (findScopes_never_stale .cPlusPlus edits ":: A .").2 formed
  exact ⟨answer, formed, seen, walked, distinct, all, same.symm.trans answer⟩

end ScopeAtlas
