import ScopeAtlas.Proofs.Conservation
import ScopeAtlas.Proofs.Replacement
import ScopeAtlas.WorkingSet.Basic

/-!
What a working set keeps of its documents. Every source file of a tracked document should be in the
program. Documents may name the same source, and then the write that drops one document also drops
what the others contributed. Main statement: nothing is ever lost if and only if every write spares
the sources that other documents list.
-/

namespace ScopeAtlas

open Markup ScopeTree SourceUnit

structure Program.Sound (program : Program) : Prop where
  formed : program.tree.WellFormed
  traced : Traced program.tree.get?

section Files

theorem mem_insertName {name other : String} {names : List String} :
    other ∈ insertName name names ↔ other = name ∨ other ∈ names := by
  induction names with
  | nil => simp [insertName]
  | cons first rest ih =>
    rw [insertName]
    split
    · simp
    · split
      · rename_i same
        rw [beq_iff_eq] at same
        simp [same]
      · rw [List.mem_cons, ih, List.mem_cons]
        exact or_left_comm

theorem mem_sortedNames {name : String} {names : List String} :
    name ∈ sortedNames names ↔ name ∈ names := by
  have steps : ∀ (rest sorted : List String),
      name ∈ rest.foldl (fun sorted name => insertName name sorted) sorted ↔
        name ∈ rest ∨ name ∈ sorted := by
    intro rest
    induction rest with
    | nil => simp
    | cons first rest ih =>
      intro sorted
      rw [List.foldl_cons, ih, mem_insertName, List.mem_cons]
      tauto
  simpa [sortedNames] using steps names []

variable {program : Program} {file : String}

theorem containsFile_iff (sound : program.Sound) {top : Statement}
    (topAt : program.tree.get? root = some top) :
    program.containsFile file = true ↔ top.hasLocationIn file = true := by
  simp only [Program.containsFile, List.any_eq_true, Program.files, ScopeTree.files, mem_sortedNames,
    List.mem_map, mem_locations]
  constructor
  · rintro ⟨_, ⟨location, ⟨id, statement, found, member⟩, rfl⟩, same⟩
    apply sound.traced.seen_root sound.formed found topAt
    exact Statement.hasLocationIn_congr (Text.sameFolded_symm same)
      (Statement.hasLocationIn_of_mem member)
  · intro seen
    obtain ⟨location, member, same⟩ := Statement.hasLocationIn_iff.mp seen
    exact ⟨location.file, ⟨location, ⟨root, top, topAt, member⟩, rfl⟩, Text.sameFolded_symm same⟩

theorem Program.Sound.removeFile (sound : program.Sound) (file : String) :
    (program.removeFile file).1.Sound := by
  constructor
  · rw [Holds.tree_removeFile]
    exact removeFile_wellFormed sound.formed sound.traced
  · rw [Holds.tree_removeFile]
    exact removeFile_traced sound.formed sound.traced

theorem containsFile_removeFile (sound : program.Sound) (gone : String) :
    (program.removeFile gone).1.containsFile file = true ↔
      program.containsFile file = true ∧ Text.sameFolded file gone = false := by
  obtain ⟨now, nowAt, _⟩ := (sound.removeFile gone).formed.top
  rw [containsFile_iff (sound.removeFile gone) nowAt]
  rw [Holds.tree_removeFile] at nowAt
  obtain ⟨top, topAt, _, _, _, locations, _⟩ :=
    (removesExactly_of_traced sound.formed sound.traced gone).survivor nowAt
  rw [containsFile_iff sound topAt]
  simp only [Statement.hasLocationIn_iff, locations, List.mem_filter, Location.inFile]
  constructor
  · rintro ⟨location, ⟨member, outside⟩, same⟩
    refine ⟨⟨location, member, same⟩, ?_⟩
    rw [← Text.sameFolded_congr_left same]
    simpa using outside
  · rintro ⟨⟨location, member, same⟩, apart⟩
    refine ⟨location, ⟨member, ?_⟩, same⟩
    rw [Text.sameFolded_congr_left same, apart]
    rfl

variable {unit : ScopeTree} {unitFile : String}

theorem Program.Sound.mergeUnit (sound : program.Sound) (ofUnit : FileTree unitFile unit) :
    (program.mergeUnit unit).1.Sound := by
  have formed := @removeFile_wellFormed program.tree unitFile sound.formed sound.traced
  have traced := @removeFile_traced program.tree unitFile sound.formed sound.traced
  constructor
  · rw [Holds.tree_mergeUnit program ofUnit]
    exact merge_wellFormed formed ofUnit.formed
  · rw [Holds.tree_mergeUnit program ofUnit]
    exact merge_traced formed traced ofUnit

theorem locations_merge_root {tree : ScopeTree} (formed : tree.WellFormed)
    (traced : Traced tree.get?) (ofUnit : FileTree unitFile unit) {own top : Statement}
    (ownAt : tree.get? root = some own) (topAt : unit.get? root = some top) :
    ∃ now, (tree.merge unit).get? root = some now ∧
      now.locations = own.locations ++ top.locations := by
  have positive := root_lt_nextId formed
  have folded : (firstStage tree unit top).tree.get? root =
      some (absorbStatement own (shiftStatement tree.nextId top)) := by
    simp only [firstStage, get?_modify, get?_vacate, if_neg (Nat.ne_of_gt positive), get?_append,
      if_pos positive, ownAt, if_true, Option.map_some]
  have unnamed : (absorbStatement own (shiftStatement tree.nextId top)).scope? = none := by
    simp [Statement.scope?, absorbStatement, traced.top ownAt, StatementKind.scope?]
  obtain ⟨now, nowAt, same⟩ :=
    (merge_run formed ofUnit.formed topAt).unnamed_kept folded unnamed
  exact ⟨now, nowAt, (unlinked_eq_iff.mp same).2.2.1⟩

theorem containsFile_mergeUnit (sound : program.Sound) (ofUnit : FileTree unitFile unit) :
    (program.mergeUnit unit).1.containsFile file = true ↔
      program.containsFile file = true ∨ Text.sameFolded file unitFile = true := by
  have without := sound.removeFile unitFile
  have cleared := @containsFile_removeFile program file sound unitFile
  obtain ⟨own, ownAt, _⟩ := without.formed.top
  obtain ⟨top, topAt, _⟩ := ofUnit.formed.top
  rw [containsFile_iff without ownAt] at cleared
  obtain ⟨now, nowAt, locations⟩ :=
    locations_merge_root without.formed without.traced ofUnit ownAt topAt
  rw [Holds.tree_removeFile, ← Holds.tree_mergeUnit program ofUnit] at nowAt
  rw [containsFile_iff (sound.mergeUnit ofUnit) nowAt]
  have topSeen : top.hasLocationIn file = true ↔ Text.sameFolded file unitFile = true := by
    rw [Statement.hasLocationIn_iff]
    constructor
    · rintro ⟨location, member, same⟩
      rw [(ofUnit.ofFile topAt).locations location member] at same
      exact Text.sameFolded_symm same
    · intro same
      obtain ⟨location, member⟩ := List.exists_mem_of_ne_nil _ (ofUnit.ofFile topAt).located
      refine ⟨location, member, ?_⟩
      rw [(ofUnit.ofFile topAt).locations location member]
      exact Text.sameFolded_symm same
  have both : now.hasLocationIn file = true ↔
      own.hasLocationIn file = true ∨ top.hasLocationIn file = true := by
    simp only [Statement.hasLocationIn, locations, List.any_append, Bool.or_eq_true]
  rw [both, cleared, topSeen]
  by_cases same : Text.sameFolded file unitFile = true
  · simp [same]
  · simp [same]

end Files

section Units

variable {program : Program} {file : String}

theorem exists_of_bind_ok {ε α β : Type} {first : Except ε α} {next : α → Except ε β} {result : β}
    (done : (first >>= next) = .ok result) : ∃ value, first = .ok value ∧ next value = .ok result := by
  cases first with
  | error cause => simp [bind, Except.bind] at done
  | ok value => exact ⟨value, rfl, done⟩

theorem fileTree_of_mapM {elements : List Element} {units : List ScopeTree}
    (parsed : elements.mapM SourceUnit.read = .ok units) :
    ∀ unit ∈ units, ∃ unitFile, FileTree unitFile unit := by
  induction elements generalizing units with
  | nil =>
    obtain rfl : [] = units := Except.ok.inj parsed
    simp
  | cons element rest ih =>
    rw [List.mapM_cons] at parsed
    obtain ⟨tree, treeParsed, parsed⟩ := exists_of_bind_ok parsed
    obtain ⟨others, othersParsed, parsed⟩ := exists_of_bind_ok parsed
    obtain rfl : tree :: others = units := Except.ok.inj parsed
    intro unit member
    rcases List.mem_cons.mp member with rfl | later
    · obtain ⟨language, _, readTree⟩ := exists_of_bind_ok treeParsed
      obtain ⟨unitFile, _, ofUnit⟩ := readAs_fileTree readTree
      exact ⟨unitFile, ofUnit⟩
    · exact ih othersParsed unit later

theorem fileTree_of_readDocument {contents : String} {units : List ScopeTree}
    (parsed : SourceUnit.readDocument contents = .ok units) :
    ∀ unit ∈ units, ∃ unitFile, FileTree unitFile unit := by
  obtain ⟨elements, _, read⟩ := exists_of_bind_ok parsed
  exact fileTree_of_mapM read

theorem mergeUnits_spec (units : List ScopeTree) (sound : program.Sound)
    (ofUnits : ∀ unit ∈ units, ∃ unitFile, FileTree unitFile unit) :
    (program.mergeUnits units).1.Sound ∧
      ((program.mergeUnits units).1.containsFile file = true ↔
        program.containsFile file = true ∨
          ∃ source ∈ units.flatMap ScopeTree.files, Text.sameFolded file source = true) := by
  induction units generalizing program with
  | nil => exact ⟨sound, by simp [Program.mergeUnits]⟩
  | cons unit rest ih =>
    obtain ⟨unitFile, ofUnit⟩ := ofUnits unit List.mem_cons_self
    obtain ⟨soundLast, contains⟩ := ih (sound.mergeUnit ofUnit) fun other member =>
      ofUnits other (List.mem_cons_of_mem _ member)
    refine ⟨soundLast, contains.trans ?_⟩
    rw [containsFile_mergeUnit sound ofUnit, List.flatMap_cons, files_of_fileTree ofUnit]
    simp [or_assoc]

theorem removeFiles_spec (sources : List String) (sound : program.Sound) :
    let without := sources.foldl (fun program source => (program.removeFile source).1) program
    without.Sound ∧ (without.containsFile file = true ↔
      program.containsFile file = true ∧
        ∀ source ∈ sources, Text.sameFolded file source = false) := by
  induction sources generalizing program with
  | nil => exact ⟨sound, by simp⟩
  | cons source rest ih =>
    obtain ⟨soundLast, contains⟩ := ih (sound.removeFile source)
    refine ⟨soundLast, contains.trans ?_⟩
    rw [containsFile_removeFile sound]
    simp [and_assoc]

end Units

namespace WorkingSet

variable {Digest : Type}

/-- Every source file that is listed for a tracked document is in the program. -/
def NothingLost (set : WorkingSet Digest) : Prop :=
  ∀ entry ∈ set.tracked, ∀ source ∈ entry.sources, set.program.containsFile source = true

structure Document where
  contents : String
  units : List ScopeTree
  parsed : SourceUnit.readDocument contents = .ok units

namespace Document

def sources (document : Document) : List String :=
  document.units.flatMap ScopeTree.files

def ofText? (contents : String) : Option Document :=
  match parsed : SourceUnit.readDocument contents with
  | .ok units => some ⟨contents, units, parsed⟩
  | .error _ => none

def read? [DecidableEq Digest] (digest : String → Digest) (known : Option Digest) :
    Except FileFault String → Option Document
  | .error _ => none
  | .ok text => if known == some (digest text) then none else ofText? text

end Document

/-! ### Writes -/

inductive Write
  | replace (dropped target : Path) (document : Document)
  | drop (path : Path)
  | clear

def sourcesAt (set : WorkingSet Digest) (path : Path) : List String :=
  ((set.find? path).map (·.sources)).getD []

namespace Write

def run (set : WorkingSet Digest) : Write → WorkingSet Digest
  | .replace dropped target document =>
    (set.dropDocument dropped).mergeDocument target document.contents document.units
  | .drop path => set.dropDocument path
  | .clear => { set with program := set.program.clear, tracked := [] }

def removed (set : WorkingSet Digest) : Write → List String
  | .replace dropped _ _ => set.sourcesAt dropped
  | .drop path => set.sourcesAt path
  | .clear => set.program.files

def merged : Write → List String
  | .replace _ _ document => document.sources
  | .drop _ | .clear => []

def others (set : WorkingSet Digest) : Write → List (Tracked Digest)
  | .replace dropped target _ =>
    set.tracked.filter fun entry => !entry.path.same dropped && !entry.path.same target
  | .drop path => set.tracked.filter fun entry => !entry.path.same path
  | .clear => []

/-- A write spares the other documents: a source that one of them lists is not removed, or it is
merged again. -/
def Spares (set : WorkingSet Digest) (write : Write) : Prop :=
  ∀ entry ∈ write.others set, ∀ source ∈ entry.sources, ∀ gone ∈ write.removed set,
    Text.sameFolded source gone = true → ∃ file ∈ write.merged, Text.sameFolded source file = true

end Write

section Steps

variable {set : WorkingSet Digest}

theorem tracked_dropDocument (path : Path) : (set.dropDocument path).tracked =
    set.tracked.filter fun entry => !entry.path.same path := by
  unfold dropDocument
  split
  · rename_i untracked
    rw [find?, List.find?_eq_none] at untracked
    rw [eq_comm, List.filter_eq_self]
    intro entry member
    simpa using untracked entry member
  · rfl

theorem program_dropDocument (path : Path) : (set.dropDocument path).program =
    (set.sourcesAt path).foldl (fun program source => (program.removeFile source).1)
      set.program := by
  unfold dropDocument sourcesAt
  split
  · rename_i untracked
    rw [untracked]
    rfl
  · rename_i tracked
    rw [tracked]
    rfl

theorem mem_tracked_mergeDocument {target : Path} {contents : String} {units : List ScopeTree} :
    (∀ entry ∈ (set.mergeDocument target contents units).tracked,
      (entry ∈ set.tracked ∧ entry.path.same target = false) ∨
        entry.sources = units.flatMap ScopeTree.files) ∧
    ∀ entry ∈ set.tracked, entry.path.same target = false →
      entry ∈ (set.mergeDocument target contents units).tracked := by
  unfold mergeDocument
  by_cases known : set.contains target = true
  · simp only [known, if_true, List.mem_map]
    constructor
    · rintro _ ⟨other, member, rfl⟩
      by_cases same : other.path.same target = true
      · simp [same]
      · simp [same, member]
    · intro entry member apart
      exact ⟨entry, member, by simp [apart]⟩
  · simp only [known, if_false, List.mem_append, List.mem_singleton, Bool.false_eq_true]
    constructor
    · rintro entry (member | rfl)
      · refine .inl ⟨member, ?_⟩
        rw [contains, Option.not_isSome_iff_eq_none, find?, List.find?_eq_none] at known
        simpa using known entry member
      · exact .inr rfl
    · exact fun entry member _ => .inl member

theorem containsFile_clear (program : Program) (file : String) :
    program.clear.containsFile file = false := by
  rfl

namespace Write

variable {write : Write}

theorem mem_tracked_run :
    (∀ entry ∈ (write.run set).tracked,
      entry ∈ write.others set ∨ entry.sources = write.merged) ∧
    ∀ entry ∈ write.others set, entry ∈ (write.run set).tracked := by
  cases write with
  | replace dropped target document =>
    obtain ⟨only, kept⟩ := @mem_tracked_mergeDocument Digest (set.dropDocument dropped) target
      document.contents document.units
    simp only [tracked_dropDocument, List.mem_filter, Bool.not_eq_eq_eq_not, Bool.not_true] at only kept
    simp only [run, others, List.mem_filter, Bool.and_eq_true, Bool.not_eq_eq_eq_not, Bool.not_true]
    constructor
    · intro entry member
      rcases only entry member with ⟨⟨old, notDropped⟩, notTarget⟩ | new
      · exact .inl ⟨old, notDropped, notTarget⟩
      · exact .inr new
    · rintro entry ⟨old, notDropped, notTarget⟩
      exact kept entry ⟨old, notDropped⟩ notTarget
  | drop path =>
    rw [run, tracked_dropDocument, others]
    exact ⟨fun entry member => .inl member, fun entry member => member⟩
  | clear => simp [run, others]

theorem containsFile_run (sound : set.program.Sound) (file : String) :
    (write.run set).program.Sound ∧ ((write.run set).program.containsFile file = true ↔
      (set.program.containsFile file = true ∧
        ∀ gone ∈ write.removed set, Text.sameFolded file gone = false) ∨
      ∃ source ∈ write.merged, Text.sameFolded file source = true) := by
  cases write with
  | replace dropped target document =>
    obtain ⟨soundDropped, containsDropped⟩ :=
      @removeFiles_spec set.program file (set.sourcesAt dropped) sound
    obtain ⟨soundMerged, containsMerged⟩ := @mergeUnits_spec _ file document.units soundDropped
      (fileTree_of_readDocument document.parsed)
    rw [containsDropped] at containsMerged
    simp only [run, mergeDocument, program_dropDocument]
    exact ⟨soundMerged, containsMerged⟩
  | drop path =>
    obtain ⟨soundDropped, containsDropped⟩ :=
      @removeFiles_spec set.program file (set.sourcesAt path) sound
    simp only [run, program_dropDocument]
    exact ⟨soundDropped, by simpa [merged, removed] using containsDropped⟩
  | clear =>
    refine ⟨⟨empty_wellFormed _, empty_traced _⟩, ?_⟩
    rw [run, containsFile_clear]
    simp only [merged, removed, List.not_mem_nil, false_and, exists_false, or_false,
      Bool.false_eq_true, false_iff, Program.containsFile, List.any_eq_true]
    rintro ⟨⟨other, member, same⟩, none⟩
    simp [none other member] at same

theorem nothingLost_run_iff (sound : set.program.Sound) (kept : set.NothingLost) :
    (write.run set).NothingLost ↔ write.Spares set := by
  obtain ⟨only, stay⟩ := @mem_tracked_run Digest set write
  constructor
  · intro after entry member source listed gone isRemoved same
    have present := after entry (stay entry member) source listed
    rcases ((containsFile_run sound source).2.mp present) with ⟨_, none⟩ | again
    · simp [none gone isRemoved] at same
    · exact again
  · intro spares entry member source listed
    rw [(containsFile_run sound source).2]
    rcases only entry member with other | new
    · by_cases hit : ∃ gone ∈ write.removed set, Text.sameFolded source gone = true
      · obtain ⟨gone, isRemoved, same⟩ := hit
        exact .inr (spares entry other source listed gone isRemoved same)
      · have tracked : entry ∈ set.tracked := by
          cases write with
          | replace _ _ _ => exact List.mem_of_mem_filter other
          | drop _ => exact List.mem_of_mem_filter other
          | clear => simp [others] at other
        refine .inl ⟨kept entry tracked source listed, ?_⟩
        intro gone isRemoved
        simpa using fun same => hit ⟨gone, isRemoved, same⟩
    · rw [new] at listed
      exact .inr ⟨source, listed, Text.sameFolded_refl source⟩

theorem kept_foldl (kept : WorkingSet Digest → Prop)
    (keeps : ∀ (set : WorkingSet Digest) (write : Write), kept set → kept (write.run set))
    (writes : List Write) (start : kept set) : kept (writes.foldl run set) := by
  induction writes generalizing set with
  | nil => exact start
  | cons write rest ih => exact ih (keeps set write start)

/-- If, from where it holds, a property holds after a write exactly when the write is allowed, then
it holds all along a run exactly when every write of the run is allowed. `kept` is what is known of
every set on the way. -/
theorem along_foldl_iff (kept holds : WorkingSet Digest → Prop)
    (allowed : WorkingSet Digest → Write → Prop)
    (keeps : ∀ (set : WorkingSet Digest) (write : Write), kept set → kept (write.run set))
    (step : ∀ (set : WorkingSet Digest) (write : Write), kept set → holds set →
      (holds (write.run set) ↔ allowed set write))
    (writes : List Write) (start : kept set) (first : holds set) :
    (∀ done, done <+: writes → holds (done.foldl run set)) ↔
      ∀ done write, done ++ [write] <+: writes → allowed (done.foldl run set) write := by
  have after (done : List Write) (write : Write) :
      (done ++ [write]).foldl run set = write.run (done.foldl run set) := by
    rw [List.foldl_append, List.foldl_cons, List.foldl_nil]
  constructor
  · intro always done write begins
    have before := always done ((List.prefix_append done [write]).trans begins)
    exact (step _ write (kept_foldl kept keeps done start) before).mp
      (after done write ▸ always _ begins)
  · intro every done
    induction done using List.reverseRecOn with
    | nil => exact fun _ => first
    | append_singleton done write ih =>
      intro begins
      have before := ih ((List.prefix_append done [write]).trans begins)
      rw [after]
      exact (step _ write (kept_foldl kept keeps done start) before).mpr (every done write begins)

theorem nothingLost_foldl_iff (writes : List Write) (sound : set.program.Sound)
    (kept : set.NothingLost) :
    (∀ done, done <+: writes → (done.foldl run set).NothingLost) ↔
      ∀ done write, done ++ [write] <+: writes → write.Spares (done.foldl run set) :=
  along_foldl_iff (fun set => set.program.Sound) NothingLost (fun set write => write.Spares set)
    (fun _ _ sound => (containsFile_run sound "").1) (fun _ _ => nothingLost_run_iff) writes sound kept

end Write

/-! ### The lock -/

theorem checkWrite_of_free (free : set.lock = .free) (patience : Nat) :
    set.checkWrite patience = .ok () := by
  simp [checkWrite, free, LockState.free]

theorem apply_of_free (free : set.lock = .free) (path : Path) (document : Document) :
    set.apply path document.contents document.units =
      .ok ((Write.replace path path document).run set) := by
  simp only [apply, checkWrite_of_free free]
  rfl

theorem remove_set (free : set.lock = .free) (path : Path) :
    (set.remove path).set = (Write.drop path).run set := by
  simp only [remove, checkWrite_of_free free]
  by_cases tracked : set.contains path = true
  · simp only [tracked, if_true]
    rfl
  · rw [if_neg tracked]
    rw [contains, Option.not_isSome_iff_eq_none] at tracked
    simp [Write.run, dropDocument, tracked]

theorem dropDocument_settings (path : Path) :
    (set.dropDocument path).lock = set.lock ∧ (set.dropDocument path).digest = set.digest := by
  unfold dropDocument
  split
  · exact ⟨rfl, rfl⟩
  · exact ⟨rfl, rfl⟩

theorem lock_run (write : Write) : (write.run set).lock = set.lock := by
  cases write with
  | replace dropped target document => exact (dropDocument_settings dropped).1
  | drop path => exact (dropDocument_settings path).1
  | clear => rfl

theorem digest_run (write : Write) : (write.run set).digest = set.digest := by
  cases write with
  | replace dropped target document => exact (dropDocument_settings dropped).2
  | drop path => exact (dropDocument_settings path).2
  | clear => rfl

theorem lock_foldl (writes : List Write) : (writes.foldl Write.run set).lock = set.lock := by
  induction writes generalizing set with
  | nil => rfl
  | cons write rest ih => rw [List.foldl_cons, ih, lock_run]

end Steps

/-! ### Requests -/

variable [DecidableEq Digest]

inductive Request
  | addOrUpdate (path : Path) (contents : Except FileFault String)
  | update (documents : List (Path × Except FileFault String))
  | remove (path : Path)
  | rename (source target : Path) (contents : Except FileFault String)
  | clear

def writeFor? (set : WorkingSet Digest) (path : Path) (contents : Except FileFault String) :
    Option Write :=
  (Document.read? set.digest ((set.find? path).map (·.digest)) contents).map (.replace path path)

namespace Request

def perform (set : WorkingSet Digest) : Request → WorkingSet Digest
  | .addOrUpdate path contents => (set.addOrUpdate path contents).set
  | .update documents => (set.update documents).set
  | .remove path => (set.remove path).set
  | .rename source target contents => (set.rename source target contents).set
  | .clear => set.clear.set

def writes (set : WorkingSet Digest) : Request → List Write
  | .addOrUpdate path contents => (set.writeFor? path contents).toList
  | .update documents => documents.filterMap fun (path, contents) => set.writeFor? path contents
  | .remove path => [.drop path]
  | .rename source target contents =>
    if set.contains source then
      ((Document.read? set.digest none contents).map (.replace source target)).toList
    else []
  | .clear => [.clear]

end Request

def writesOf (set : WorkingSet Digest) : List Request → List Write
  | [] => []
  | request :: rest => request.writes set ++ writesOf (request.perform set) rest

section Requests

variable {set : WorkingSet Digest}

theorem readDocument_cases (digest : String → Digest) (known : Option Digest)
    (contents : Except FileFault String) :
    (∃ document status, Document.read? digest known contents = some document ∧
      readDocument digest known contents = .units status document.contents document.units) ∨
    (Document.read? digest known contents = none ∧
      (readDocument digest known contents = .unchanged ∨
        ∃ reason, readDocument digest known contents = .failed reason)) := by
  cases contents with
  | error fault => exact .inr ⟨rfl, .inr ⟨fault.message, rfl⟩⟩
  | ok text =>
    by_cases same : (known == some (digest text)) = true
    · exact .inr ⟨by simp [Document.read?, same], .inl (by simp [readDocument, same])⟩
    · simp only [Document.read?, readDocument, same, Bool.false_eq_true, if_false, Document.ofText?]
      split
      · rename_i units parsed
        exact .inl ⟨⟨text, units, parsed⟩, _, rfl, by rw [parsed]⟩
      · rename_i cause failed
        exact .inr ⟨rfl, .inr ⟨cause.message, by rw [failed]⟩⟩

theorem mergeReadings_eq (start : WorkingSet Digest) (free : set.lock = .free)
    (summary : UpdateSummary)
    (documents : List (Path × Except FileFault String)) :
    (mergeReadings set summary (documents.map fun (path, contents) =>
        (path, readDocument start.digest ((start.find? path).map (·.digest)) contents))).set =
      (documents.filterMap fun (path, contents) => start.writeFor? path contents).foldl
        Write.run set := by
  induction documents generalizing set summary with
  | nil => rfl
  | cons document rest ih =>
    obtain ⟨path, contents⟩ := document
    rw [List.map_cons, List.filterMap_cons]
    rcases readDocument_cases start.digest ((start.find? path).map (·.digest)) contents with
      ⟨read, status, found, reading⟩ | ⟨found, unchanged | ⟨reason, failed⟩⟩
    · simp only [writeFor?, found, reading, mergeReadings, apply_of_free free, Option.map_some,
        List.foldl_cons]
      exact ih ((lock_run _).trans free) _
    · simp only [writeFor?, found, unchanged, mergeReadings, Option.map_none]
      exact ih free _
    · simp only [writeFor?, found, failed, mergeReadings, Option.map_none]
      exact ih free _

theorem Request.perform_eq (request : Request) (free : set.lock = .free) :
    request.perform set = (request.writes set).foldl Write.run set := by
  cases request with
  | addOrUpdate path contents =>
    simp only [perform, WorkingSet.addOrUpdate, writes, writeFor?]
    rcases readDocument_cases set.digest ((set.find? path).map (·.digest)) contents with
      ⟨read, status, found, reading⟩ | ⟨found, unchanged | ⟨reason, failed⟩⟩
    · simp only [found, reading, apply_of_free free]
      rfl
    · simp only [found, unchanged]
      rfl
    · simp only [found, failed]
      rfl
  | update documents => exact mergeReadings_eq set free .zero documents
  | remove path => exact remove_set free path
  | rename source target contents =>
    simp only [perform, WorkingSet.rename, writes]
    by_cases tracked : set.contains source = true
    · rcases readDocument_cases set.digest none contents with
        ⟨read, status, found, reading⟩ | ⟨found, unchanged | ⟨reason, failed⟩⟩
      · simp only [tracked, found, reading, checkWrite_of_free free]
        rfl
      · simp [tracked, found, unchanged]
      · simp [tracked, found, failed]
    · simp [tracked]
  | clear =>
    simp only [perform, WorkingSet.clear, checkWrite_of_free free]
    rfl

theorem performAll_eq (requests : List Request) (free : set.lock = .free) :
    requests.foldl Request.perform set = (writesOf set requests).foldl Write.run set := by
  induction requests generalizing set with
  | nil => rfl
  | cons request rest ih =>
    have same := request.perform_eq free
    rw [List.foldl_cons, writesOf, List.foldl_append, ← same]
    exact ih (by rw [same, lock_foldl, free])

end Requests

/-- Whatever is asked of a working set from its start on, the requests do what their writes do, and
along them no source of a tracked document is ever missing from the program if and only if every
write spares the sources that the other documents list. -/
theorem nothingLost_iff_spares (digest : String → Digest) (language : Language) (patience : Nat)
    (requests : List Request) :
    let start := ofProgram digest (.empty language) patience
    requests.foldl Request.perform start = (writesOf start requests).foldl Write.run start ∧
    ((∀ done, done <+: writesOf start requests → (done.foldl Write.run start).NothingLost) ↔
      ∀ done write, done ++ [write] <+: writesOf start requests →
        write.Spares (done.foldl Write.run start)) := by
  intro start
  have sound : start.program.Sound := ⟨empty_wellFormed language, empty_traced language⟩
  have kept : start.NothingLost := by simp [NothingLost, start, ofProgram]
  exact ⟨performAll_eq requests rfl, Write.nothingLost_foldl_iff _ sound kept⟩

def sharedSource : String :=
  "<unit language=\"C#\" filename=\"a.cs\"><class>class <name>A</name><block>\x7b\x7d</block></class></unit>"

/-- Of two documents with the same source, removing one leaves the other tracked without it. -/
theorem nothingLost_fails_shared_source :
    ¬ ([Request.addOrUpdate ⟨"a.xml"⟩ (.ok sharedSource), .addOrUpdate ⟨"b.xml"⟩ (.ok sharedSource),
      .remove ⟨"a.xml"⟩].foldl Request.perform (ofProgram id (.empty .cSharp) 0)).NothingLost := by
  unfold NothingLost
  decide +kernel

end WorkingSet

end ScopeAtlas
