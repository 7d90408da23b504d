import ScopeAtlas.Proofs.Contributions
import Mathlib.Data.List.Pairwise

/-!
Source files without a document. Every source file in the program should be listed for a tracked
document, so that taking away all documents leaves nothing behind. A document that is moved onto
another tracked one takes its place, and what the other one contributed stays.

Main statement: no file is ever orphaned if and only if no write strands one, and only such moves do.
-/

namespace ScopeAtlas

open ScopeTree

theorem Path.same_iff {left right : Path} : left.same right = true ↔ left.steps = right.steps := by
  simp [Path.same]

theorem containsFile_iff_exists {program : Program} {file : String} :
    program.containsFile file = true ↔ ∃ own ∈ program.files, Text.sameFolded file own = true := by
  simp [Program.containsFile]

theorem containsFile_congr {program : Program} {file other : String}
    (same : Text.sameFolded file other = true) :
    program.containsFile file = program.containsFile other := by
  simp only [Program.containsFile]
  congr 1
  funext own
  exact Text.sameFolded_congr_left same own

theorem isEmpty_of_files {program : Program} (sound : program.Sound)
    (bare : program.files = []) : program.tree.isEmpty = true := by
  obtain ⟨top, topAt, _⟩ := sound.formed.top
  rw [ScopeTree.isEmpty, children_of_get? topAt, List.isEmpty_iff, List.eq_nil_iff_forall_not_mem]
  intro child member
  obtain ⟨below, belowAt, _⟩ := sound.formed.linked topAt member
  have inner := View.WellFormed.child_ne_root sound.formed topAt member
  obtain ⟨location, located⟩ := List.exists_mem_of_ne_nil _ (sound.traced.located belowAt inner)
  have seen : location.file ∈ program.files :=
    mem_sortedNames.mpr (List.mem_map.mpr
      ⟨location, mem_locations.mpr ⟨child, below, belowAt, located⟩, rfl⟩)
  simp [bare] at seen

namespace WorkingSet

variable {Digest : Type}

def listedIn (documents : List (Tracked Digest)) (file : String) : Bool :=
  documents.any fun entry => entry.sources.any (Text.sameFolded file)

/-- Every source file in the program is listed for a tracked document. -/
def NothingOrphaned (set : WorkingSet Digest) : Prop :=
  ∀ file ∈ set.program.files, listedIn set.tracked file = true

/-- The source files that a write leaves in the program without a document. They were listed for
the document that another one is moved onto, and for no third one. -/
def Write.stranded (set : WorkingSet Digest) : Write → List String
  | .replace dropped target document =>
    if target.same dropped then []
    else (set.sourcesAt target).filter fun source =>
      set.program.containsFile source && !(set.sourcesAt dropped).any (Text.sameFolded source) &&
        !document.sources.any (Text.sameFolded source) &&
        !listedIn ((Write.replace dropped target document).others set) source
  | .drop _ | .clear => []

structure Orderly (set : WorkingSet Digest) : Prop where
  sound : set.program.Sound
  apart : set.tracked.Pairwise fun first second => first.path.same second.path = false

theorem listedIn_iff {documents : List (Tracked Digest)} {file : String} :
    listedIn documents file = true ↔
      ∃ entry ∈ documents, ∃ source ∈ entry.sources, Text.sameFolded file source = true := by
  simp [listedIn]

theorem listedIn_congr {documents : List (Tracked Digest)} {file other : String}
    (same : Text.sameFolded file other = true) :
    listedIn documents file = listedIn documents other := by
  simp only [listedIn]
  congr 1
  funext entry
  congr 1
  funext source
  exact Text.sameFolded_congr_left same source

section Steps

variable {set : WorkingSet Digest}

theorem nothingOrphaned_iff : set.NothingOrphaned ↔
    ∀ file, set.program.containsFile file = true → listedIn set.tracked file = true := by
  constructor
  · intro owned file present
    obtain ⟨own, member, same⟩ := containsFile_iff_exists.mp present
    rw [listedIn_congr same]
    exact owned own member
  · intro owned file member
    exact owned file (containsFile_iff_exists.mpr ⟨file, member, Text.sameFolded_refl file⟩)

theorem sourcesAt_eq_nil {path : Path} (untracked : set.contains path = false) :
    set.sourcesAt path = [] := by
  have absent : set.find? path = none := by simpa [contains] using untracked
  simp [sourcesAt, absent]

theorem find?_eq_some {path : Path} {entry : Tracked Digest} (found : set.find? path = some entry) :
    entry ∈ set.tracked ∧ entry.path.same path = true := by
  rw [find?] at found
  exact ⟨List.mem_of_find?_eq_some found, by simpa using List.find?_some found⟩

theorem Orderly.sourcesAt_eq (orderly : set.Orderly) {entry : Tracked Digest} {path : Path}
    (member : entry ∈ set.tracked) (here : entry.path.same path = true) :
    set.sourcesAt path = entry.sources := by
  cases found : set.find? path with
  | none =>
    rw [find?, List.find?_eq_none] at found
    exact absurd here (found entry member)
  | some first =>
    obtain ⟨firstMember, firstHere⟩ := find?_eq_some found
    have equal : first = entry := by
      by_contra different
      have distant : first.path.same entry.path = false ∨ entry.path.same first.path = false := by
        rcases List.pairwise_iff_getElem.mp orderly.apart with ordered
        obtain ⟨left, leftBound, rfl⟩ := List.getElem_of_mem firstMember
        obtain ⟨right, rightBound, rfl⟩ := List.getElem_of_mem member
        rcases Nat.lt_trichotomy left right with before | same | after
        · exact .inl (ordered left right leftBound rightBound before)
        · exact absurd (by simp only [same]) different
        · exact .inr (ordered right left rightBound leftBound after)
      rw [Path.same_iff] at firstHere here
      simp [Path.same, firstHere, here] at distant
    simp [sourcesAt, found, equal]

theorem Orderly.listed_at (orderly : set.Orderly) {entry : Tracked Digest} {path : Path}
    {file : String}
    (member : entry ∈ set.tracked) (here : entry.path.same path = true)
    (listed : ∃ source ∈ entry.sources, Text.sameFolded file source = true) :
    ∃ source ∈ set.sourcesAt path, Text.sameFolded file source = true := by
  rw [orderly.sourcesAt_eq member here]
  exact listed

theorem exists_tracked_mergeDocument (set : WorkingSet Digest) (target : Path) (contents : String)
    (units : List ScopeTree) : ∃ entry ∈ (set.mergeDocument target contents units).tracked,
      entry.sources = units.flatMap ScopeTree.files := by
  unfold mergeDocument
  by_cases known : set.contains target = true
  · obtain ⟨old, found⟩ := Option.isSome_iff_exists.mp known
    obtain ⟨member, here⟩ := find?_eq_some found
    simp only [known, if_true, List.mem_map]
    exact ⟨_, ⟨old, member, rfl⟩, by simp [here]⟩
  · simp [known]

theorem apart_mergeDocument {target : Path} {contents : String} {units : List ScopeTree}
    (apart : set.tracked.Pairwise fun first second => first.path.same second.path = false) :
    (set.mergeDocument target contents units).tracked.Pairwise fun first second =>
      first.path.same second.path = false := by
  unfold mergeDocument
  by_cases known : set.contains target = true
  · simp only [known, if_true, List.pairwise_map]
    refine apart.imp ?_
    intro first second distant
    split
    · split
      · exact distant
      · exact distant
    · split
      · exact distant
      · exact distant
  · simp only [known, if_false, Bool.false_eq_true]
    rw [List.pairwise_append]
    refine ⟨apart, List.pairwise_singleton _ _, ?_⟩
    intro entry member last isLast
    rw [List.mem_singleton] at isLast
    rw [contains, Option.not_isSome_iff_eq_none, find?, List.find?_eq_none] at known
    simpa [isLast] using known entry member

namespace Write

variable {write : Write}

theorem orderly_run (write : Write) (orderly : set.Orderly) : (write.run set).Orderly := by
  refine ⟨(containsFile_run orderly.sound "").1, ?_⟩
  have dropped (path : Path) : (set.dropDocument path).tracked.Pairwise fun first second =>
      first.path.same second.path = false := by
    rw [tracked_dropDocument]
    exact orderly.apart.filter _
  cases write with
  | replace path target document => exact apart_mergeDocument (dropped path)
  | drop path => exact dropped path
  | clear => exact List.Pairwise.nil

theorem orderly_foldl (writes : List Write) (orderly : set.Orderly) :
    (writes.foldl run set).Orderly :=
  kept_foldl Orderly (fun _ write => write.orderly_run) writes orderly

theorem listedIn_run {file : String} : listedIn (write.run set).tracked file = true ↔
    listedIn (write.others set) file = true ∨
      ∃ source ∈ write.merged, Text.sameFolded file source = true := by
  obtain ⟨only, stay⟩ := @mem_tracked_run Digest set write
  simp only [listedIn_iff]
  constructor
  · rintro ⟨entry, member, source, listed, same⟩
    rcases only entry member with other | new
    · exact .inl ⟨entry, other, source, listed, same⟩
    · exact .inr ⟨source, new ▸ listed, same⟩
  · rintro (⟨entry, member, listed⟩ | ⟨source, merged, same⟩)
    · exact ⟨entry, stay entry member, listed⟩
    · cases write with
      | replace dropped target document =>
        obtain ⟨entry, member, sources⟩ := exists_tracked_mergeDocument (set.dropDocument dropped)
          target document.contents document.units
        exact ⟨entry, member, source, sources ▸ merged, same⟩
      | drop path => simp [Write.merged] at merged
      | clear => simp [Write.merged] at merged

theorem listed_cases (orderly : set.Orderly) {file : String}
    (present : set.program.containsFile file = true)
    (listed : listedIn set.tracked file = true) :
    (∃ gone ∈ write.removed set, Text.sameFolded file gone = true) ∨
    listedIn (write.others set) file = true ∨
    ∃ dropped target document, write = .replace dropped target document ∧
      target.same dropped = false ∧ ∃ source ∈ set.sourcesAt target,
        Text.sameFolded file source = true := by
  obtain ⟨entry, member, named⟩ := listedIn_iff.mp listed
  cases write with
  | replace dropped target document =>
    by_cases atDropped : entry.path.same dropped = true
    · exact .inl (orderly.listed_at member atDropped named)
    · by_cases atTarget : entry.path.same target = true
      · refine .inr (.inr ⟨dropped, target, document, rfl, ?_, orderly.listed_at member atTarget named⟩)
        rw [← Bool.not_eq_true, Path.same_iff]
        rw [Path.same_iff] at atDropped atTarget
        exact fun same => atDropped (atTarget.trans same)
      · exact .inr (.inl (listedIn_iff.mpr
          ⟨entry, List.mem_filter.mpr ⟨member, by simp [atDropped, atTarget]⟩, named⟩))
  | drop path =>
    by_cases here : entry.path.same path = true
    · exact .inl (orderly.listed_at member here named)
    · exact .inr (.inl (listedIn_iff.mpr
        ⟨entry, List.mem_filter.mpr ⟨member, by simp [here]⟩, named⟩))
  | clear => exact .inl (containsFile_iff_exists.mp present)

theorem mem_stranded_iff {file : String} {dropped target : Path} {document : Document} :
    file ∈ (replace dropped target document).stranded set ↔
      target.same dropped = false ∧ file ∈ set.sourcesAt target ∧
      set.program.containsFile file = true ∧
      (∀ gone ∈ set.sourcesAt dropped, Text.sameFolded file gone = false) ∧
      (∀ source ∈ document.sources, Text.sameFolded file source = false) ∧
      listedIn ((replace dropped target document).others set) file = false := by
  rw [stranded]
  split
  · rename_i moved
    simp [moved]
  · rename_i moved
    simp [moved, and_assoc]

theorem nothingOrphaned_run_iff (orderly : set.Orderly) (owned : set.NothingOrphaned) :
    (write.run set).NothingOrphaned ↔ write.stranded set = [] := by
  have after (file : String) := (@containsFile_run Digest set write orderly.sound file).2
  rw [nothingOrphaned_iff] at owned ⊢
  constructor
  · intro settled
    cases write with
    | replace dropped target document =>
      rw [List.eq_nil_iff_forall_not_mem]
      intro source left
      obtain ⟨_, _, present, notRemoved, notMerged, unlisted⟩ := mem_stranded_iff.mp left
      have stays := (after source).mpr (.inl ⟨present, notRemoved⟩)
      rcases listedIn_run.mp (settled source stays) with other | ⟨file, isMerged, same⟩
      · simp [unlisted] at other
      · have apart : Text.sameFolded source file = false := notMerged file isMerged
        simp [same] at apart
    | drop path => rfl
    | clear => rfl
  · intro none file present
    rw [listedIn_run]
    rcases (after file).mp present with ⟨before, notRemoved⟩ | merged
    · rcases @listed_cases Digest set write orderly file before (owned file before) with
        ⟨gone, isRemoved, same⟩ | other | ⟨dropped, target, document, rfl, moved, source, listed, same⟩
      · simp [notRemoved gone isRemoved] at same
      · exact .inl other
      · by_contra neither
        rw [not_or, Bool.not_eq_true] at neither
        obtain ⟨unlisted, unmerged⟩ := neither
        have left : source ∈ (replace dropped target document).stranded set := by
          refine mem_stranded_iff.mpr ⟨moved, listed, ?_, ?_, ?_, ?_⟩
          · rw [← containsFile_congr same, before]
          · intro gone isRemoved
            rw [← Text.sameFolded_congr_left same]
            exact notRemoved gone isRemoved
          · intro other isMerged
            rw [← Text.sameFolded_congr_left same]
            simpa using fun found => unmerged ⟨other, isMerged, found⟩
          · rw [← listedIn_congr same, unlisted]
        simp [none] at left
    · exact .inr merged

theorem nothingOrphaned_foldl_iff (writes : List Write) (orderly : set.Orderly)
    (owned : set.NothingOrphaned) :
    (∀ done, done <+: writes → (done.foldl run set).NothingOrphaned) ↔
      ∀ done write, done ++ [write] <+: writes → write.stranded (done.foldl run set) = [] :=
  along_foldl_iff Orderly NothingOrphaned (fun set write => write.stranded set = [])
    (fun _ write => write.orderly_run) (fun _ _ => nothingOrphaned_run_iff) writes orderly owned

theorem exists_of_stranded {file : String} (left : file ∈ write.stranded set) :
    ∃ source target document, write = .replace source target document ∧
      target.same source = false ∧ set.contains target = true := by
  cases write with
  | replace source target document =>
    obtain ⟨moved, listed, _⟩ := mem_stranded_iff.mp left
    refine ⟨source, target, document, rfl, moved, ?_⟩
    by_contra untracked
    rw [Bool.not_eq_true] at untracked
    simp [sourcesAt_eq_nil untracked] at listed
  | drop path => simp [stranded] at left
  | clear => simp [stranded] at left

end Write

/-! ### Taking everything away -/

theorem containsFile_drops (paths : List Path) (orderly : set.Orderly) (file : String) :
    ((paths.map Write.drop).foldl Write.run set).program.containsFile file = true ↔
      set.program.containsFile file = true ∧
        ∀ entry ∈ set.tracked, (∃ path ∈ paths, entry.path.same path = true) →
          ∀ source ∈ entry.sources, Text.sameFolded file source = false := by
  induction paths generalizing set with
  | nil => simp
  | cons path rest ih =>
    rw [List.map_cons, List.foldl_cons, ih (Write.orderly_run _ orderly),
      (Write.containsFile_run orderly.sound file).2]
    simp only [Write.removed, Write.merged, List.not_mem_nil, false_and, exists_false, or_false,
      Write.run, tracked_dropDocument, List.mem_filter, and_assoc, List.mem_cons]
    refine and_congr_right fun _ => ?_
    constructor
    · rintro ⟨notHere, notLater⟩ entry member ⟨other, isFirst | isLater, here⟩ source listed
      · rw [isFirst] at here
        exact notHere source (orderly.sourcesAt_eq member here ▸ listed)
      · by_cases first : entry.path.same path = true
        · exact notHere source (orderly.sourcesAt_eq member first ▸ listed)
        · exact notLater entry ⟨member, by simp [first]⟩ ⟨other, isLater, here⟩ source listed
    · intro none
      constructor
      · intro source listed
        cases found : set.find? path with
        | none => simp [sourcesAt, found] at listed
        | some entry =>
          obtain ⟨member, here⟩ := find?_eq_some found
          rw [orderly.sourcesAt_eq member here] at listed
          exact none entry member ⟨path, .inl rfl, here⟩ source listed
      · rintro entry ⟨member, _⟩ ⟨other, isLater, here⟩ source listed
        exact none entry member ⟨other, .inr isLater, here⟩ source listed

def removeAll (set : WorkingSet Digest) : WorkingSet Digest :=
  set.files.foldl (fun set path => (set.remove path).set) set

theorem mem_files {path : Path} : path ∈ set.files ↔ ∃ entry ∈ set.tracked, entry.path = path := by
  simp [files]

theorem removeAll_eq (free : set.lock = .free) :
    set.removeAll = (set.files.map Write.drop).foldl Write.run set := by
  have steps (paths : List Path) : ∀ set : WorkingSet Digest, set.lock = .free →
      paths.foldl (fun set path => (set.remove path).set) set =
        (paths.map Write.drop).foldl Write.run set := by
    induction paths with
    | nil => exact fun _ _ => rfl
    | cons path rest ih =>
      intro set free
      rw [List.foldl_cons, List.map_cons, List.foldl_cons, remove_set free]
      exact ih _ ((lock_run _).trans free)
  exact steps set.files set free

theorem removeAll_empties_iff (orderly : set.Orderly) (free : set.lock = .free) :
    set.NothingOrphaned ↔
      set.removeAll.program.files = [] ∧ set.removeAll.program.tree.isEmpty = true := by
  have orderlyAll : set.removeAll.Orderly := by
    rw [removeAll_eq free]
    exact Write.orderly_foldl _ orderly
  have left (file : String) : set.removeAll.program.containsFile file = true ↔
      set.program.containsFile file = true ∧ listedIn set.tracked file = false := by
    rw [removeAll_eq free, containsFile_drops _ orderly]
    refine and_congr_right fun _ => ?_
    rw [← Bool.not_eq_true, listedIn_iff]
    constructor
    · rintro none ⟨entry, member, source, listed, same⟩
      have here : ∃ path ∈ set.files, entry.path.same path = true :=
        ⟨entry.path, mem_files.mpr ⟨entry, member, rfl⟩, Path.same_iff.mpr rfl⟩
      simp [none entry member here source listed] at same
    · intro unlisted entry member _ source listed
      simpa using fun same => unlisted ⟨entry, member, source, listed, same⟩
  constructor
  · intro owned
    rw [nothingOrphaned_iff] at owned
    have bare : set.removeAll.program.files = [] := by
      rw [List.eq_nil_iff_forall_not_mem]
      intro file member
      obtain ⟨present, unlisted⟩ :=
        (left file).mp (containsFile_iff_exists.mpr ⟨file, member, Text.sameFolded_refl file⟩)
      simp [owned file present] at unlisted
    exact ⟨bare, isEmpty_of_files orderlyAll.sound bare⟩
  · rintro ⟨bare, _⟩
    rw [nothingOrphaned_iff]
    intro file present
    by_contra unlisted
    have stays := (left file).mpr ⟨present, by simpa using unlisted⟩
    obtain ⟨own, member, _⟩ := containsFile_iff_exists.mp stays
    simp [bare] at member

end Steps

/-- Whatever is asked of a working set from its start on, every source file in the program is, after
any write, listed for a tracked document if and only if no write strands a file. Only moving a
document onto another tracked one can strand files. And nothing is orphaned exactly when removing
all documents leaves an empty program. -/
theorem nothingOrphaned_iff_strands_nothing [DecidableEq Digest] (digest : String → Digest)
    (language : Language) (patience : Nat) (requests : List Request) :
    let start := ofProgram digest (.empty language) patience
    let last := requests.foldl Request.perform start
    last = (writesOf start requests).foldl Write.run start ∧
    ((∀ done, done <+: writesOf start requests → (done.foldl Write.run start).NothingOrphaned) ↔
      ∀ done write, done ++ [write] <+: writesOf start requests →
        write.stranded (done.foldl Write.run start) = []) ∧
    (∀ (set : WorkingSet Digest) (write : Write) (file : String), file ∈ write.stranded set →
      ∃ source target document, write = .replace source target document ∧
        target.same source = false ∧ set.contains target = true) ∧
    (last.NothingOrphaned ↔
      last.removeAll.program.files = [] ∧ last.removeAll.program.tree.isEmpty = true) := by
  intro start last
  have orderly : start.Orderly :=
    ⟨⟨empty_wellFormed language, empty_traced language⟩, List.Pairwise.nil⟩
  have owned : start.NothingOrphaned := by
    rw [nothingOrphaned_iff]
    intro file present
    simp [containsFile_iff_exists, start, ofProgram, Program.files, Program.empty, Program.ofTree,
      ScopeTree.files, ScopeTree.locations, ScopeTree.empty, Statement.detached, sortedNames] at present
  have same : last = (writesOf start requests).foldl Write.run start := performAll_eq requests rfl
  refine ⟨same, Write.nothingOrphaned_foldl_iff _ orderly owned,
    fun _ _ _ => Write.exists_of_stranded, removeAll_empties_iff ?_ ?_⟩
  · rw [same]
    exact Write.orderly_foldl _ orderly
  · rw [same, lock_foldl]
    rfl

def classDocument (file name : String) : String :=
  "<unit language=\"C#\" filename=\"" ++ file ++ "\"><class>class <name>" ++ name ++
    "</name><block>\x7b\x7d</block></class></unit>"

/-- Of two documents, one is moved onto the other: the source of the other stays in the program,
and no document lists it. -/
theorem nothingOrphaned_fails_moved_onto :
    ¬ ([Request.addOrUpdate ⟨"a.xml"⟩ (.ok (classDocument "a.cs" "A")),
      .addOrUpdate ⟨"b.xml"⟩ (.ok (classDocument "b.cs" "B")),
      .rename ⟨"a.xml"⟩ ⟨"b.xml"⟩ (.ok (classDocument "a.cs" "A"))].foldl Request.perform
        (ofProgram id (.empty .cSharp) 0)).NothingOrphaned := by
  unfold NothingOrphaned
  decide +kernel

end WorkingSet

end ScopeAtlas
