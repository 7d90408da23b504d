import ScopeAtlas.Proofs.ArchiveUnits
import ScopeAtlas.Proofs.Orphans

/-!
A batch of documents and the same documents one at a time. A batch compares every document with what
the set held at the start, a single update with what it holds by then; since a write touches no entry
but that of its own path, both see the same. Main statement: for different paths the batch leaves the
set, tells the events and counts the results of the single updates, and a document without readable
units is as good as absent.
-/

namespace ScopeAtlas.WorkingSet

open Markup

/-- A document that gives nothing to merge: it cannot be read, or it is no document of units, or one
of its units cannot be parsed. -/
inductive Broken : Except FileFault String → Prop
  | unreadable (fault : FileFault) : Broken (.error fault)
  | misspelled {text : String} {cause : Failure} :
    parseUnits text = .error cause → Broken (.ok text)
  | unparsed {text : String} {elements : List Element} {element : Element} {cause : Failure} :
    parseUnits text = .ok elements → element ∈ elements → SourceUnit.read element = .error cause →
      Broken (.ok text)

/-- Single updates in order: what each resulted in, what they told, and the set after the last. -/
structure Series (Digest : Type) where
  results : List (Except Failure FileStatus)
  events : List Event
  set : WorkingSet Digest

variable {Digest : Type}

def addEach [DecidableEq Digest] (set : WorkingSet Digest) :
    List (Path × Except FileFault String) → Series Digest
  | [] => ⟨[], [], set⟩
  | (path, contents) :: rest =>
    let change := set.addOrUpdate path contents
    let later := change.set.addEach rest
    ⟨change.result :: later.results, change.events ++ later.events, later.set⟩

def resultIs (status : FileStatus) : Except Failure FileStatus → Bool
  | .ok found => found == status
  | .error _ => false

def failed : Except Failure FileStatus → Bool
  | .ok _ => false
  | .error _ => true

namespace UpdateSummary

def tally (results : List (Except Failure FileStatus)) : UpdateSummary where
  added := results.countP (resultIs .new)
  updated := results.countP (resultIs .modified)
  unchanged := results.countP (resultIs .unchanged)
  failed := results.countP WorkingSet.failed

def total (summary : UpdateSummary) : Nat :=
  summary.added + summary.updated + summary.unchanged + summary.failed

def note (summary : UpdateSummary) : Except Failure FileStatus → UpdateSummary
  | .ok status => summary.count status
  | .error _ => summary.countFailure

def plus (left right : UpdateSummary) : UpdateSummary :=
  ⟨left.added + right.added, left.updated + right.updated, left.unchanged + right.unchanged,
    left.failed + right.failed⟩

theorem zero_plus (summary : UpdateSummary) : zero.plus summary = summary := by
  simp [plus, zero]

theorem plus_tally_cons (summary : UpdateSummary) (result : Except Failure FileStatus)
    (results : List (Except Failure FileStatus)) :
    summary.plus (tally (result :: results)) = (summary.note result).plus (tally results) := by
  rcases result with cause | _ | _ | _
  all_goals
    simp only [plus, tally, note, count, countFailure, List.countP_cons, resultIs, WorkingSet.failed,
      mk.injEq, beq_iff_eq, reduceCtorEq, if_true, if_false, Bool.false_eq_true]
    omega

theorem total_tally (results : List (Except Failure FileStatus)) :
    (tally results).total = results.length := by
  induction results with
  | nil => rfl
  | cons result rest ih =>
    have counted := plus_tally_cons zero result rest
    rw [zero_plus] at counted
    rw [counted, List.length_cons, ← ih]
    rcases result with cause | _ | _ | _
    all_goals
      simp only [plus, note, count, countFailure, zero, total]
      omega

end UpdateSummary

/-! ### Broken documents -/

theorem read_of_mapM {elements : List Element} {units : List ScopeTree}
    (parsed : elements.mapM SourceUnit.read = .ok units) :
    ∀ element ∈ elements, ∃ tree, SourceUnit.read element = .ok tree := by
  induction elements generalizing units with
  | nil => simp
  | cons first rest ih =>
    rw [List.mapM_cons] at parsed
    obtain ⟨tree, treeRead, parsed⟩ := exists_of_bind_ok parsed
    obtain ⟨trees, othersRead, _⟩ := exists_of_bind_ok parsed
    intro element member
    rcases List.mem_cons.mp member with rfl | later
    · exact ⟨tree, treeRead⟩
    · exact ih othersRead element later

theorem Broken.not_read {text : String} (broken : Broken (.ok text)) (units : List ScopeTree) :
    SourceUnit.readDocument text ≠ .ok units := by
  intro parsed
  obtain ⟨elements, split, read⟩ := exists_of_bind_ok parsed
  cases broken with
  | misspelled failing => simp [failing] at split
  | unparsed found member failing =>
    rw [found, Except.ok.injEq] at split
    obtain ⟨tree, treeRead⟩ := read_of_mapM read _ (split ▸ member)
    simp [failing] at treeRead

theorem Broken.read?_eq_none [DecidableEq Digest] {contents : Except FileFault String}
    (broken : Broken contents) (digest : String → Digest) (known : Option Digest) :
    Document.read? digest known contents = none := by
  cases contents with
  | error fault => rfl
  | ok text =>
    simp only [Document.read?, Document.ofText?]
    split
    · rfl
    · split
      · rename_i units parsed
        exact absurd parsed (broken.not_read units)
      · rfl

section Steps

variable {set : WorkingSet Digest} {path : Path} {contents : Except FileFault String}

theorem find?_run_replace {target : Path} (document : Document) (apart : target.same path = false) :
    ((Write.replace target target document).run set).find? path = set.find? path := by
  have other {entry : Tracked Digest} (here : entry.path.same target = true) :
      entry.path.same path = false := by
    rw [Path.same_iff] at here
    rw [← apart, Path.same, Path.same, here]
  have dropped : (set.dropDocument target).contains target = false := by
    rw [contains, find?, tracked_dropDocument, List.find?_filter]
    simp
  have kept (entry : Tracked Digest) :
      (!entry.path.same target && entry.path.same path) = entry.path.same path := by
    by_cases here : entry.path.same target = true
    · simp [here, other here]
    · simp [here]
  simp only [Write.run, mergeDocument, dropped, Bool.false_eq_true, if_false, find?,
    List.find?_append, tracked_dropDocument, List.find?_filter, Bool.decide_and,
    Bool.decide_eq_true, kept, List.find?_singleton, apart, Option.or_none]

variable [DecidableEq Digest]

theorem Broken.addOrUpdate_set (broken : Broken contents) (set : WorkingSet Digest) (path : Path) :
    (set.addOrUpdate path contents).set = set := by
  unfold addOrUpdate
  rcases readDocument_cases set.digest ((set.find? path).map (·.digest)) contents with
    ⟨document, status, found, _⟩ | ⟨_, unchanged | ⟨reason, failed⟩⟩
  · simp [broken.read?_eq_none] at found
  · rw [unchanged]
  · rw [failed]

theorem Broken.writeFor?_eq_none (broken : Broken contents) (set : WorkingSet Digest)
    (path : Path) : set.writeFor? path contents = none := by
  rw [writeFor?, broken.read?_eq_none, Option.map_none]

/-! ### One document -/

theorem addOrUpdate_cases (free : set.lock = .free) (path : Path)
    (contents : Except FileFault String) :
    ((set.addOrUpdate path contents).set = set ∨ ∃ document,
      (set.addOrUpdate path contents).set = (Write.replace path path document).run set) ∧
    (set.addOrUpdate path contents).set.lock = .free := by
  have same : (set.addOrUpdate path contents).set =
      (set.writeFor? path contents).toList.foldl Write.run set :=
    (Request.addOrUpdate path contents).perform_eq free
  refine ⟨?_, by rw [same, lock_foldl, free]⟩
  rw [same, writeFor?]
  cases Document.read? set.digest ((set.find? path).map (·.digest)) contents with
  | none => exact .inl rfl
  | some document => exact .inr ⟨document, rfl⟩

theorem digest_addOrUpdate (free : set.lock = .free) (path : Path)
    (contents : Except FileFault String) :
    (set.addOrUpdate path contents).set.digest = set.digest := by
  rcases (addOrUpdate_cases free path contents).1 with same | ⟨document, same⟩
  · rw [same]
  · rw [same, digest_run]

theorem find?_addOrUpdate {target : Path} (free : set.lock = .free)
    (apart : target.same path = false) :
    (set.addOrUpdate target contents).set.find? path = set.find? path := by
  rcases (addOrUpdate_cases free target contents).1 with same | ⟨document, same⟩
  · rw [same]
  · rw [same, find?_run_replace document apart]

theorem mergeReadings_cons (free : set.lock = .free) (summary : UpdateSummary)
    (later : List (Path × Reading)) :
    let change := set.addOrUpdate path contents
    let rest := mergeReadings change.set (summary.note change.result) later
    mergeReadings set summary
        ((path, readDocument set.digest ((set.find? path).map (·.digest)) contents) :: later) =
      { rest with events := change.events ++ rest.events } := by
  unfold addOrUpdate
  rcases readDocument_cases set.digest ((set.find? path).map (·.digest)) contents with
    ⟨document, status, _, reading⟩ | ⟨_, unchanged | ⟨reason, failed⟩⟩
  · simp only [reading, mergeReadings, apply_of_free free, UpdateSummary.note]
    rfl
  · simp only [unchanged, mergeReadings, UpdateSummary.note]
    rfl
  · simp only [failed, mergeReadings, UpdateSummary.note]
    rfl

end Steps

/-! ### Several documents -/

section Series

variable [DecidableEq Digest] {set : WorkingSet Digest}

theorem length_results_addEach (documents : List (Path × Except FileFault String)) :
    (set.addEach documents).results.length = documents.length := by
  induction documents generalizing set with
  | nil => rfl
  | cons document rest ih =>
    obtain ⟨path, contents⟩ := document
    simp only [addEach, List.length_cons, ih]

/-- Readings made against a set that agrees at the paths of the documents merge into what the single
updates leave, tell and result in. -/
theorem mergeReadings_eq_addEach {start : WorkingSet Digest} (free : set.lock = .free)
    (digests : set.digest = start.digest) (summary : UpdateSummary)
    (documents : List (Path × Except FileFault String))
    (apart : documents.Pairwise fun first second => first.1.same second.1 = false)
    (agree : ∀ document ∈ documents, set.find? document.1 = start.find? document.1) :
    mergeReadings set summary (documents.map fun (path, contents) =>
        (path, readDocument start.digest ((start.find? path).map (·.digest)) contents)) =
      ⟨.ok (summary.plus (.tally (set.addEach documents).results)),
        (set.addEach documents).events, (set.addEach documents).set⟩ := by
  induction documents generalizing set summary with
  | nil => rfl
  | cons document rest ih =>
    obtain ⟨path, contents⟩ := document
    obtain ⟨first, others⟩ := List.pairwise_cons.mp apart
    have here : set.find? path = start.find? path := agree (path, contents) List.mem_cons_self
    have there : ∀ document ∈ rest,
        (set.addOrUpdate path contents).set.find? document.1 = start.find? document.1 := by
      intro document member
      rw [find?_addOrUpdate free (first document member)]
      exact agree document (List.mem_cons_of_mem _ member)
    have later := ih (addOrUpdate_cases free path contents).2
      ((digest_addOrUpdate free path contents).trans digests)
      (summary.note (set.addOrUpdate path contents).result) others there
    simp only [← digests] at later ⊢
    simp only [List.map_cons, ← here, mergeReadings_cons free, later, addEach,
      UpdateSummary.plus_tally_cons]

theorem update_eq (free : set.lock = .free) (documents : List (Path × Except FileFault String))
    (apart : documents.Pairwise fun first second => first.1.same second.1 = false) :
    set.update documents =
      ⟨.ok (.tally (set.addEach documents).results),
        .updateStarted documents.length :: (set.addEach documents).events ++
          [.updateCompleted (.tally (set.addEach documents).results)],
        (set.addEach documents).set⟩ := by
  simp only [update, mergeReadings_eq_addEach free rfl .zero documents apart fun _ _ => rfl,
    UpdateSummary.zero_plus, List.cons_append]

theorem find?_addEach {path : Path} (free : set.lock = .free)
    (documents : List (Path × Except FileFault String))
    (absent : ∀ document ∈ documents, document.1.same path = false) :
    (set.addEach documents).set.find? path = set.find? path := by
  induction documents generalizing set with
  | nil => rfl
  | cons document rest ih =>
    obtain ⟨target, contents⟩ := document
    have later := ih (addOrUpdate_cases free target contents).2 fun document member =>
      absent document (List.mem_cons_of_mem _ member)
    exact later.trans (find?_addOrUpdate free (absent (target, contents) List.mem_cons_self))

theorem Broken.update_set {path : Path} {contents : Except FileFault String}
    (broken : Broken contents) (free : set.lock = .free)
    (before after : List (Path × Except FileFault String)) :
    (set.update (before ++ (path, contents) :: after)).set = (set.update (before ++ after)).set := by
  change (mergeReadings _ _ _).set = (mergeReadings _ _ _).set
  simp only [mergeReadings_eq set free, List.filterMap_append, List.filterMap_cons,
    broken.writeFor?_eq_none]

end Series

/-- For different paths and a free lock, a batch leaves the same program and the same tracked
documents as the single updates one after the other, whatever these result in. It tells the same
events between its start and its end, its summary counts the results, one for each path, and a broken
document changes nothing: alone it leaves the set as it is, in a batch it leaves the set that the
others leave and its own entry as it was. -/
theorem update_eq_addEach [DecidableEq Digest] (set : WorkingSet Digest)
    (documents : List (Path × Except FileFault String))
    (free : set.lock = .free)
    (apart : documents.Pairwise fun first second => first.1.same second.1 = false) :
    let series := set.addEach documents
    let summary := UpdateSummary.tally series.results
    set.update documents =
        ⟨.ok summary,
          .updateStarted documents.length :: series.events ++ [.updateCompleted summary],
          series.set⟩ ∧
      series.results.length = documents.length ∧ summary.total = documents.length ∧
      ∀ before path contents after, documents = before ++ (path, contents) :: after →
        Broken contents →
          (∀ other : WorkingSet Digest, (other.addOrUpdate path contents).set = other) ∧
          (set.update documents).set = (set.update (before ++ after)).set ∧
          (set.update documents).set.find? path = set.find? path := by
  intro series summary
  have counted := @length_results_addEach Digest _ set documents
  refine ⟨update_eq free documents apart, counted, ?_, ?_⟩
  · rw [← counted]
    exact UpdateSummary.total_tally series.results
  · rintro before path contents after rfl broken
    have without : (set.update (before ++ (path, contents) :: after)).set =
        (set.update (before ++ after)).set := broken.update_set free before after
    refine ⟨fun other => broken.addOrUpdate_set other path, without, ?_⟩
    obtain ⟨early, late, across⟩ := List.pairwise_append.mp apart
    obtain ⟨next, late⟩ := List.pairwise_cons.mp late
    have others : (before ++ after).Pairwise fun first second => first.1.same second.1 = false :=
      List.pairwise_append.mpr ⟨early, late, fun first member second later =>
        across first member second (List.mem_cons_of_mem _ later)⟩
    rw [without, update_eq free _ others]
    apply find?_addEach free
    intro document member
    rcases List.mem_append.mp member with earlier | later
    · exact across document earlier (path, contents) List.mem_cons_self
    · have distant := next document later
      rw [Bool.eq_false_iff, ne_eq, Path.same_iff] at distant ⊢
      exact fun same => distant same.symm

def halfReadable : String :=
  "<unit><unit language=\"C#\" filename=\"a.cs\"/><unit language=\"Fortran\" filename=\"b.f\"/></unit>"

theorem halfReadable_broken : Broken (.ok halfReadable) := by
  have split : parseUnits halfReadable = .ok
      [emptyUnit [("language", "C#"), ("filename", "a.cs")] none,
        emptyUnit [("language", "Fortran"), ("filename", "b.f")] none] := by
    decide +kernel
  have fails : SourceUnit.read
      (emptyUnit [("language", "Fortran"), ("filename", "b.f")] none) =
        .error (.unknownLanguage "Fortran") := by
    decide +kernel
  exact .unparsed split (List.mem_cons_of_mem _ List.mem_cons_self) fails

theorem update_eq_addEach_shared_source :
    let start := ofProgram id (.empty .cSharp) 0
    let documents : List (Path × Except FileFault String) :=
      [(⟨"a.xml"⟩, .ok sharedSource), (⟨"b.xml"⟩, .ok halfReadable), (⟨"c.xml"⟩, .ok sharedSource)]
    start.lock = .free ∧
      (documents.Pairwise fun first second => first.1.same second.1 = false) ∧
      (start.update documents).set = (start.addEach documents).set ∧
      (start.update documents).result = .ok (.tally (start.addEach documents).results) ∧
      (UpdateSummary.tally (start.addEach documents).results).total = 3 ∧
      Broken (.ok halfReadable) ∧
      (start.update documents).set = (start.update
        [(⟨"a.xml"⟩, .ok sharedSource), (⟨"c.xml"⟩, .ok sharedSource)]).set := by
  intro start documents
  have apart : documents.Pairwise fun first second => first.1.same second.1 = false := by
    decide +kernel
  obtain ⟨same, _, total, traceless⟩ := update_eq_addEach start documents rfl apart
  refine ⟨rfl, apart, by rw [same], by rw [same], total, halfReadable_broken, ?_⟩
  exact (traceless [(⟨"a.xml"⟩, .ok sharedSource)] ⟨"b.xml"⟩ (.ok halfReadable)
    [(⟨"c.xml"⟩, .ok sharedSource)] rfl halfReadable_broken).2.1

end ScopeAtlas.WorkingSet
