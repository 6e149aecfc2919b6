import KeyholeMarkup.Proofs.Schema.Loading

/-! Loading comes to an end, and no file is read twice. Files are told apart by their places in the
tree, so that a file is the same one by whatever path it is mentioned. -/
namespace KeyholeMarkup.Schema
open KeyholeMarkup.Storage

namespace Progress
section
variable (tree : Tree) (folders : List Path)

/-- A run of the loading loop until nothing waits, with the files that are read in it. A mention is
passed over if it leads to no file, or to one that has been read or tried before. -/
inductive Runs : Progress → List (List String) → Progress → Prop
  | done {progress} : progress.waiting = [] → Runs progress [] progress
  | pass {progress last mention waiting files} : progress.waiting = mention :: waiting →
    fresh? tree folders { progress with waiting } mention = none →
    Runs { progress with waiting } files last → Runs progress files last
  | read {progress last mention waiting file names files} : progress.waiting = mention :: waiting →
    fresh? tree folders { progress with waiting } mention = some (file, names) →
    Runs (addFile { progress with waiting } tree file names mention.target).1 files last →
    Runs progress (names :: files) last

end

section
variable {tree : Tree} {folders : List Path} {progress last : Progress} {files : List (List String)}

theorem new_of_fresh? {mention : Mention} {file : Path} {names : List String}
    (fresh : fresh? tree folders progress mention = some (file, names)) :
    names ∈ tree.files ∧ names ∉ progress.visited := by
  simp only [fresh?, Option.bind_eq_bind, Option.bind_eq_some_iff] at fresh
  obtain ⟨path, -, place, known, unvisited⟩ := fresh
  by_cases visited : place ∈ progress.visited
  · simp [visited] at unvisited
  · obtain ⟨-, rfl⟩ : path = file ∧ place = names := by simpa [visited] using unvisited
    exact ⟨tree.mem_files_of_file? path place known, visited⟩

/-- The loop ends from every state. -/
theorem exists_runs (tree : Tree) (folders : List Path) (progress : Progress) :
    ∃ files, Runs tree folders progress files (settle tree folders progress) := by
  induction progress using settles tree folders with
  | done progress empty =>
    rw [settle_nil tree folders empty]
    exact ⟨[], .done empty⟩
  | step progress mention waiting waits ih =>
    obtain ⟨files, runs⟩ := ih
    rw [settle_cons tree folders waits]
    unfold take at runs ⊢
    cases fresh : fresh? tree folders { progress with waiting } mention with
    | none =>
      simp only [fresh] at runs
      exact ⟨files, .pass waits fresh runs⟩
    | some next =>
      obtain ⟨file, names⟩ := next
      simp only [fresh] at runs
      exact ⟨names :: files, .read waits fresh runs⟩

theorem Runs.unique {files' : List (List String)} {last' : Progress}
    (runs : Runs tree folders progress files last)
    (runs' : Runs tree folders progress files' last') : files' = files ∧ last' = last := by
  induction runs generalizing files' last' with
  | done empty =>
    cases runs' with
    | done => exact ⟨rfl, rfl⟩
    | pass waits | read waits => exact absurd (empty.symm.trans waits) (by simp)
  | pass waits fresh _ ih =>
    cases runs' with
    | done empty => exact absurd (empty.symm.trans waits) (by simp)
    | pass waits' fresh' rest =>
      obtain ⟨rfl, rfl⟩ := List.cons.inj (waits'.symm.trans waits)
      exact ih rest
    | read waits' fresh' =>
      obtain ⟨rfl, rfl⟩ := List.cons.inj (waits'.symm.trans waits)
      cases fresh'.symm.trans fresh
  | read waits fresh _ ih =>
    cases runs' with
    | done empty => exact absurd (empty.symm.trans waits) (by simp)
    | pass waits' fresh' =>
      obtain ⟨rfl, rfl⟩ := List.cons.inj (waits'.symm.trans waits)
      cases fresh'.symm.trans fresh
    | read waits' fresh' rest =>
      obtain ⟨rfl, rfl⟩ := List.cons.inj (waits'.symm.trans waits)
      cases fresh'.symm.trans fresh
      obtain ⟨rfl, rfl⟩ := ih rest
      exact ⟨rfl, rfl⟩

/-- What has been read before is not read in a run, and what is read is not read again. -/
theorem Runs.new (runs : Runs tree folders progress files last) :
    files.Nodup ∧ ∀ names ∈ files, names ∈ tree.files ∧ names ∉ progress.visited := by
  induction runs with
  | done => exact ⟨List.nodup_nil, by simp⟩
  | pass _ _ _ ih => exact ih
  | @read progress last mention waiting file names files _ fresh _ ih =>
    obtain ⟨distinct, new⟩ := ih
    obtain ⟨known, unvisited⟩ := new_of_fresh? fresh
    -- The file is visited from the moment it is tried, whether it can be read or not.
    rw [visited_addFile] at new
    constructor
    · apply List.nodup_cons.mpr
      refine ⟨?_, distinct⟩
      intro again
      exact (new names again).2 List.mem_cons_self
    · intro other member
      rcases List.mem_cons.mp member with rfl | later
      · exact ⟨known, unvisited⟩
      · exact ⟨(new other later).1, fun visited => (new other later).2 (List.mem_cons_of_mem _ visited)⟩

/-- Nothing else is read: files that are not named can hold anything. -/
theorem Runs.congr {tree' : Tree} (runs : Runs tree folders progress files last)
    (same : tree.SameShape tree') (held : ∀ names ∈ files, tree'.readAt names = tree.readAt names) :
    Runs tree' folders progress files last := by
  have found : fresh? tree' folders = fresh? tree folders := by
    funext progress mention
    rw [fresh?, fresh?, find_sameShape same, funext same.file?]
  induction runs with
  | done empty => exact .done empty
  | pass waits fresh _ ih => exact .pass waits (by rw [found, fresh]) (ih held)
  | @read progress last mention waiting file names files waits fresh _ ih =>
    have own := held names List.mem_cons_self
    refine .read waits (by rw [found, fresh]) ?_
    have added : addFile { progress with waiting } tree' file names mention.target =
        addFile { progress with waiting } tree file names mention.target := by
      simp only [addFile, own]
    rw [added]
    exact ih fun other later => held other (List.mem_cons_of_mem _ later)

end
end Progress

namespace MainSchema
section
variable (tree : Tree) (folders : List Path) (main : MainSchema)

def ownFiles : List (List String) := ((main.file? tree folders).map (·.2)).toList

/-- The files that are read to load a schema, its own first, with what comes of it. -/
inductive Reads : List (List String) → Except LoadError Components → Prop
  | failed {error} : main.begin tree folders = .error error →
    Reads (main.ownFiles tree folders) (.error error)
  | loaded {progress files last} : main.begin tree folders = .ok progress →
    Progress.Runs tree folders progress files last →
    Reads (main.ownFiles tree folders ++ files) (.ok last.components)

end

section
variable {tree : Tree} {folders : List Path} {main : MainSchema}

theorem nodup_ownFiles : (main.ownFiles tree folders).Nodup := by
  rw [ownFiles]
  cases main.file? tree folders <;> simp

theorem mem_files_of_mem_ownFiles {names : List String}
    (own : names ∈ main.ownFiles tree folders) : names ∈ tree.files := by
  simp only [ownFiles, Option.mem_toList, Option.map_eq_some_iff, Prod.exists] at own
  obtain ⟨file, place, found, rfl⟩ := own
  cases main with
  | text schema => cases found
  | source name =>
    simp only [file?, Option.bind_eq_bind, Option.bind_eq_some_iff] at found
    obtain ⟨path, -, names, known, same⟩ := found
    cases same
    exact tree.mem_files_of_file? _ _ known

/-- Exactly the file of the main schema has been visited when the loop begins. -/
theorem visited_of_begin {progress : Progress} (begun : main.begin tree folders = .ok progress) :
    progress.visited = main.ownFiles tree folders := by
  have visited_result {added : Progress × Option LoadError}
      (whole : Progress.result added = .ok progress) : progress.visited = added.1.visited := by
    obtain ⟨next, error⟩ := added
    cases error with
    | none => cases whole; rfl
    | some error => cases whole
  cases found : main.file? tree folders with
  | some own =>
    obtain ⟨file, names⟩ := own
    rw [begin_of_file? found] at begun
    rw [visited_result begun, Progress.visited_addFile, ownFiles, found]
    rfl
  | none =>
    rw [ownFiles, found]
    cases main with
    | text schema => exact (visited_result begun).trans (Progress.visited_addText _ _ _ _)
    | source name =>
      obtain ⟨error, lost⟩ := begin_lost found
      cases lost.symm.trans begun

theorem exists_reads (tree : Tree) (folders : List Path) (main : MainSchema) :
    ∃ files, main.Reads tree folders files (main.load tree folders) := by
  rw [main.load_eq]
  cases begun : main.begin tree folders with
  | error error => exact ⟨_, .failed begun⟩
  | ok progress =>
    obtain ⟨files, runs⟩ := Progress.exists_runs tree folders progress
    exact ⟨_, .loaded begun runs⟩

variable {files : List (List String)} {outcome : Except LoadError Components}

theorem Reads.unique {files' : List (List String)} {outcome' : Except LoadError Components}
    (reads : main.Reads tree folders files outcome)
    (reads' : main.Reads tree folders files' outcome') : files' = files ∧ outcome' = outcome := by
  cases reads with
  | failed begun =>
    cases reads' with
    | failed begun' =>
      cases begun'.symm.trans begun
      exact ⟨rfl, rfl⟩
    | loaded begun' => cases begun'.symm.trans begun
  | loaded begun runs =>
    cases reads' with
    | failed begun' => cases begun'.symm.trans begun
    | loaded begun' runs' =>
      cases begun'.symm.trans begun
      obtain ⟨rfl, rfl⟩ := runs.unique runs'
      exact ⟨rfl, rfl⟩

theorem Reads.distinct (reads : main.Reads tree folders files outcome) :
    files.Nodup ∧ ∀ names ∈ files, names ∈ tree.files := by
  cases reads with
  | failed => exact ⟨nodup_ownFiles, fun _ => mem_files_of_mem_ownFiles⟩
  | loaded begun runs =>
    obtain ⟨distinct, new⟩ := runs.new
    rw [visited_of_begin begun] at new
    constructor
    · apply List.nodup_append.mpr
      refine ⟨nodup_ownFiles, distinct, ?_⟩
      rintro names own _ later rfl
      exact (new names later).2 own
    · intro names member
      rcases List.mem_append.mp member with own | later
      · exact mem_files_of_mem_ownFiles own
      · exact (new names later).1

theorem Reads.congr {tree' : Tree} (reads : main.Reads tree folders files outcome)
    (same : tree.SameShape tree') (held : ∀ names ∈ files, tree'.readAt names = tree.readAt names) :
    main.Reads tree' folders files outcome := by
  have own : main.ownFiles tree' folders = main.ownFiles tree folders := by
    rw [ownFiles, ownFiles, file?_sameShape same]
  have begins (held : ∀ names ∈ main.ownFiles tree folders, tree'.readAt names = tree.readAt names) :
      main.begin tree' folders = main.begin tree folders := by
    apply begin_congr same
    intro file names found
    rw [definitionsAt, definitionsAt, held names (by simp [ownFiles, found])]
  cases reads with
  | failed begun =>
    rw [← own]
    exact .failed ((begins held).trans begun)
  | loaded begun runs =>
    rw [List.forall_mem_append] at held
    rw [← own]
    exact .loaded ((begins held.1).trans begun) (runs.congr same held.2)

end
end MainSchema

/-- Whatever mentions what, loading a schema comes to an end. No file is read twice for it, and what
comes of it depends on nothing else that is held in files. -/
theorem reads_once (tree : Tree) (folders : List Path) (main : MainSchema) :
    ∃ files, main.Reads tree folders files (main.load tree folders) ∧
      (∀ files' outcome, main.Reads tree folders files' outcome →
        files' = files ∧ outcome = main.load tree folders) ∧
      files.Nodup ∧ (∀ names ∈ files, names ∈ tree.files) ∧
      ∀ tree' : Tree, tree.SameShape tree' →
        (∀ names ∈ files, tree'.readAt names = tree.readAt names) →
        main.load tree' folders = main.load tree folders := by
  obtain ⟨files, reads⟩ := main.exists_reads tree folders
  obtain ⟨distinct, known⟩ := reads.distinct
  refine ⟨files, reads, fun _ _ => reads.unique, distinct, known, ?_⟩
  intro tree' same held
  obtain ⟨files', reads'⟩ := main.exists_reads tree' folders
  exact ((reads.congr same held).unique reads').2

end KeyholeMarkup.Schema
