import KeyholeMarkup.Storage.Tree

/-! Written files. The file is read back as what was written, and every other place holds what it held
before, the folders on the way included. -/
namespace KeyholeMarkup.Storage
open KeyholeMarkup.Text

@[simp] theorem decode_toByteArray (text : String) : decode text.toByteArray = .ok text := by
  simp [decode, String.fromUTF8?, text.isValidUTF8, String.fromUTF8]

theorem decode_eq_ok_iff {bytes : ByteArray} {text : String} :
    decode bytes = .ok text ↔ bytes = text.toUTF8 := by
  constructor
  · intro decoded
    unfold decode at decoded
    split at decoded
    · rename_i found
      cases decoded
      unfold String.fromUTF8? at found
      split at found
      · cases found
        rfl
      · cases found
    · cases decoded
  · rintro rfl
    exact decode_toByteArray text

namespace Tree

/-- Whether the working folder or some entry lies at a place or below it. -/
def leadsTo (tree : Tree) (place : List String) : Bool :=
  place.isPrefixOf tree.working || tree.entries.any (place.isPrefixOf ·.1)

variable {tree : Tree} {place other : List String} {entry : Entry}

theorem leadsTo_iff : tree.leadsTo place ↔
    place <+: tree.working ∨ ∃ entry ∈ tree.entries, place <+: entry.1 := by
  simp [leadsTo]

theorem leadsTo_above (below : tree.leadsTo place) (above : other <+: place) : tree.leadsTo other := by
  rw [leadsTo_iff] at below ⊢
  obtain below | ⟨entry, member, below⟩ := below
  · exact .inl (above.trans below)
  · exact .inr ⟨entry, member, above.trans below⟩

theorem leadsTo_of_entryAt (found : (tree.entryAt place).isSome) : tree.leadsTo place := by
  unfold entryAt at found
  split at found
  · rename_i key entry same
    have here : key = place := by simpa using List.find?_some same
    exact leadsTo_iff.mpr (.inr ⟨_, List.mem_of_find?_eq_some same, here ▸ List.prefix_rfl⟩)
  · split at found
    · assumption
    · simp at found

theorem leadsTo_put : (tree.put place entry).leadsTo other ↔ other <+: place ∨ tree.leadsTo other := by
  simp only [leadsTo_iff, put, List.mem_cons, List.mem_filter, exists_eq_or_imp]
  constructor
  · rintro (inside | here | ⟨kept, ⟨member, -⟩, below⟩)
    · exact .inr (.inl inside)
    · exact .inl here
    · exact .inr (.inr ⟨kept, member, below⟩)
  · rintro (here | inside | ⟨kept, member, below⟩)
    · exact .inr (.inl here)
    · exact .inl inside
    · by_cases same : kept.1 = place
      · exact .inr (.inl (same ▸ below))
      · exact .inr (.inr ⟨kept, ⟨member, by simpa using same⟩, below⟩)

/-- An entry that is put into a folder changes no other place. -/
theorem entryAt_put_of_leadsTo (apart : other ≠ place)
    (known : other <+: place → tree.leadsTo other) :
    (tree.put place entry).entryAt other = tree.entryAt other := by
  have found : (tree.put place entry).entries.find? (·.1 == other) =
      tree.entries.find? (·.1 == other) := by
    have unlike : (place == other) = false := by simpa using apart.symm
    have same : ∀ kept : List String × Entry,
        decide ((kept.1 != place) = true ∧ (kept.1 == other) = true) = (kept.1 == other) := by
      intro kept
      by_cases same : kept.1 = other
      · simp [same, apart]
      · simp [same]
    simp only [put, List.find?_cons, unlike, List.find?_filter, same]
  have same : (tree.put place entry).leadsTo other = tree.leadsTo other := by
    rw [Bool.eq_iff_iff, leadsTo_put]
    exact or_iff_right_of_imp known
  unfold entryAt
  rw [found]
  split
  · rfl
  · exact congrArg (fun known : Bool => if known then some Entry.folder else none) same

variable {path : Path} {segments : List (List Char)} {start folder : List String}

/-- A place that a path names in a folder, at which there is no folder. -/
structure Names (tree : Tree) (path : Path) (folder : List String) (name : List Char) : Prop where
  fault : path.fault? = none
  segments : ∃ front last, path.segments = front ++ [last] ∧
    tree.follow (tree.base path) front = .ok folder ∧
    Component.ofSegment? last = some (.name name)
  holds : tree.entryAt folder = some .folder
  short : isTooLong name = false
  vacant : tree.entryAt (folder ++ [String.ofList name]) ≠ some .folder

theorem names_of_target (target : tree.target path = .ok place) :
    ∃ folder name, place = folder ++ [String.ofList name] ∧ tree.Names path folder name := by
  unfold Tree.target at target
  generalize written : (path.segments.reverse.dropWhile (·.isEmpty)).reverse = named at target
  cases fault : path.fault? with
  | some found =>
    rw [fault] at target
    cases target
  | none =>
    simp only [fault] at target
    cases followed : tree.follow (tree.base path) named.dropLast with
    | error found =>
      rw [followed] at target
      cases target
    | ok folder =>
      simp only [followed, bind, Except.bind, throw, throwThe, MonadExceptOf.throw, pure, Except.pure,
        ne_eq, ite_not] at target
      split at target
      · cases target
      · cases target
      · rename_i name holds called
        split at target
        · rename_i whole
          split at target
          · cases target
          · rename_i short
            split at target
            · cases target
            · rename_i vacant
              cases target
              obtain ⟨last, final, component⟩ := Option.bind_eq_some_iff.mp called
              obtain ⟨front, parts⟩ := List.getLast?_eq_some_iff.mp final
              rw [parts, List.dropLast_concat] at followed
              exact ⟨folder, name, rfl, fault, ⟨front, last, whole ▸ parts, followed, component⟩,
                holds, by simpa using short, vacant⟩
        · cases target
      · cases target

theorem follow_append (tree : Tree) (start : List String) (first second : List (List Char)) :
    tree.follow start (first ++ second) =
      (tree.follow start first).bind fun place => tree.follow place second := by
  induction first generalizing start with
  | nil => rfl
  | cons segment first ih =>
    simp only [List.cons_append, follow]
    repeat' split
    all_goals first | rfl | exact ih _

/-- Where a segment leads to from a folder. -/
inductive Passes (tree : Tree) (place : List String) (segment : List Char) : List String → Prop
  | up : Component.ofSegment? segment = some .up → Passes tree place segment place.dropLast
  | name {name} : Component.ofSegment? segment = some (.name name) → isTooLong name = false →
    (tree.entryAt (place ++ [String.ofList name])).isSome →
    Passes tree place segment (place ++ [String.ofList name])
  | stay : Component.ofSegment? segment ≠ some .up →
    (∀ name, Component.ofSegment? segment ≠ some (.name name)) → Passes tree place segment place

theorem follow_cons_eq_ok_iff {segment : List Char} :
    tree.follow start (segment :: segments) = .ok folder ↔ tree.entryAt start = some .folder ∧
      ∃ next, tree.Passes start segment next ∧ tree.follow next segments = .ok folder := by
  constructor
  · intro followed
    unfold follow at followed
    split at followed
    · cases followed
    · cases followed
    · rename_i here
      refine ⟨here, ?_⟩
      split at followed
      · exact ⟨_, .up ‹_›, followed⟩
      · rename_i name called
        split at followed
        · cases followed
        · rename_i short
          dsimp only at followed
          split at followed
          · exact ⟨_, .name called (by simpa using short) ‹_›, followed⟩
          · cases followed
      · rename_i other named
        exact ⟨_, .stay other named, followed⟩
  · rintro ⟨here, next, passes, followed⟩
    cases passes with
    | up called => simp [follow, here, called, followed]
    | name called short known => simp [follow, here, called, short, known, followed]
    | stay other named =>
      cases called : Component.ofSegment? segment with
      | none => simp [follow, here, called, followed]
      | some component =>
        cases component with
        | up => exact absurd called other
        | name name => exact absurd called (named name)
        | root | here => simp [follow, here, called, followed]

/-- Where segments lead to, one behind the other. -/
inductive Leads (tree : Tree) : List String → List (List Char) → List String → Prop
  | here (place : List String) : Leads tree place [] place
  | onward {start next place : List String} {segment : List Char} {segments : List (List Char)} :
    tree.entryAt start = some .folder → tree.Passes start segment next →
    Leads tree next segments place → Leads tree start (segment :: segments) place

theorem leads_iff : tree.Leads start segments place ↔ tree.follow start segments = .ok place := by
  constructor
  · intro leads
    induction leads with
    | here => rfl
    | onward holds passes _ ih => exact follow_cons_eq_ok_iff.mpr ⟨holds, _, passes, ih⟩
  · intro followed
    induction segments generalizing start with
    | nil =>
      cases followed
      exact .here _
    | cons segment segments ih =>
      obtain ⟨holds, next, passes, onward⟩ := follow_cons_eq_ok_iff.mp followed
      exact .onward holds passes (ih onward)

/-- A file with these bytes is found by a path. -/
structure HoldsFile (tree : Tree) (path : Path) (bytes : ByteArray) : Prop where
  named : path.text ≠ ""
  short : byteLength path.text.toList ≤ maxPathLength
  found : ∃ place, tree.Leads (tree.base path) path.segments place ∧
    tree.entryAt place = some (.file bytes)

theorem locate_eq_ok_iff : tree.locate path = .ok place ↔
    path.text ≠ "" ∧ byteLength path.text.toList ≤ maxPathLength ∧
      tree.Leads (tree.base path) path.segments place := by
  rw [leads_iff, locate, Path.fault?]
  by_cases empty : path.text = ""
  · simp [empty]
  · by_cases long : maxPathLength < byteLength path.text.toList
    · simp [empty, long, Nat.not_le_of_lt long]
    · simp [empty, long, Nat.le_of_not_lt long]

theorem readAt_eq_ok_iff {content : String} :
    tree.readAt place = .ok content ↔ tree.entryAt place = some (.file content.toUTF8) := by
  unfold readAt
  cases found : tree.entryAt place with
  | none => simp
  | some entry =>
    cases entry with
    | folder => simp
    | file bytes => simp only [decode_eq_ok_iff, Option.some.injEq, Entry.file.injEq]

theorem read_eq_ok_iff {content : String} :
    tree.read path = .ok content ↔ tree.HoldsFile path content.toUTF8 := by
  constructor
  · intro read
    cases located : tree.locate path with
    | error fault => simp [Tree.read, located, bind, Except.bind] at read
    | ok place =>
      simp only [Tree.read, located, bind, Except.bind] at read
      obtain ⟨named, short, leads⟩ := locate_eq_ok_iff.mp located
      exact ⟨named, short, place, leads, readAt_eq_ok_iff.mp read⟩
  · rintro ⟨named, short, place, leads, holds⟩
    rw [Tree.read, locate_eq_ok_iff.mpr ⟨named, short, leads⟩]
    exact readAt_eq_ok_iff.mpr holds

theorem Passes.put {segment : List Char} {next : List String}
    (same : ∀ other, other ≠ place → (tree.put place entry).entryAt other = tree.entryAt other)
    (passes : tree.Passes start segment next) : (tree.put place entry).Passes start segment next := by
  cases passes with
  | up called => exact .up called
  | stay other named => exact .stay other named
  | @name name called short known =>
    refine .name called short ?_
    by_cases equal : start ++ [String.ofList name] = place
    · rw [equal, entryAt_put]
      rfl
    · rwa [same _ equal]

/-- A path that leads to a folder still does when a file has been put where there is no folder. -/
theorem follow_put (vacant : tree.entryAt place ≠ some .folder)
    (same : ∀ other, other ≠ place → (tree.put place entry).entryAt other = tree.entryAt other)
    (followed : tree.follow start segments = .ok folder) :
    (tree.put place entry).follow start segments = .ok folder := by
  induction segments generalizing start with
  | nil => exact followed
  | cons segment segments ih =>
    obtain ⟨here, next, passes, followed⟩ := follow_cons_eq_ok_iff.mp followed
    have apart : start ≠ place := fun equal => vacant (equal ▸ here)
    exact follow_cons_eq_ok_iff.mpr ⟨(same start apart).trans here, next, passes.put same, ih followed⟩

theorem Names.entryAt_put {name : List Char} (names : tree.Names path folder name)
    (apart : other ≠ folder ++ [String.ofList name]) :
    (tree.put (folder ++ [String.ofList name]) entry).entryAt other = tree.entryAt other := by
  refine entryAt_put_of_leadsTo apart fun above => ?_
  have inside : other <+: folder := (List.prefix_concat_iff.mp above).resolve_left apart
  exact leadsTo_above (leadsTo_of_entryAt (by rw [names.holds]; rfl)) inside

theorem Names.locate_put {name : List Char} {bytes : ByteArray} (names : tree.Names path folder name) :
    (tree.put (folder ++ [String.ofList name]) (.file bytes)).locate path =
      .ok (folder ++ [String.ofList name]) := by
  obtain ⟨front, last, segments, followed, called⟩ := names.segments
  have stays : (tree.put (folder ++ [String.ofList name]) (.file bytes)).follow (tree.base path) front =
      .ok folder := follow_put names.vacant (fun _ => names.entryAt_put) followed
  have here : (tree.put (folder ++ [String.ofList name]) (.file bytes)).entryAt folder = some .folder := by
    rw [names.entryAt_put (by simp), names.holds]
  have base : (tree.put (folder ++ [String.ofList name]) (.file bytes)).base path = tree.base path := rfl
  rw [locate, names.fault, segments, base]
  simp only [follow_append, stays, Except.bind, follow, here, called, names.short, Tree.entryAt_put]
  rfl

theorem target_of_write {text : String} {after : Tree} (written : tree.write path text = .ok after) :
    ∃ place, tree.target path = .ok place ∧ after = tree.put place (.file text.toUTF8) := by
  cases target : tree.target path with
  | error fault => simp [Tree.write, target, bind, Except.bind] at written
  | ok place =>
    simp only [Tree.write, target, bind, Except.bind, pure, Except.pure, Except.ok.injEq] at written
    exact ⟨place, rfl, written.symm⟩

/-- All that writing a file changes is the place of the file. -/
theorem entryAt_write {text : String} {after : Tree} (written : tree.write path text = .ok after)
    (apart : tree.target path ≠ .ok other) : after.entryAt other = tree.entryAt other := by
  obtain ⟨place, target, rfl⟩ := target_of_write written
  obtain ⟨folder, name, rfl, names⟩ := names_of_target target
  exact names.entryAt_put fun same => apart (same ▸ target)

/-- What has been written by a path is read by it. -/
theorem read_write {text : String} {after : Tree} (written : tree.write path text = .ok after) :
    after.read path = .ok text := by
  obtain ⟨place, target, rfl⟩ := target_of_write written
  obtain ⟨folder, name, rfl, names⟩ := names_of_target target
  simp only [read, names.locate_put, bind, Except.bind, readAt, Tree.entryAt_put,
    String.toUTF8_eq_toByteArray, decode_toByteArray]

end Tree
end KeyholeMarkup.Storage
