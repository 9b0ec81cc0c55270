import Gait.CommandLine
import Gait.Proofs.Json
import Gait.Proofs.Text.ByteOrder
import Gait.Proofs.Walker.Coherence
import Mathlib.Data.List.Forall2
import Mathlib.Data.List.Induction
import Mathlib.Data.List.Sort

/-!
# Listing a directory

`list` loads the walk files of a directory one after the other and prints what is registered then.
`Provides` says which program a file provides, if any, and `ProvidesLast` that no file behind it
provides one of the same name; `get?_loaded_iff` says that these programs are the ones that stay.
`Row.Shows` says what can be read off a printed line.  The main statement is about what is printed,
in any file system that stays as it is: a line for each of these programs, in the order of names, so
that the order in which the directory is enumerated has no part in it.
-/

namespace Gait

namespace Registry

theorem mem_entries_iff {r : Registry} {name : String} {p : Program} :
    (name, p) ∈ r.entries ↔ r.get? name = some p := by
  refine ⟨fun member => ?_, mem_of_get?⟩
  obtain ⟨before, behind, entries⟩ := List.append_of_mem member
  have ascending := r.ascending
  rw [entries] at ascending
  refine List.lookup_eq_some_iff.2 ⟨before, behind, entries, fun e earlier => ?_⟩
  have lt := List.Pairwise.rel_of_mem_append ascending earlier List.mem_cons_self
  simpa using (String.ne_of_lt lt).symm

/-- A registry is known by what can be looked up in it. -/
theorem ext_get? {r s : Registry} (same : ∀ name, r.get? name = s.get? name) : r = s := by
  have : Std.Irrefl fun a b : String × Program => a.1 < b.1 := ⟨fun a => String.lt_irrefl a.1⟩
  have : Std.Antisymm fun a b : String × Program => a.1 < b.1 :=
    ⟨fun a b lt gt => (String.lt_asymm lt gt).elim⟩
  have entries : r.entries = s.entries := by
    refine r.ascending.eq_of_mem_iff s.ascending fun e => ?_
    obtain ⟨name, p⟩ := e
    rw [mem_entries_iff, mem_entries_iff, same]
  cases r
  cases s
  cases entries
  rfl

end Registry

namespace WalkDirectory

variable [Files Id]

/-! ## What loading registers -/

/-- The program in the text of a file; it remembers the path of the file. -/
def programAt (path text : String) : Program :=
  { (WalkFile.read text).program with path := some path }

/-- The program that loading a file registers, if it can be read and played. -/
def playable? (path : String) : Option Program :=
  match (WalkFile.load path : Id (Except Report WalkFile.Reading)) with
  | .ok reading => if reading.program.mode.isOk then some reading.program else none
  | .error _ => none

/-- A registry with the program of a file. -/
def registered (r : Registry) (path : String) : Registry :=
  match playable? path with
  | some p => r.insert p.name p
  | none => r

theorem playable?_eq_some_iff {path : String} {p : Program} :
    playable? path = some p ↔
      ∃ text, (Files.readText path : Id (Except FileError String)) = .ok text ∧
        programAt path text = p ∧ ∃ mode, p.mode = .ok mode := by
  rw [playable?, WalkFile.load_eq_map]
  simp only [Functor.map]
  cases (Files.readText path : Id (Except FileError String)) with
  | error e => exact iff_of_false nofun nofun
  | ok text =>
      change (if (programAt path text).mode.isOk then some (programAt path text) else none) =
        some p ↔ _
      cases valid : (programAt path text).mode with
      | error reason =>
          refine iff_of_false nofun ?_
          rintro ⟨_, ⟨⟩, rfl, mode, valid'⟩
          cases valid.symm.trans valid'
      | ok mode =>
          constructor
          · rintro ⟨⟩
            exact ⟨text, rfl, rfl, mode, valid⟩
          · rintro ⟨_, ⟨⟩, rfl, -⟩
            rfl

theorem load_eq {L : Type} (w : Walker L) (path : String) :
    (∃ p, playable? path = some p ∧ (w.load path : Id (Except Report (String × Walker L))) =
      .ok (p.name, { w with registry := w.registry.insert p.name p })) ∨
    playable? path = none ∧
      ∃ r, (w.load path : Id (Except Report (String × Walker L))) = .error r := by
  unfold Walker.load playable?
  simp only [bind, pure]
  cases (WalkFile.load path : Id (Except Report WalkFile.Reading)) with
  | error r => exact .inr ⟨rfl, r, rfl⟩
  | ok reading =>
      dsimp only
      cases valid : reading.program.mode with
      | error i =>
          rw [Walker.register_of_invalid w valid]
          exact .inr ⟨rfl, _, rfl⟩
      | ok mode =>
          rw [Walker.register_of_valid w valid]
          exact .inl ⟨_, rfl, rfl⟩

theorem loadAll_eq {L : Type} (w : Walker L) (paths : List String) :
    (loadAll w paths : Id (Walker L)) =
      { w with registry := paths.foldl registered w.registry } := by
  induction paths generalizing w with
  | nil => rfl
  | cons path paths ih =>
      rw [loadAll, List.foldl_cons, registered]
      simp only [bind]
      rcases load_eq w path with ⟨p, playable, loaded⟩ | ⟨unplayable, r, refused⟩
      · rw [loaded, playable]
        exact ih _
      · rw [refused, unplayable]
        exact ih _

theorem get?_registered_iff {r : Registry} {path name : String} {p : Program} :
    (registered r path).get? name = some p ↔
      (playable? path = some p ∧ p.name = name) ∨
        (∀ q, playable? path = some q → q.name ≠ name) ∧ r.get? name = some p := by
  unfold registered
  cases playable? path with
  | none => simp
  | some q =>
      dsimp only
      by_cases same : q.name = name
      · subst same
        rw [Registry.get?_insert_self]
        simp +contextual [eq_comm]
      · rw [Registry.get?_insert_of_ne r q (Ne.symm same)]
        constructor
        · refine fun found => .inr ⟨?_, found⟩
          rintro _ ⟨⟩
          exact same
        · rintro (⟨⟨⟩, named⟩ | ⟨-, found⟩)
          · exact (same named).elim
          · exact found

/-- The program is one of this name in one of the files, and no file behind it has another. -/
def LastOf (directory : String) (files : List String) (name : String) (p : Program) : Prop :=
  ∃ file ∈ files, playable? (Files.join directory file) = some p ∧ p.name = name ∧
    ∀ later ∈ files, file < later →
      ∀ q, playable? (Files.join directory later) = some q → q.name ≠ name

theorem lastOf_concat_iff {directory name last : String} {files : List String} {p : Program}
    (behind : ∀ file ∈ files, file ≤ last) :
    LastOf directory (files ++ [last]) name p ↔
      (playable? (Files.join directory last) = some p ∧ p.name = name) ∨
        (∀ q, playable? (Files.join directory last) = some q → q.name ≠ name) ∧
          LastOf directory files name p := by
  have isLast : last ∈ files ++ [last] := by simp
  constructor
  · rintro ⟨file, member, playable, named, stays⟩
    by_cases same : file = last
    · exact .inl ⟨same ▸ playable, named⟩
    · have earlier : file ∈ files := by simpa [same] using member
      have before : file < last := String.not_le.1 fun notBefore =>
        same (String.le_antisymm (behind file earlier) notBefore)
      exact .inr ⟨stays last isLast before, file, earlier, playable, named,
        fun later member => stays later (List.mem_append_left _ member)⟩
  · rintro (⟨playable, named⟩ | ⟨passed, file, member, playable, named, stays⟩)
    · refine ⟨last, isLast, playable, named, fun later member lt => ?_⟩
      have notBehind : later ≤ last := by
        rcases List.mem_append.1 member with earlier | here
        · exact behind later earlier
        · rw [List.mem_singleton.1 here]
      exact (String.not_lt.2 notBehind lt).elim
    · refine ⟨file, List.mem_append_left _ member, playable, named, fun later member lt => ?_⟩
      rcases List.mem_append.1 member with earlier | here
      · exact stays later earlier lt
      · rw [List.mem_singleton.1 here]
        exact passed

theorem exists_lastOf_iff {directory name : String} (files : List String)
    (ordered : files.Pairwise (· ≤ ·)) :
    (∃ p, LastOf directory files name p) ↔
      ∃ file ∈ files, ∃ p, playable? (Files.join directory file) = some p ∧ p.name = name := by
  refine ⟨fun ⟨p, file, member, playable, named, _⟩ => ⟨file, member, p, playable, named⟩, ?_⟩
  induction files using List.reverseRecOn with
  | nil => simp
  | append_singleton files last ih =>
      obtain ⟨ordered', -, behind⟩ := List.pairwise_append.1 ordered
      have behind' : ∀ file ∈ files, file ≤ last := fun file member =>
        behind file member last List.mem_cons_self
      rintro ⟨file, member, p, playable, named⟩
      by_cases passed : ∀ q, playable? (Files.join directory last) = some q → q.name ≠ name
      · have earlier : file ∈ files := by
          rcases List.mem_append.1 member with earlier | here
          · exact earlier
          · rw [List.mem_singleton.1 here] at playable
            exact (passed p playable named).elim
        obtain ⟨q, lastOf⟩ := ih ordered' ⟨file, earlier, p, playable, named⟩
        exact ⟨q, (lastOf_concat_iff behind').2 (.inr ⟨passed, lastOf⟩)⟩
      · push Not at passed
        obtain ⟨q, here⟩ := passed
        exact ⟨q, (lastOf_concat_iff behind').2 (.inl here)⟩

/-- Of the files in order, the last one that provides a program of a name stays registered. -/
theorem get?_loaded_iff {directory name : String} {p : Program} (files : List String)
    (ordered : files.Pairwise (· ≤ ·)) :
    ((files.map (Files.join directory)).foldl registered .empty).get? name = some p ↔
      LastOf directory files name p := by
  induction files using List.reverseRecOn with
  | nil => simp [LastOf]
  | append_singleton files last ih =>
      obtain ⟨ordered', -, behind⟩ := List.pairwise_append.1 ordered
      rw [List.map_append, List.foldl_append, List.map_singleton, List.foldl_cons, List.foldl_nil,
        get?_registered_iff, ih ordered',
        lastOf_concat_iff fun file member => behind file member last List.mem_cons_self]

/-! ## The files that are loaded -/

omit [Files Id] in
theorem filterM_eq (keep : String → Id Bool) (names : List String) :
    (filterM keep names : Id (List String)) = names.filter keep := by
  induction names with
  | nil => rfl
  | cons name names ih =>
      rw [List.filter_cons, ← ih]
      rfl

/-- The regular files with the extension, in ascending order. -/
def walkFiles (directory extension : String) (names : List String) : List String :=
  (sorted (names.filter fun name => Files.extension? name = some extension)).filter
    fun name => (Files.isFile (Files.join directory name) : Id Bool)

theorem files_eq {directory : String} {names : List String}
    (enumerated : (Files.names directory : Id (Except FileError (List String))) = .ok names)
    (extension : String) :
    (files directory extension : Id (Except Report (List String))) =
      .ok ((walkFiles directory extension names).map (Files.join directory)) := by
  unfold files
  simp only [bind, pure, enumerated, filterM_eq]
  rfl

theorem mem_walkFiles_iff {directory extension file : String} {names : List String} :
    file ∈ walkFiles directory extension names ↔
      file ∈ names ∧ Files.extension? file = some extension ∧
        (Files.isFile (Files.join directory file) : Id Bool) = true := by
  simp [walkFiles, sorted, List.mem_mergeSort, and_assoc]

theorem walkFiles_ordered (directory extension : String) (names : List String) :
    (walkFiles directory extension names).Pairwise (· ≤ ·) := by
  have ordered : (sorted (names.filter fun name => Files.extension? name = some extension)).Pairwise
      fun a b => decide (a ≤ b) := by
    refine List.pairwise_mergeSort (fun a b c => ?_) (fun a b => ?_) _
    · simpa using String.le_trans
    · simpa using String.le_total a b
  exact (ordered.imp of_decide_eq_true).filter _

end WalkDirectory

namespace CommandLine

variable [Files Id]

open WalkDirectory

/-! ## What is printed -/

/-- The program that a file of a directory provides: it stands in a regular file with the
extension, which can be read, and it can be played. -/
structure Provides (directory extension file : String) (p : Program) (mode : Mode) : Prop where
  extended : Files.extension? file = some extension
  regular : (Files.isFile (Files.join directory file) : Id Bool) = true
  read : ∃ text, (Files.readText (Files.join directory file) : Id (Except FileError String)) =
    .ok text ∧ programAt (Files.join directory file) text = p
  valid : p.mode = .ok mode

/-- The file is the last one of its directory, in the order of the bytes of their names, that
provides a program of this name. -/
structure ProvidesLast (directory extension : String) (names : List String) (file : String)
    (p : Program) (mode : Mode) : Prop where
  listed : file ∈ names
  provides : Provides directory extension file p mode
  stays : ∀ later ∈ names, Text.bytes file < Text.bytes later →
    ∀ q mode', Provides directory extension later q mode' → q.name ≠ p.name

/-- What is printed for a program. -/
structure Row where
  name : String
  mode : Mode
  looping : Bool
  tick : Nat
  path : String
  deriving DecidableEq

/-- The row of a program that is played in a mode and was read from a path. -/
def Row.of (p : Program) (mode : Mode) (path : String) : Row :=
  ⟨p.name, mode, p.looping, p.tick, path⟩

/-- So many blanks. -/
def blanks (count : Nat) : String := String.ofList (List.replicate count ' ')

/-- What a printed line tells of a row: either its name, mode and tick, each with the blanks that
fill its column, and its path, or an object with all that the row holds. -/
inductive Row.Shows (row : Row) : Bool → String → Prop
  | columns (word : String) (means : Mode.ofText? word = some row.mode) :
    Shows row false
      (row.name ++ blanks (24 - row.name.length) ++ " " ++ word ++ blanks (4 - word.length) ++
        " tick=" ++ toString row.tick ++ blanks (5 - (toString row.tick).length) ++ " " ++ row.path)
  | object (word line : String) (means : Mode.ofText? word = some row.mode)
    (read : Json.fields? line =
      some [("looping", .flag row.looping), ("mode", .text word), ("name", .text row.name),
        ("path", .text row.path), ("tick_ms", .number row.tick)]) :
    Shows row true line

theorem exists_provides_iff {directory extension file : String} {p : Program} :
    (∃ mode, Provides directory extension file p mode) ↔
      Files.extension? file = some extension ∧
        (Files.isFile (Files.join directory file) : Id Bool) = true ∧
        playable? (Files.join directory file) = some p := by
  rw [playable?_eq_some_iff]
  constructor
  · rintro ⟨mode, named, regular, ⟨text, read, eq⟩, valid⟩
    exact ⟨named, regular, text, read, eq, mode, valid⟩
  · rintro ⟨named, regular, text, read, eq, mode, valid⟩
    exact ⟨mode, named, regular, ⟨text, read, eq⟩, valid⟩

theorem exists_providesLast_iff {directory extension name : String} {names : List String}
    {p : Program} :
    (∃ file mode, ProvidesLast directory extension names file p mode ∧ p.name = name) ↔
      LastOf directory (walkFiles directory extension names) name p := by
  constructor
  · rintro ⟨file, mode, ⟨listed, provides, stays⟩, rfl⟩
    obtain ⟨named, regular, playable⟩ := exists_provides_iff.1 ⟨mode, provides⟩
    refine ⟨file, mem_walkFiles_iff.2 ⟨listed, named, regular⟩, playable, rfl,
      fun later member lt q playable' => ?_⟩
    obtain ⟨listed', named', regular'⟩ := mem_walkFiles_iff.1 member
    obtain ⟨mode', provides'⟩ := exists_provides_iff.2 ⟨named', regular', playable'⟩
    exact stays later listed' ((Text.lt_iff_bytes_lt file later).1 lt) q mode' provides'
  · rintro ⟨file, member, playable, rfl, stays⟩
    obtain ⟨listed, named, regular⟩ := mem_walkFiles_iff.1 member
    obtain ⟨mode, provides⟩ := exists_provides_iff.2 ⟨named, regular, playable⟩
    refine ⟨file, mode, ⟨listed, provides, fun later listed' lt q mode' provides' => ?_⟩, rfl⟩
    obtain ⟨named', regular', playable'⟩ := exists_provides_iff.1 ⟨mode', provides'⟩
    exact stays later (mem_walkFiles_iff.2 ⟨listed', named', regular'⟩)
      ((Text.lt_iff_bytes_lt file later).2 lt) q playable'

/-- A name that is provided at all is provided last by some file. -/
theorem exists_last_iff {directory extension name : String} {names : List String} :
    (∃ p file mode, ProvidesLast directory extension names file p mode ∧ p.name = name) ↔
      ∃ file ∈ names, ∃ p mode, Provides directory extension file p mode ∧ p.name = name := by
  simp only [exists_providesLast_iff]
  rw [exists_lastOf_iff _ (walkFiles_ordered directory extension names)]
  constructor
  · rintro ⟨file, member, p, playable, named⟩
    obtain ⟨listed, extended, regular⟩ := mem_walkFiles_iff.1 member
    obtain ⟨mode, provides⟩ := exists_provides_iff.2 ⟨extended, regular, playable⟩
    exact ⟨file, listed, p, mode, provides, named⟩
  · rintro ⟨file, listed, p, mode, provides, named⟩
    obtain ⟨extended, regular, playable⟩ := exists_provides_iff.1 ⟨mode, provides⟩
    exact ⟨file, mem_walkFiles_iff.2 ⟨listed, extended, regular⟩, p, playable, named⟩

/-- The registry that `list` prints. -/
def listed (directory extension : String) (names : List String) : Registry :=
  ((walkFiles directory extension names).map (Files.join directory)).foldl registered .empty

theorem list_eq {settings : WalkerSettings} {names : List String}
    (enumerated : (Files.names settings.directory : Id (Except FileError (List String))) =
      .ok names) (json : Bool) :
    (list settings json : Id Output) =
      { lines := listing json (listed settings.directory settings.extension names) } := by
  unfold list WalkDirectory.load
  simp only [bind, pure, files_eq enumerated, loadAll_eq]
  rfl

theorem get?_listed_iff {directory extension name : String} {names : List String} {p : Program} :
    (listed directory extension names).get? name = some p ↔
      ∃ file mode, ProvidesLast directory extension names file p mode ∧ p.name = name := by
  rw [exists_providesLast_iff]
  exact get?_loaded_iff _ (walkFiles_ordered directory extension names)

theorem mem_listed_iff {directory extension : String} {names : List String}
    {e : String × Program} :
    e ∈ (listed directory extension names).entries ↔
      ∃ file mode, ProvidesLast directory extension names file e.2 mode ∧ e.2.name = e.1 :=
  Registry.mem_entries_iff.trans get?_listed_iff

section Rows

variable {directory extension file : String} {p : Program} {mode : Mode}

/-- The row of a program, by what it remembers of its file. -/
def rowOf (p : Program) : Row := .of p (p.mode?.getD .prg) (p.path.getD "")

theorem rowOf_eq (provides : Provides directory extension file p mode) :
    rowOf p = .of p mode (Files.join directory file) := by
  obtain ⟨-, -, ⟨text, -, rfl⟩, valid⟩ := provides
  rw [rowOf, Program.mode?_eq_some_of_mode valid]
  rfl

omit [Files Id] in
theorem listingJson_eq (name : String) (p : Program) :
    listingJson name p =
      Json.inBraces [("looping", .flag p.looping), ("mode", .text (p.mode?.elim "?" Mode.text)),
        ("name", .text name), ("path", .text (p.path.getD "")), ("tick_ms", .number p.tick)] := by
  rw [listingJson, Json.object_eq]
  exact congrArg Json.inBraces (by simp [Json.byKey, List.mergeSort])

omit [Files Id] in
/-- A line of the listing shows the row of its program. -/
theorem shows_rowOf (asked : p.mode? ≠ none) (json : Bool) :
    (rowOf p).Shows json (if json then listingJson p.name p else listingLine p.name p) := by
  obtain ⟨mode, asked⟩ := Option.ne_none_iff_exists'.1 asked
  have means : Mode.ofText? mode.text = some (rowOf p).mode := by
    rw [Mode.ofText?_text, rowOf, asked]
    rfl
  cases json with
  | false =>
      have columns := Row.Shows.columns mode.text means
      simpa [listingLine, asked, padRight, blanks, rowOf, Row.of, String.append_assoc, toString]
        using columns
  | true =>
      refine .object mode.text _ means ?_
      rw [if_pos rfl, listingJson_eq, asked]
      exact Json.fields?_inBraces (by simp)

end Rows

/-- The listing has a row for each program that is the last one of its name. -/
theorem listing_eq (directory extension : String) (names : List String) (json : Bool) :
    let rows := (listed directory extension names).entries.map fun e => rowOf e.2
    List.Forall₂ (fun row line => row.Shows json line) rows
        (listing json (listed directory extension names)) ∧
      rows.map (·.name) = (listed directory extension names).names ∧
      ∀ row, row ∈ rows ↔ ∃ file p mode, ProvidesLast directory extension names file p mode ∧
        row = .of p mode (Files.join directory file) := by
  intro rows
  refine ⟨?_, ?_, fun row => ?_⟩
  · refine List.forall₂_map_left_iff.2 (List.forall₂_map_right_iff.2 ?_)
    refine List.forall₂_same.2 fun e member => ?_
    obtain ⟨file, mode, last, named⟩ := mem_listed_iff.1 member
    have asked := Program.mode?_eq_some_of_mode last.provides.valid
    rw [← named]
    exact shows_rowOf (by simp [asked]) json
  · rw [List.map_map, Registry.names]
    refine List.map_congr_left fun e member => ?_
    obtain ⟨file, mode, -, named⟩ := mem_listed_iff.1 member
    exact named
  · rw [List.mem_map]
    constructor
    · rintro ⟨e, member, rfl⟩
      obtain ⟨file, mode, last, -⟩ := mem_listed_iff.1 member
      exact ⟨file, e.2, mode, last, rowOf_eq last.provides⟩
    · rintro ⟨file, p, mode, last, rfl⟩
      exact ⟨(p.name, p), mem_listed_iff.2 ⟨file, mode, last, rfl⟩, rowOf_eq last.provides⟩

end CommandLine

/-! ## Another enumeration -/

/-- The same files, and the same names in the directory, perhaps in another order. -/
structure SameFiles (here there : Files Id) (directory : String) (names names' : List String) :
    Prop where
  readText : ∀ path, here.readText path = there.readText path
  isFile : ∀ path, here.isFile path = there.isFile path
  enumerated : here.names directory = .ok names
  enumerated' : there.names directory = .ok names'
  members : ∀ file, file ∈ names ↔ file ∈ names'

namespace SameFiles

open CommandLine

variable {here there : Files Id} {directory extension file : String} {names names' : List String}
  {p : Program} {mode : Mode}

theorem symm (same : SameFiles here there directory names names') :
    SameFiles there here directory names' names where
  readText path := (same.readText path).symm
  isFile path := (same.isFile path).symm
  enumerated := same.enumerated'
  enumerated' := same.enumerated
  members file := (same.members file).symm

theorem provides (same : SameFiles here there directory names names')
    (provides : @Provides here directory extension file p mode) :
    @Provides there directory extension file p mode := by
  obtain ⟨named, regular, ⟨text, read, eq⟩, valid⟩ := provides
  exact ⟨named, (same.isFile _).symm.trans regular, ⟨text, (same.readText _).symm.trans read, eq⟩,
    valid⟩

theorem providesLast (same : SameFiles here there directory names names')
    (last : @ProvidesLast here directory extension names file p mode) :
    @ProvidesLast there directory extension names' file p mode := by
  obtain ⟨listed, provides, stays⟩ := last
  refine ⟨(same.members file).1 listed, same.provides provides, fun later listed' lt q mode' => ?_⟩
  exact fun provides' =>
    stays later ((same.members later).2 listed') lt q mode' (same.symm.provides provides')

theorem get?_listed (same : SameFiles here there directory names names') {name : String}
    (found : (@listed here directory extension names).get? name = some p) :
    (@listed there directory extension names').get? name = some p := by
  obtain ⟨file, mode, last, named⟩ := (@get?_listed_iff here ..).1 found
  exact (@get?_listed_iff there ..).2 ⟨file, mode, same.providesLast last, named⟩

/-- The order of an enumeration has no part in what is listed. -/
theorem list_eq {settings : WalkerSettings}
    (same : SameFiles here there settings.directory names names') (json : Bool) :
    (@list Id _ there settings json : Output) = @list Id _ here settings json := by
  have registry : @listed there settings.directory settings.extension names' =
      @listed here settings.directory settings.extension names :=
    Registry.ext_get? fun name => Option.ext fun p => ⟨same.symm.get?_listed, same.get?_listed⟩
  rw [@CommandLine.list_eq there settings names' same.enumerated' json, registry,
    ← @CommandLine.list_eq here settings names same.enumerated json]

end SameFiles

namespace CommandLine

open WalkDirectory

theorem execute_list [Files Id] {i : Invocation} {settings : Settings} (command : i.command = .list)
    (configured : (loadSettings i.config : Id (Except Report Settings)) = .ok settings) :
    (execute i : Id Progress) = .finished (list settings.walker i.json : Id Output) := by
  unfold execute
  simp only [configured, command, bind, pure]

/-- `list` shows the image of a directory in which the last file of a name wins.  The command
succeeds, and prints a row for each name that some file of the directory provides, each once and in
ascending order of bytes: the mode, the looping flag, the tick and the path are those of the last
file that provides a program of this name, in the order of the bytes of the files' names, which is
the order of their paths.  A file with another extension, one that is no regular file, one that
cannot be read and one that cannot be played provide nothing.  The order in which the directory is
enumerated has no part in it. -/
theorem list_lastOfName [here : Files Id] {settings : WalkerSettings} {names : List String}
    (enumerated : (Files.names settings.directory : Id (Except FileError (List String))) =
      .ok names) (json : Bool) :
    let out : Output := (list settings json : Id Output)
    out.failure = none ∧
    (∃ rows : List Row,
      List.Forall₂ (fun row line => row.Shows json line) rows out.lines ∧
      rows.Pairwise (fun a b => Text.bytes a.name < Text.bytes b.name) ∧
      (∀ name, (∃ row ∈ rows, row.name = name) ↔ ∃ file ∈ names, ∃ p mode,
        Provides settings.directory settings.extension file p mode ∧ p.name = name) ∧
      ∀ row, row ∈ rows ↔ ∃ file p mode,
        ProvidesLast settings.directory settings.extension names file p mode ∧
          row = .of p mode (Files.join settings.directory file)) ∧
    (∀ there names', SameFiles here there settings.directory names names' →
      (@list Id _ there settings json : Output) = out) ∧
    ∀ i all, i.command = .list → i.json = json → all.walker = settings →
      (loadSettings i.config : Id (Except Report Settings)) = .ok all →
        (execute i : Id Progress) = .finished out := by
  intro out
  have shown : out = _ := list_eq enumerated json
  obtain ⟨lines, rowNames, members⟩ := listing_eq settings.directory settings.extension names json
  refine ⟨by rw [shown], ⟨_, by rw [shown]; exact lines, ?_, fun name => ?_, members⟩,
    fun there names' same => same.list_eq json, ?_⟩
  · have ascending := (listed settings.directory settings.extension names).names_ascending
    rw [← rowNames, List.pairwise_map] at ascending
    exact ascending.imp (Text.lt_iff_bytes_lt _ _).1
  · rw [← exists_last_iff]
    constructor
    · rintro ⟨row, member, rfl⟩
      obtain ⟨file, p, mode, last, rfl⟩ := (members row).1 member
      exact ⟨p, file, mode, last, rfl⟩
    · rintro ⟨p, file, mode, last, rfl⟩
      exact ⟨_, (members _).2 ⟨file, p, mode, last, rfl⟩, rfl⟩
  · rintro i all command rfl rfl configured
    exact execute_list command configured

/-- Of two files of one name the later one is shown, although a file behind it cannot be played, one
cannot be read, one is no regular file and one has another extension. -/
theorem list_of_two_waves :
    let wave (tick : String) : String := String.ofList (['\n'].intercalate
      (["[info]", "Name=wave", "Use=prg", tick, "[end]"].map String.toList))
    let files : Files Id :=
      { readText path :=
          if path = "walkfiles/a.walk" ∨ path = "walkfiles/z.text" then .ok (wave "Tick=5")
          else if path = "walkfiles/b.walk" then .ok (wave "Tick=9")
          else if path = "walkfiles/c.walk" then .ok (String.ofList []) else .error .notText
        names _ := .ok ["z.text", "c.walk", "a.walk", "e.walk", "b.walk", "d.walk"]
        isFile path := path != "walkfiles/e.walk"
        isPresent _ := true }
    let out (json : Bool) : Output := @list Id _ files {} json
    (out false).lines = ["wave                     prg  tick=9     walkfiles/b.walk"] ∧
    (out true).lines =
      ["\x7b\"looping\":false,\"mode\":\"prg\",\"name\":\"wave\",\"path\":\"walkfiles/b.walk\"," ++
        "\"tick_ms\":9\x7d"] ∧
    ∀ json, (out json).failure = none ∧ ∃ rows : List Row,
      List.Forall₂ (fun row line => row.Shows json line) rows (out json).lines ∧
      ⟨"wave", .prg, false, 9, "walkfiles/b.walk"⟩ ∈ rows := by
  intro wave files out
  have named : ["z.text", "c.walk", "a.walk", "e.walk", "b.walk", "d.walk"].filter
      (fun name => Files.extension? name = some "walk") =
        ["c.walk", "a.walk", "e.walk", "b.walk", "d.walk"] := by
    decide +kernel
  have inOrder : sorted ["c.walk", "a.walk", "e.walk", "b.walk", "d.walk"] =
      ["a.walk", "b.walk", "c.walk", "d.walk", "e.walk"] := by
    simp [sorted, List.mergeSort]
  have printed (json : Bool) : out json = _ := list_eq rfl json
  refine ⟨?_, ?_, fun json => ?_⟩
  · rw [printed, listed, walkFiles, named, inOrder]
    decide +kernel
  · rw [printed, listed, walkFiles, named, inOrder]
    simp only [listing, if_true, listingJson_eq]
    decide +kernel
  obtain ⟨succeeds, ⟨rows, lines, -, -, members⟩, -⟩ :=
    @list_lastOfName files {} ["z.text", "c.walk", "a.walk", "e.walk", "b.walk", "d.walk"] rfl json
  refine ⟨succeeds, rows, lines, (members _).2 ⟨"b.walk", programAt "walkfiles/b.walk"
    (wave "Tick=9"), .prg, ⟨by decide, ⟨by decide +kernel, rfl, ⟨_, rfl, rfl⟩, by decide +kernel⟩,
      fun later member lt q mode provides => ?_⟩, by decide +kernel⟩⟩
  have silent : ∀ later ∈ ["z.text", "c.walk", "a.walk", "e.walk", "b.walk", "d.walk"],
      Text.bytes "b.walk" < Text.bytes later →
        Files.extension? later ≠ some "walk" ∨ later = "e.walk" ∨
          (playable? (Files.join "walkfiles" later)).isNone = true := by
    decide +kernel
  obtain ⟨extended, regular, playable⟩ := exists_provides_iff.1 ⟨mode, provides⟩
  rcases silent later member lt with other | rfl | unplayable
  · exact (other extended).elim
  · have irregular : ("walkfiles/e.walk" != "walkfiles/e.walk") = false := bne_self_eq_false _
    cases irregular.symm.trans regular
  · rw [playable] at unplayable
    cases unplayable

end CommandLine

end Gait
