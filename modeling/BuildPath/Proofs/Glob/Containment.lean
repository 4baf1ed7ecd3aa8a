import BuildPath.Proofs.Classpath.Listing
import BuildPath.Proofs.Glob.Literal
import BuildPath.Proofs.Path.Inside

/-!
# Files inside a base directory

A pattern is written after the base directory of a file set, and both are read as one pattern. If
the directory holds no wildcards, it is followed component by component, and the rest of the pattern
is expanded from there (`Glob.exists_expandFrom_verbatim`). What is found stays inside
(`Glob.within_expandFrom`), unless a component of the pattern leads upwards: a `..`, or wildcards
after a dot that match it.
-/

namespace BuildPath

/-- Everything in the tree has a name that a file can have in its directory. -/
structure FileTree.WellNamed (tree : FileTree) : Prop where
  home : ∀ name ∈ tree.home, Path.Plain name
  nodes : ∀ node ∈ tree.nodes, ∀ name ∈ node.1, Path.Plain name

namespace FileTree

variable {tree : FileTree} {names : List String} {node : FileNode}

instance (tree : FileTree) : Decidable tree.WellNamed :=
  decidable_of_iff ((∀ name ∈ tree.home, Path.Plain name) ∧
      ∀ node ∈ tree.nodes, ∀ name ∈ node.1, Path.Plain name)
    ⟨fun ⟨home, nodes⟩ => ⟨home, nodes⟩, fun named => ⟨named.home, named.nodes⟩⟩

/-- What is put at a place of plain names keeps a tree well named. -/
theorem WellNamed.place (named : tree.WellNamed) (plain : ∀ name ∈ names, Path.Plain name) :
    (tree.place names node).WellNamed := by
  unfold FileTree.place
  split
  · exact named
  · refine ⟨named.home, List.forall_mem_append.2 ⟨named.nodes, ?_⟩⟩
    rw [List.forall_mem_singleton]
    exact plain

/-- So do the directories that lead there. -/
theorem WellNamed.insert (named : tree.WellNamed) (plain : ∀ name ∈ names, Path.Plain name) :
    (tree.insert names node).WellNamed := by
  refine WellNamed.place ?_ plain
  refine List.foldlRecOn _ _ named fun built named above member => named.place ?_
  obtain ⟨count, -, rfl⟩ := List.mem_map.1 member
  exact fun name inside => plain name (List.mem_of_mem_take inside)

/-- The tree that holds the working directory is well named if that is. -/
theorem wellNamed_new {home : List String} (plain : ∀ name ∈ home, Path.Plain name) :
    (new home).WellNamed :=
  WellNamed.insert ⟨plain, nofun⟩ plain

/-- What is added under plain names keeps a tree well named. -/
theorem WellNamed.add (named : tree.WellNamed) (plain : ∀ name ∈ names, Path.Plain name) :
    (tree.add names node).WellNamed :=
  named.insert (List.forall_mem_append.2 ⟨named.home, plain⟩)

/-- What is below a path has plain names. -/
theorem WellNamed.below (named : tree.WellNamed) {path : Path}
    (member : (names, node) ∈ tree.below path) : ∀ name ∈ names, Path.Plain name := by
  unfold FileTree.below at member
  split at member
  · obtain ⟨stands, given, cut⟩ := List.mem_filterMap.1 member
    split at cut
    · cases cut
      exact fun name inside => named.nodes stands given name (List.mem_of_mem_drop inside)
    · contradiction
  · contradiction

end FileTree

namespace Glob

variable {tree : FileTree} {directory place : Path} {names : List String} {name : String}

/-- An entry is normalized as what stands below the directory. -/
theorem normalize_entry (place : Path) (name : String) :
    (entry place name).normalize = (place / Path.mk name).normalize := by
  unfold entry
  split
  next current =>
    have here : place.normalize = (Path.mk "").normalize := by
      rw [Path.normalize_congr current]
      rfl
    rw [Path.normalize_append_congr here rfl, Path.empty_append]
  · rfl

/-- An entry of a place inside a directory is inside unless it is a `..`. -/
theorem inside_entry (inside : place.normalize.Inside directory.normalize)
    (whole : '/' ∉ name.toList) (level : name ≠ "..") :
    (entry place name).normalize.Inside directory.normalize := by
  rw [normalize_entry]
  exact inside.append (Path.descends_of_piece whole level)

/-- What plain names lead to from inside a directory is inside. -/
theorem inside_foldl_entry (inside : place.normalize.Inside directory.normalize)
    (plain : ∀ name ∈ names, Path.Plain name) :
    (names.foldl entry place).normalize.Inside directory.normalize := by
  induction names generalizing place with
  | nil => exact inside
  | cons name names ih =>
    rw [List.forall_mem_cons] at plain
    exact ih (inside_entry inside plain.1.whole plain.1.notParent) plain.2

/-! ## Expansion step by step -/

/-- Everything that was found lies inside a directory. -/
def Reached.Within (reached : Reached) (directory : Path) : Prop :=
  ∀ found ∈ reached.found, found.path.normalize.Inside directory.normalize

/-- What one step leads to comes from something that was found. -/
theorem Reached.exists_of_mem_advance {reached : Reached} {step : Found → Reached} {found : Found}
    (member : found ∈ (reached.advance step).found) :
    ∃ place ∈ reached.found, found ∈ (step place).found := by
  obtain ⟨after, stepped, among⟩ := List.mem_flatMap.1
    ((Ordered.distinctFrom_sublist _ _).subset member)
  obtain ⟨place, given, rfl⟩ := List.mem_map.1 stepped
  exact ⟨place, given, among⟩

/-- A step that leads from inside a directory to nothing outside of it keeps what was found
inside. -/
theorem Reached.Within.advance {reached : Reached} {step : Found → Reached}
    (within : reached.Within directory)
    (stays : ∀ place : Found, place.path.normalize.Inside directory.normalize →
      (step place).Within directory) : (reached.advance step).Within directory := by
  intro found member
  obtain ⟨place, given, among⟩ := exists_of_mem_advance member
  exact stays place (within place given) found among

/-- A component of a pattern that does not lead upwards: it is no `..` and matches none. -/
structure Pattern.Level (pattern : Pattern) : Prop where
  whole : ∀ name, pattern.literal? = some name → '/' ∉ name.toList
  low : ".." ∉ specials pattern

/-- A special entry other than the directory above is the directory itself. -/
theorem eq_of_mem_specials {pattern : Pattern} (member : name ∈ specials pattern)
    (low : name ≠ "..") : name = "." := by
  unfold specials at member
  split at member
  · have either := List.mem_of_mem_filter member
    simpa [low] using either
  · contradiction

/-- A `..` alone matches itself. -/
theorem mem_specials_of_literal? {pattern : Pattern} (literal : pattern.literal? = some "..") :
    ".." ∈ specials pattern := by
  cases Pattern.literal?_eq_some_iff.1 literal
  decide

/-- A component without wildcards stands for the entry that it names. -/
theorem path_eq_of_mem_entries {pattern : Pattern} {place found : Found}
    (literal : pattern.literal? = some name) (member : found ∈ (entries tree pattern place).found) :
    found.path = entry place.path name := by
  simp only [entries, literal, List.mem_ite_nil_right, List.mem_singleton] at member
  rw [member.2]
  rfl

/-- The entries that such a component stands for are inside. -/
theorem within_entries (named : tree.WellNamed) {pattern : Pattern} (level : pattern.Level)
    (place : Found) (inside : place.path.normalize.Inside directory.normalize) :
    (entries tree pattern place).Within directory := by
  intro found member
  cases literal : pattern.literal? with
  | some name =>
    rw [path_eq_of_mem_entries literal member]
    refine inside_entry inside (level.whole name literal) ?_
    rintro rfl
    exact level.low (mem_specials_of_literal? literal)
  | none =>
    simp only [entries, literal] at member
    split at member
    · rcases List.mem_append.1 member with matching | special
      · obtain ⟨⟨names, node⟩, below, accepted⟩ := List.mem_filterMap.1 matching
        split at accepted
        next name node same =>
          cases same
          split at accepted
          · cases accepted
            exact inside_foldl_entry inside (named.below below)
          · contradiction
        · contradiction
      · -- Of the special entries only the directory itself is matched.
        obtain ⟨name, given, rfl⟩ := List.mem_map.1 special
        have own : name = "." := eq_of_mem_specials given fun climbs => level.low (climbs ▸ given)
        subst own
        exact inside.append (Path.descends_of_piece (by decide) (by decide))
    · contradiction

/-- What is below a place inside a directory is inside. -/
theorem within_descendants (named : tree.WellNamed) (accepts : String → Bool) (place : Found)
    (inside : place.path.normalize.Inside directory.normalize) :
    (descendants tree accepts place).Within directory := by
  unfold descendants
  split
  · intro found member
    obtain ⟨⟨names, node⟩, accepted, rfl⟩ := List.mem_map.1 member
    exact inside_foldl_entry inside (named.below (List.mem_filter.1 accepted).1)
  · exact nofun

/-- Directories among what is inside are inside. -/
theorem Reached.Within.directories {reached : Reached} (within : reached.Within directory) :
    reached.directories.Within directory :=
  fun found member => within found (List.mem_filter.1 member).1

/-- What components that do not lead upwards stand for stays inside. -/
theorem within_expandFrom (named : tree.WellNamed) {directoryOnly : Bool} {patterns : List Pattern}
    {reached : Reached} (level : ∀ pattern ∈ patterns, pattern.Level)
    (within : reached.Within directory) :
    (expandFrom tree directoryOnly patterns reached).Within directory := by
  fun_induction expandFrom tree directoryOnly patterns reached with
  | case1 reached only => exact within.directories
  | case2 reached any => exact within
  | case3 pattern rest reached plain ih =>
    rw [List.forall_mem_cons] at level
    exact ih level.2 (within.advance (within_entries named level.1))
  | case4 pattern reached recursive =>
    exact (within.advance (within_descendants named _)).directories
  | case5 pattern reached recursive next more again ih =>
    rw [List.forall_mem_cons] at level
    exact ih level.2 within
  | case6 pattern reached recursive next more plain ih =>
    rw [List.forall_mem_cons, List.forall_mem_cons] at level
    exact ih level.2.2 (within.advance (within_descendants named _))

/-- A component that stands for no directories is one step. -/
theorem expandFrom_cons {directoryOnly : Bool} {pattern : Pattern} {rest : List Pattern}
    {reached : Reached} (plain : pattern.isRecursive = false) :
    expandFrom tree directoryOnly (pattern :: rest) reached =
      expandFrom tree directoryOnly rest (reached.advance (entries tree pattern)) := by
  rw [expandFrom.eq_def]
  simp only [plain, Bool.not_false, if_true]

/-- Components without wildcards are followed one after the other. -/
theorem exists_expandFrom_verbatim (tree : FileTree) (directoryOnly : Bool) {names : List String}
    {rest : List Pattern} {reached : Reached} {start : Path}
    (here : ∀ found ∈ reached.found, found.path.normalize = start.normalize) :
    ∃ further, expandFrom tree directoryOnly (names.map Pattern.verbatim ++ rest) reached =
        expandFrom tree directoryOnly rest further ∧
      ∀ found ∈ further.found,
        found.path.normalize = (names.foldl (· / ·) start).normalize := by
  induction names generalizing reached start with
  | nil => exact ⟨reached, rfl, here⟩
  | cons name names ih =>
    have next : ∀ found ∈ (reached.advance (entries tree (.verbatim name))).found,
        found.path.normalize = (start / Path.mk name).normalize := by
      intro found member
      obtain ⟨place, given, among⟩ := Reached.exists_of_mem_advance member
      rw [path_eq_of_mem_entries (Pattern.literal?_eq_some_iff.2 rfl) among, normalize_entry]
      exact Path.normalize_append_congr (here place given) rfl
    obtain ⟨further, same, there⟩ := ih next
    refine ⟨further, ?_, there⟩
    rw [← same, List.map_cons, List.cons_append,
      expandFrom_cons (Pattern.isRecursive_verbatim name)]

/-! ## The components of a pattern in a directory -/

/-- The pieces between slashes, without an empty one at the end unless it is the only one. -/
def innerPieces (characters : List Char) : List (List Char) :=
  if characters.isEmpty then [[]]
  else
    let pieces := Text.split '/' characters
    if pieces.getLast? = some [] then pieces.dropLast else pieces

/-- The components of a pattern are the pieces after its root. -/
theorem componentTexts_eq (pattern : String) : componentTexts pattern =
    (innerPieces (if pattern.toList.head? = some '/' then pattern.toList.tail
      else pattern.toList)).map String.ofList := by
  rw [innerPieces, apply_ite (List.map String.ofList)]
  rfl

/-- Only pieces are kept. -/
theorem innerPieces_subset (characters : List Char) :
    innerPieces characters ⊆ Text.split '/' characters := by
  unfold innerPieces
  dsimp only
  split
  next empty =>
    rw [List.isEmpty_iff.1 empty]
    exact List.Subset.refl _
  · split
    · exact List.dropLast_subset _
    · exact List.Subset.refl _

/-- What stands before a slash is cut whole. -/
theorem exists_innerPieces_append (front rest : List Char) :
    ∃ below ⊆ Text.split '/' rest,
      innerPieces (front ++ '/' :: rest) = Text.split '/' front ++ below := by
  have pieces := Text.split_ne_nil '/' rest
  have filled : (front ++ '/' :: rest).isEmpty = false := by simp
  rw [innerPieces, filled, if_neg Bool.false_ne_true, Text.split_append_separator]
  dsimp only
  rw [List.getLast?_append_of_ne_nil _ pieces, List.dropLast_append_of_ne_nil pieces]
  split
  · exact ⟨_, List.dropLast_subset _, rfl⟩
  · exact ⟨_, List.Subset.refl _, rfl⟩

/-- The components of a pattern in a directory: first those of the directory, then those of the
pattern. -/
theorem exists_componentTexts {pattern : String}
    (relative : (Path.mk pattern).isAbsolute = false) :
    ∃ above below : List (List Char),
      componentTexts (directory / Path.mk pattern).text = (above ++ below).map String.ofList ∧
      above.filterMap Path.Component.ofPiece? = directory.below ∧
      above ⊆ Text.split '/' directory.text.toList ∧ below ⊆ Text.split '/' pattern.toList := by
  have rootless : pattern.toList.head? ≠ some '/' := beq_eq_false_iff_ne.1 relative
  rw [componentTexts_eq]
  rcases @Path.toList_append directory _ relative with ⟨empty, same⟩ | ⟨front, spelled, same⟩
  · refine ⟨[], innerPieces pattern.toList, ?_, ?_, nofun, innerPieces_subset _⟩
    · rw [same, if_neg rootless, List.nil_append]
    · rw [Path.below, empty]
      rfl
  · have cut : (Text.split '/' front).filterMap Path.Component.ofPiece? = directory.below ∧
        Text.split '/' front ⊆ Text.split '/' directory.text.toList := by
      rcases spelled with ⟨spelled, -⟩ | spelled
      · rw [Path.below, spelled]
        exact ⟨rfl, List.Subset.refl _⟩
      · rw [Path.below, spelled, Text.split_append_separator, List.filterMap_append]
        exact ⟨(List.append_nil _).symm, List.subset_append_left _ _⟩
    rw [same]
    cases front with
    | nil =>
      refine ⟨[], innerPieces pattern.toList, rfl, cut.1, nofun, innerPieces_subset _⟩
    | cons first front =>
      by_cases root : first = '/'
      · subst root
        obtain ⟨below, among, pieces⟩ := exists_innerPieces_append front pattern.toList
        refine ⟨Text.split '/' front, below, ?_, cut.1, ?_, among⟩
        · rw [← pieces]
          rfl
        · exact fun piece member => cut.2 (List.mem_cons_of_mem [] member)
      · obtain ⟨below, among, pieces⟩ := exists_innerPieces_append (first :: front) pattern.toList
        refine ⟨Text.split '/' (first :: front), below, ?_, cut.1, cut.2, among⟩
        rw [← pieces, if_neg (by simpa using root), List.cons_append]

/-- The components of a directory lead to it from where the expansion of a pattern starts. -/
theorem normalize_foldl_above {above : List (List Char)}
    (cut : above.filterMap Path.Component.ofPiece? = directory.below)
    (whole : ∀ piece ∈ above, '/' ∉ piece) :
    ((above.map String.ofList).foldl (· / ·)
      (if directory.isAbsolute then Path.mk "/" else Path.mk ".")).normalize =
        directory.normalize := by
  obtain ⟨absolute, leads⟩ := Path.trail_foldl_append whole
  rw [Path.normalize_eq_iff, absolute, leads, cut, Path.trail_eq_foldl_below directory]
  cases directory.isAbsolute <;> exact ⟨rfl, rfl⟩

/-- Whether a pattern has a component that leads upwards: a `..`, or one that matches it. -/
def climbs (pattern : String) : Bool :=
  (Text.split '/' pattern.toList).any fun piece =>
    match Pattern.parse (String.ofList piece) with
    | .ok component => (specials component).contains ".."
    | .error _ => false

/-- The components of a pattern that does not lead upwards are level. -/
theorem level_of_climbs {pattern : String} (low : climbs pattern = false) {piece : List Char}
    (cut : piece ∈ Text.split '/' pattern.toList) {component : Pattern}
    (read : Pattern.parse (String.ofList piece) = .ok component) : component.Level := by
  have here := List.any_eq_false.1 low piece cut
  rw [read] at here
  refine ⟨fun name literal => ?_, by simpa using here⟩
  rw [Pattern.eq_of_literal? read literal, String.toList_ofList]
  exact Text.separator_not_mem_of_mem_split cut

example : climbs "lib/.*" = true := by decide +kernel

/-- The components of a pattern in a directory without wildcards: first those of the directory as
they are written, then level ones. -/
theorem exists_components {pattern : String} {patterns : List Pattern}
    (literal : isWild directory.text = false)
    (relative : (Path.mk pattern).isAbsolute = false) (low : climbs pattern = false)
    (read : components (directory / Path.mk pattern).text = .ok patterns) :
    ∃ (above : List (List Char)) (rest : List Pattern),
      patterns = (above.map String.ofList).map Pattern.verbatim ++ rest ∧
      above.filterMap Path.Component.ofPiece? = directory.below ∧
      (∀ piece ∈ above, '/' ∉ piece) ∧ ∀ component ∈ rest, component.Level := by
  obtain ⟨above, below, texts, cut, among, others⟩ := @exists_componentTexts directory _ relative
  obtain ⟨_, -, each⟩ := Outcome.bind_eq_ok_iff.1 read
  have plain : ∀ text ∈ above.map String.ofList, isWild text = false := by
    rw [List.forall_mem_map]
    intro piece member
    rw [isWild, String.toList_ofList, List.any_eq_false]
    exact fun character inside =>
      List.any_eq_false.1 literal character (Text.subset_of_mem_split (among member) inside)
  rw [texts, List.map_append, List.mapM_append, Pattern.mapM_parse_of_literal plain] at each
  obtain ⟨_, ⟨⟩, each⟩ := Outcome.bind_eq_ok_iff.1 each
  obtain ⟨rest, found, done⟩ := Outcome.bind_eq_ok_iff.1 each
  cases done
  refine ⟨above, rest, rfl, cut, fun piece member =>
    Text.separator_not_mem_of_mem_split (among member), fun component member => ?_⟩
  obtain ⟨text, given, read⟩ := Outcome.exists_of_mem_mapM_eq_ok found component member
  obtain ⟨piece, cut, rfl⟩ := List.mem_map.1 given
  exact level_of_climbs low (others cut) read

/-- What a pattern finds is what its components lead to. -/
theorem exists_of_expand {pattern : String} {found : List Path}
    (expanded : expand tree pattern = .ok found) :
    ∃ patterns, components pattern = .ok patterns ∧
      found = (expandFrom tree (pattern.toList.getLast? == some '/') patterns
        ⟨[.lookup tree (if pattern.toList.head? = some '/' then ⟨"/"⟩ else ⟨"."⟩)], []⟩).found.map
          Found.path := by
  obtain ⟨patterns, read, expanded⟩ := Outcome.bind_eq_ok_iff.1 expanded
  refine ⟨patterns, Outcome.mapError_eq_ok_iff.1 read, ?_⟩
  dsimp only at expanded
  split at expanded
  · cases expanded
  · cases expanded
    rfl

/-- What a pattern that does not lead upwards finds in a directory without wildcards is inside. -/
theorem inside_of_expand (named : tree.WellNamed) {pattern : String} {found : List Path}
    (literal : isWild directory.text = false)
    (relative : (Path.mk pattern).isAbsolute = false) (low : climbs pattern = false)
    (expanded : expand tree (directory / Path.mk pattern).text = .ok found) :
    ∀ path ∈ found, path.normalize.Inside directory.normalize := by
  obtain ⟨patterns, read, rfl⟩ := exists_of_expand expanded
  obtain ⟨above, rest, rfl, cut, whole, level⟩ := exists_components literal relative low read
  have rooted : (directory / Path.mk pattern).text.toList.head? = some '/' ↔
      directory.isAbsolute = true := by
    have absolute : (directory / Path.mk pattern).isAbsolute = directory.isAbsolute := by
      simp [relative]
    rw [← absolute]
    exact beq_iff_eq.symm
  simp only [rooted]
  have here : ∀ found ∈ (Reached.mk
      [Found.lookup tree (if directory.isAbsolute then ⟨"/"⟩ else ⟨"."⟩)] []).found,
      found.path.normalize =
        (if directory.isAbsolute then Path.mk "/" else Path.mk ".").normalize :=
    List.forall_mem_singleton.2 rfl
  obtain ⟨further, same, leads⟩ := exists_expandFrom_verbatim tree
    ((directory / Path.mk pattern).text.toList.getLast? == some '/') here
  rw [same]
  have within : further.Within directory := by
    intro place given
    rw [leads place given, normalize_foldl_above cut whole]
    exact Path.inside_refl directory
  intro path member
  obtain ⟨place, reached, rfl⟩ := List.mem_map.1 member
  exact within_expandFrom named level within place reached

end Glob

namespace FileSet

variable {tree : FileTree} {files : FileSet} {root base : Path} {pattern : String}
  {paths : List Path}

/-- What a pattern of a file set finds lies inside the base directory, if that is spelled without
wildcards and the pattern neither starts at the root nor leads upwards. -/
theorem glob_inside_base (named : tree.WellNamed) (based : files.base = some base)
    (entry : .glob pattern ∈ files.entries) (relative : (Path.mk pattern).isAbsolute = false)
    (low : Glob.climbs pattern = false) (literal : Glob.isWild (root / base).text = false)
    (resolved : files.resolve tree root = .ok paths) :
    ∃ contributed, (FileEntry.glob pattern).resolve tree (root / base) = .ok contributed ∧
      ∀ path ∈ contributed, path ∈ paths ∧ path.Inside (root / base).normalize := by
  obtain ⟨contributed, resolves, part⟩ := exists_part_of_entry resolved entry
  have directory : files.directory root = root / base := by rw [FileSet.directory, based]
  rw [directory] at resolves
  refine ⟨contributed, resolves, fun path member => ⟨part path member, ?_⟩⟩
  obtain ⟨found, expanded, sorted⟩ := Outcome.bind_eq_ok_iff.1 resolves
  cases sorted
  obtain ⟨written, among, rfl⟩ := List.mem_map.1 (List.mem_mergeSort.1 member)
  exact Glob.inside_of_expand named literal relative low expanded written among

/-- Files below `lib]` and beside it. -/
def bracketed : FileTree :=
  ((FileTree.new ["work"]).add ["lib]", ".cache", "x", "a.jar"] (.file "")).add
    ["a.jar"] (.file "")

/-- Hidden directories at any depth of a base directory with a bracket in its name. -/
theorem glob_inside_base_hidden :
    ∃ paths contributed,
      FileSet.resolve ⟨some ⟨"./lib]//"⟩, [.glob ".c*/**/*.jar"]⟩ bracketed ⟨"."⟩ = .ok paths ∧
      paths.map Path.text = ["lib]/.cache/x/a.jar"] ∧
      (FileEntry.glob ".c*/**/*.jar").resolve bracketed (Path.mk "." / Path.mk "./lib]//") =
        .ok contributed ∧
      ∀ path ∈ contributed, path ∈ paths ∧
        path.Inside (Path.mk "." / Path.mk "./lib]//").normalize := by
  have found : List.map Path.text <$>
      FileSet.resolve ⟨some ⟨"./lib]//"⟩, [.glob ".c*/**/*.jar"]⟩ bracketed ⟨"."⟩ =
        .ok ["lib]/.cache/x/a.jar"] := by decide +kernel
  obtain ⟨paths, resolved, listed⟩ := Outcome.map_eq_ok_iff.1 found
  obtain ⟨contributed, resolves, inside⟩ := glob_inside_base (by decide +kernel) rfl
    (List.mem_singleton_self _) (by decide) (by decide +kernel) (by decide) resolved
  exact ⟨paths, contributed, resolved, listed, resolves, inside⟩

/-- Files in a directory whose name is read as a class of characters, and in one that the class
stands for. -/
def numbered : FileTree :=
  ((FileTree.new []).add ["lib[1]", "a.jar"] (.file "")).add ["lib1", "b.jar"] (.file "")

/-- A pattern finds the files of another directory than the base directory, and not those in it. -/
theorem glob_outside_base :
    numbered.WellNamed ∧ numbered.contains ⟨"lib[1]/a.jar"⟩ = true ∧
    Glob.climbs "*.jar" = false ∧
    List.map Path.text <$> FileSet.resolve ⟨some ⟨"lib[1]"⟩, [.glob "*.jar"]⟩ numbered ⟨"."⟩ =
      .ok ["lib1/b.jar"] ∧
    ¬ (Path.mk "lib1/b.jar").Inside (Path.mk "." / Path.mk "lib[1]").normalize := by
  refine ⟨?_, ?_, ?_, ?_, ?_⟩ <;> decide +kernel

end FileSet

end BuildPath
