import HunkReview.Settings
import HunkReview.Source.Watch

/-! Exports and the watcher. The components of a path below a directory are those of the directory and
then its own names, however the slashes and dots stand; so what is exported lies in the directory whose
changes are passed over. -/
namespace HunkReview

namespace Path

theorem splitSlash_ne_nil (cs : List Char) : splitSlash cs ≠ [] := by
  cases cs with
  | nil => simp [splitSlash]
  | cons c cs =>
    rw [splitSlash]
    split
    · simp
    · split <;> simp

theorem splitSlash_append_slash (cs ds : List Char) :
    splitSlash (cs ++ '/' :: ds) = splitSlash cs ++ splitSlash ds := by
  induction cs with
  | nil => rfl
  | cons c cs ih =>
    rw [List.cons_append, splitSlash, splitSlash, ih]
    split
    · rfl
    · cases parts : splitSlash cs with
      | nil => exact absurd parts (splitSlash_ne_nil cs)
      | cons p ps => rfl

theorem splitSlash_eq_empty {cs : List Char} (single : splitSlash cs = [[]]) : cs = [] := by
  cases cs with
  | nil => rfl
  | cons c cs =>
    rw [splitSlash] at single
    split at single
    · exact absurd (List.cons.inj single).2 (splitSlash_ne_nil cs)
    · split at single <;> cases single

theorem names_append (parts more : List (List Char)) :
    names (parts ++ more) = names parts ++ names more := by
  simp [names]

/-- A path that begins with a name has no other components than its names. -/
theorem components_of_named {path : String} {name : List Char} {parts : List (List Char)}
    (split : splitSlash path.toList = name :: parts) (named : isNamed name) :
    components path = names (name :: parts) := by
  rw [components, split]
  split
  · next root => cases root; cases named
  · next dot => cases dot; cases named
  · rfl

/-- A root is a component of its own. -/
theorem components_root {path : String} {rest : List Char} (spelt : path.toList = '/' :: rest) :
    components path = "/" :: names (splitSlash rest) := by
  have split : splitSlash path.toList = [] :: splitSlash rest := by rw [spelt]; rfl
  rw [components, split]
  cases below : splitSlash rest with
  | nil => exact absurd below (splitSlash_ne_nil rest)
  | cons part parts => rfl

/-- What follows a slash adds its names. -/
theorem components_below {dir path : String} {rest : List Char} (given : dir.toList ≠ [])
    (spelt : path.toList = dir.toList ++ '/' :: rest) :
    components path = components dir ++ names (splitSlash rest) := by
  obtain ⟨name, parts, split⟩ := List.exists_cons_of_ne_nil (splitSlash_ne_nil dir.toList)
  have below : splitSlash path.toList = name :: (parts ++ splitSlash rest) := by
    rw [spelt, splitSlash_append_slash, split]
    rfl
  by_cases named : isNamed name
  · rw [components_of_named below named, components_of_named split named, ← names_append]
    rfl
  have unnamed : name = [] ∨ name = ['.'] := by simpa [isNamed, Decidable.or_iff_not_imp_left] using named
  rcases unnamed with rfl | rfl
  · -- the directory begins with a slash, so something stands behind that slash
    cases parts with
    | nil => exact absurd (splitSlash_eq_empty split) given
    | cons part parts =>
      rw [components, components, below, split]
      exact congrArg ("/" :: ·) (names_append (part :: parts) _)
  · rw [components, components, below, split]
    exact congrArg ("." :: ·) (names_append parts _)

/-- A relative path adds its names to the directory that it is joined to. -/
theorem components_join {base path : String} (given : base ≠ "")
    (relative : isAbsolute path = false) :
    components (join base path) = components base ++ names (splitSlash path.toList) := by
  have filled : base.toList ≠ [] := by simpa using given
  rw [join, if_neg (by simp [relative])]
  split
  · next slash =>
    have ends : base.toList.getLast? = some '/' := by simpa [given] using slash
    obtain ⟨dir, spelt⟩ := List.getLast?_eq_some_iff.mp ends
    by_cases root : dir = []
    · subst root
      have whole : (base ++ path).toList = '/' :: path.toList := by simp [spelt]
      rw [components_root whole, components_root spelt]
      rfl
    · -- base and path both lie below what stands before the slash
      have below (more : List Char) : components (String.ofList (dir ++ '/' :: more)) =
          components (String.ofList dir) ++ names (splitSlash more) :=
        components_below (by simpa using root) (by simp)
      have whole : base ++ path = String.ofList (dir ++ '/' :: path.toList) := by
        apply String.toList_inj.mp
        simp [spelt]
      have alone : base = String.ofList (dir ++ '/' :: []) := by
        apply String.toList_inj.mp
        simp [spelt]
      rw [whole, alone, below, below]
      simp [splitSlash, names, isNamed]
  · exact components_below filled (by simp)

theorem startsWith_join {base path : String} (relative : isAbsolute path = false) :
    startsWith (join base path) base := by
  rw [startsWith, List.isPrefixOf_iff_prefix]
  by_cases empty : base = ""
  · subst empty
    exact List.nil_prefix
  · rw [components_join empty relative]
    exact List.prefix_append _ _

end Path

/-- What is below the export directory is passed over. -/
theorem Watch.ignores_below {path exportDir : String} (below : Path.startsWith path exportDir)
    (repository : String) : ignores path repository exportDir :=
  if_pos below

/-- Neither of the exported documents is a change to the watcher. -/
theorem Settings.exports_ignored (s : Settings) (repository : String)
    (report : Path.isAbsolute s.reportFile = false)
    (document : Path.isAbsolute s.sessionFile = false) :
    Watch.ignores (s.exportPaths repository).1 repository (s.exportDirFor repository) ∧
      Watch.ignores (s.exportPaths repository).2 repository (s.exportDirFor repository) :=
  ⟨Watch.ignores_below (Path.startsWith_join report) repository,
    Watch.ignores_below (Path.startsWith_join document) repository⟩

def Settings.roundabout : Settings where
  exportDir := some "./out//./reviews/"
  reportFile := "./today/../report.md"
  sessionFile := ".//session.json"

theorem Settings.exports_ignored_roundabout :
    Path.isAbsolute roundabout.reportFile = false ∧
      Path.isAbsolute roundabout.sessionFile = false ∧
      roundabout.exportPaths "/repo/" =
        ("/repo/./out//./reviews/./today/../report.md",
          "/repo/./out//./reviews/.//session.json") ∧
      Watch.ignores (roundabout.exportPaths "/repo/").1 "/repo/"
        (roundabout.exportDirFor "/repo/") ∧
      Watch.ignores (roundabout.exportPaths "/repo/").2 "/repo/"
        (roundabout.exportDirFor "/repo/") :=
  have report : Path.isAbsolute roundabout.reportFile = false := by decide
  have document : Path.isAbsolute roundabout.sessionFile = false := by decide
  have paths : roundabout.exportPaths "/repo/" =
      ("/repo/./out//./reviews/./today/../report.md",
        "/repo/./out//./reviews/.//session.json") := by decide
  ⟨report, document, paths, roundabout.exports_ignored "/repo/" report document⟩

end HunkReview
