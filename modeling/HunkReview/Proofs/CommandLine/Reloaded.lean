import HunkReview.CommandLine.Run
import HunkReview.Proofs.Toml.Documents

/-! Printed settings load as themselves. The printed text is a document of one line for each setting, without
one for the export directory when there is none, and a key that is missing stands for the standard value:
the standard export directory is none too. -/
namespace HunkReview

namespace Settings

/-! ### Settings as lines -/

def lines (s : Settings) : List Toml.Line :=
  { key := "context_lines", written := Toml.writes_lineNo s.contextLines } ::
    (s.exportDir.map fun dir => { key := "export_dir", written := Toml.writes_quote dir }).toList ++
    [{ key := "report_file", written := Toml.writes_quote s.reportFile },
      { key := "session_file", written := Toml.writes_quote s.sessionFile },
      { key := "watch", written := Toml.writes_boolean s.watch },
      { key := "show_help", written := Toml.writes_boolean s.showHelp }]

theorem toList_toToml (s : Settings) : s.toToml.toList = Toml.document s.lines := by
  obtain ⟨contextLines, exportDir, reportFile, sessionFile, watch, showHelp⟩ := s
  cases exportDir <;> simp [toToml, line, flag, Toml.document, lines, Toml.Line.chars]

theorem lines_different (s : Settings) : (s.lines.map Toml.Line.key).Nodup := by
  obtain ⟨contextLines, exportDir, reportFile, sessionFile, watch, showHelp⟩ := s
  cases exportDir <;> simp [lines]

/-- Every line gives its setting back, and no line stands for no directory. -/
theorem ofTable?_lines (s : Settings) : ofTable? (s.lines.map Toml.Line.entry) = some s := by
  obtain ⟨contextLines, exportDir, reportFile, sessionFile, watch, showHelp⟩ := s
  have number : LineNo.ofNat? contextLines.val = some contextLines :=
    LineNo.ofNat?_eq_some_iff.mpr rfl
  cases exportDir <;>
    simp [ofTable?, entry, lines, Toml.Line.entry, List.lookup_cons, lineNo?, text?,
      boolean?, number]

theorem load_of_parse? {s : Settings} {text : String}
    (read : Toml.parse? text = some (s.lines.map Toml.Line.entry)) (file : String) :
    load file (some (.ok text)) = .ok s := by
  simp [load, ofToml?, read, ofTable?_lines]

theorem load_toToml (s : Settings) (file : String) : load file (some (.ok s.toToml)) = .ok s := by
  refine load_of_parse? ?_ file
  rw [← String.ofList_toList (s := s.toToml), toList_toToml, Toml.parse?_document s.lines_different]

/-- The settings may have a comment before them. -/
theorem load_comment_toToml {comment : String} (plain : ∀ c ∈ comment.toList, Toml.isPlain c)
    (s : Settings) (file : String) :
    load file (some (.ok ("#" ++ comment ++ "\n" ++ s.toToml))) = .ok s := by
  have written : ("#" ++ comment ++ "\n" ++ s.toToml).toList =
      Toml.comment comment.toList ++ Toml.document s.lines := by
    simp [Toml.comment, toList_toToml]
  refine load_of_parse? ?_ file
  rw [← String.ofList_toList (s := "#" ++ comment ++ "\n" ++ s.toToml), written,
    Toml.parse?_comment_document plain s.lines_different]

end Settings

namespace CommandLine.Host

/-- Printed settings load as themselves, with the comment before them that names their file or without it.
The path of the file is taken to have no control characters, which no comment can hold. -/
theorem config_loads {m : Type → Type} [Monad m] (host : Host m) (s : Settings) :
    (host.config s false).run =
        pure (.ok (.printed ("# " ++ host.settingsPath ++ "\n" ++ s.toToml))) ∧
      (∀ file, Settings.load file (some (.ok s.toToml)) = .ok s) ∧
      ((∀ c ∈ host.settingsPath.toList, Toml.isPlain c) → ∀ file,
        Settings.load file (some (.ok ("# " ++ host.settingsPath ++ "\n" ++ s.toToml))) = .ok s) := by
  refine ⟨rfl, s.load_toToml, fun plain file => ?_⟩
  have text : "# " ++ host.settingsPath = "#" ++ (" " ++ host.settingsPath) := by
    rw [← String.append_assoc]
    rfl
  rw [text]
  refine Settings.load_comment_toToml (fun c member => ?_) s file
  rw [String.toList_append, List.mem_append] at member
  rcases member with blank | inPath
  · rw [List.mem_singleton.mp blank]
    rfl
  · exact plain c inPath

def bare : Host Id where
  run _ := .notStarted ""
  fileText _ := .error ""
  inputText := .error ""
  home := "/home/me"
  directory := "/"
  isTerminal := false
  exists? _ := false
  makeDirectories _ := .ok ()
  writeFile _ _ := .ok ()
  now := {}

/-- No export directory, and names that begin with a line feed, hold a carriage return, end with a quote
or have three quotes of each kind in them. -/
def quoted : Settings where
  contextLines := ⟨4294967295, by decide⟩
  reportFile := "\n\x22\x22\x22 or \x27\x27\x27 \x5c\t\r\n"
  sessionFile := "it\x27s \x22mine\x22"
  watch := false

theorem config_loads_quoted :
    (∀ c ∈ bare.settingsPath.toList, Toml.isPlain c) ∧
      "# " ++ bare.settingsPath ++ "\n" ++ quoted.toToml =
        "# /home/me/.revdiff/config.toml\ncontext_lines = 4294967295\n" ++
          "report_file = \x22\x22\x22\n\n\x22\x22\x5c\x22 or \x27\x27\x27 \x5c\x5c\x5ct\x5cr\n" ++
          "\x22\x22\x22\nsession_file = \x22\x22\x22it\x27s \x22mine\x22\x22\x22\x22\n" ++
          "watch = false\nshow_help = true\n" ∧
      Settings.load "config.toml" (some (.ok ("# " ++ bare.settingsPath ++ "\n" ++ quoted.toToml))) =
        .ok quoted := by
  have plain : ∀ c ∈ bare.settingsPath.toList, Toml.isPlain c :=
    List.all_eq_true.mp (by decide +kernel)
  exact ⟨plain, by decide +kernel, (config_loads bare quoted).2.2 plain "config.toml"⟩

end CommandLine.Host

end HunkReview
