import ScopeFront.Run

/-!
# Checking files in a batch

A check goes over its files one by one.  Whatever becomes of one of them, it has its line in the
output, and the next one is judged as if it stood alone: the whole is put together from the checks
of single files, and a file passes exactly when showing its program would succeed.

* `IsProgramFile` – a path that can be read as text, and the text is a program;
* `Verdict.accepted_iff`, `Verdict.line_ofFile` – the verdict on one file;
* `failed_eq_countP` – the number of files that fail;
* `runCheck_eq` – a check of any number of files, from those of one file each;
* `parse_code_iff` – when showing a program succeeds;
* `check_is_filewise` – all of it, for the whole program.
-/

set_option autoImplicit false

namespace ScopeFront

/-- The path can be read as text, and the text is a program under the settings. -/
def IsProgramFile (files : Files) (settings : Settings) (path : String) : Prop :=
  ∃ text, files path = .ok text ∧ ∃ forest, (parseSource settings text).2 = .ok forest

section Batch

variable (files : Files) (settings : Settings)

/-! ## One file -/

theorem Verdict.path_ofFile (path : String) : (ofFile files settings path).path = path := by
  unfold ofFile
  split
  · rfl
  · split
    · rfl
    · rfl

/-- A file is accepted exactly when it can be read and its text is a program. -/
theorem Verdict.accepted_iff (path : String) :
    (ofFile files settings path).accepted = true ↔ IsProgramFile files settings path := by
  unfold ofFile Source.ofFile IsProgramFile
  cases files path with
  | error failure => simp
  | ok text =>
      rcases hparse : parseSource settings text with ⟨log, e | forest⟩
      · simp [hparse]
      · simp [hparse]

instance (path : String) : Decidable (IsProgramFile files settings path) :=
  decidable_of_iff _ (Verdict.accepted_iff files settings path)

theorem Verdict.accepted_eq (path : String) :
    (ofFile files settings path).accepted = decide (IsProgramFile files settings path) := by
  rw [Bool.eq_iff_iff, accepted_iff, decide_eq_true_iff]

/-- The line of a file says whether it is a program. -/
theorem Verdict.line_ofFile (path : String) :
    (ofFile files settings path).line =
      path ++ if IsProgramFile files settings path then ": ok\n" else ": error\n" := by
  simp only [line, path_ofFile, accepted_eq, decide_eq_true_eq]

/-! ## All files -/

/-- The files that are counted as failed are those that are no programs. -/
theorem failed_eq_countP (paths : List String) :
    ((paths.map (Verdict.ofFile files settings)).filter (!·.accepted)).length =
      paths.countP fun path => ¬ IsProgramFile files settings path := by
  rw [← List.countP_eq_length_filter, List.countP_map]
  refine List.countP_congr fun path _ => ?_
  simp [Verdict.accepted_eq]

/-- What is written about one file alone. -/
theorem runCheck_single_stderr (path : String) :
    (runCheck files settings [path]).stderr = (Verdict.ofFile files settings path).stderr := by
  simp [runCheck]

/-- **A check is put together from checks of single files.** -/
theorem runCheck_eq (paths : List String) :
    runCheck files settings paths =
      { code :=
          if (paths.countP fun path => ¬ IsProgramFile files settings path) = 0 then 0 else 1
        stdout :=
          String.join (paths.map fun path =>
            path ++ if IsProgramFile files settings path then ": ok\n" else ": error\n") ++
          (toString paths.length ++ " checked, " ++
            toString (paths.countP fun path => ¬ IsProgramFile files settings path) ++
              " failed\n")
        stderr := String.join (paths.map fun path =>
          (runCheck files settings [path]).stderr) } := by
  simp only [runCheck_single_stderr]
  unfold runCheck
  simp only [failed_eq_countP, List.map_map, Function.comp_def, Verdict.line_ofFile]
  rfl

/-- Showing the program of a file succeeds exactly when the file can be read and its text is a
program. -/
theorem parse_code_iff (path : String) (format : Format) :
    ((Command.parse (.file path) format).run files settings).code = 0 ↔
      IsProgramFile files settings path := by
  show (withInput files (.file path) (runParse settings format)).code = 0 ↔ _
  unfold withInput Input.load Source.ofFile IsProgramFile
  cases hread : files path with
  | error failure => simp [hread, Result.refused]
  | ok text =>
      unfold runParse
      rcases hparse : parseSource settings text with ⟨log, e | forest⟩
      · simp [hread, hparse]
      · simp [hread, hparse]

end Batch

/-- An invocation whose options make up settings runs its command with them. -/
theorem Invocation.run_of_settings {files : Files} {options : CommonOptions}
    {settings : Settings} (h : options.settings files = .ok settings) (command : Command) :
    Invocation.run files ⟨options, command⟩ = command.run files settings := by
  unfold Invocation.run
  simp only [h]

/-- **A check judges every file by itself.**  For all files, all options that make up settings and
all lists of paths, repeats included: each path has its line, in order, which says whether the path
can be read and its text is a program; the last line counts the paths and those that fail, and the
exit code is zero when none does and else one.  What is written about the files is what would be
written about each alone, one behind the other.  And a path passes exactly when showing its program
with the same options, in whatever format, exits with zero. -/
theorem check_is_filewise {files : Files} {options : CommonOptions} {settings : Settings}
    (h : options.settings files = .ok settings) (paths : List String) :
    let run (command : Command) : Result := Invocation.run files ⟨options, command⟩
    let failed := paths.countP fun path => ¬ IsProgramFile files settings path
    (run (.check paths)).stdout =
        String.join (paths.map fun path =>
          path ++ if IsProgramFile files settings path then ": ok\n" else ": error\n") ++
        (toString paths.length ++ " checked, " ++ toString failed ++ " failed\n") ∧
      (run (.check paths)).code = (if failed = 0 then 0 else 1) ∧
      (run (.check paths)).stderr =
        String.join (paths.map fun path => (run (.check [path])).stderr) ∧
      ∀ path ∈ paths, ∀ format,
        IsProgramFile files settings path ↔ (run (.parse (.file path) format)).code = 0 := by
  intro run failed
  have hrun : ∀ command, run command = command.run files settings :=
    Invocation.run_of_settings h
  have hcheck : ∀ paths, run (.check paths) = runCheck files settings paths :=
    fun paths => hrun (.check paths)
  have heq := runCheck_eq files settings paths
  simp only [hcheck]
  refine ⟨congrArg Result.stdout heq, congrArg Result.code heq, congrArg Result.stderr heq, ?_⟩
  intro path _ format
  rw [hrun]
  exact (parse_code_iff files settings path format).symm

/-- A program, a path that leads nowhere, bytes that are no text, a body that is not closed, and the
program once more. -/
theorem check_is_filewise_mixed :
    let files : Files := (FileTree.ofList [("good", .file "f \x7b \x7d".toUTF8),
      ("raw", .file ⟨#[0xff]⟩), ("open", .file "f \x7b".toUTF8)]).read
    let run (command : Command) : Result := Invocation.run files ⟨{}, command⟩
    let paths := ["good", "lost", "raw", "open", "good"]
    CommonOptions.settings files {} = .ok .default ∧
      (run (.check paths)).stdout =
        "good: ok\nlost: error\nraw: error\nopen: error\ngood: ok\n5 checked, 3 failed\n" ∧
      (run (.check paths)).code = 1 ∧
      (run (.check paths)).stderr =
        String.join (paths.map fun path => (run (.check [path])).stderr) ∧
      (run (.parse (.file "good") .json)).code = 0 := by
  intro files run paths
  have hsettings : CommonOptions.settings files {} = .ok .default := rfl
  obtain ⟨hstdout, hcode, hstderr, hparse⟩ := check_is_filewise hsettings paths
  have hgood : IsProgramFile files .default "good" := by decide +kernel
  have hlost : ¬ IsProgramFile files .default "lost" := by decide +kernel
  have hraw : ¬ IsProgramFile files .default "raw" := by decide +kernel
  have hopen : ¬ IsProgramFile files .default "open" := by decide +kernel
  have hfailed : (paths.countP fun path => ¬ IsProgramFile files .default path) = 3 := by
    simp [paths, hgood, hlost, hraw, hopen]
  refine ⟨hsettings, ?_, ?_, hstderr, (hparse "good" (by decide) .json).1 hgood⟩
  · rw [hstdout, hfailed]
    simp only [paths, List.map_cons, List.map_nil, hgood, hlost, hraw, hopen, if_true, if_false]
    decide +kernel
  · rw [hcode, hfailed]
    rfl

end ScopeFront
