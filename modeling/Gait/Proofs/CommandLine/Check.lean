import Gait.CommandLine
import Gait.Proofs.Json
import Gait.Proofs.Walker.Ticks
import Mathlib.Algebra.BigOperators.Fin
import Mathlib.Data.List.Forall2

/-!
# Verdicts and loading

`check` reads files without a walker.  `Verdict.Foretells` says what a verdict promises of loading
the file into some walker, and `foretells_ofReading` that it keeps the promise for every walker;
`Announces` says the same of the text that is printed, and `Tells` is about the text of a failure.
The main statement is about all files of a command: one verdict each, in order, and a failure that
counts those that cannot be loaded.  The file system may be any that stays as it is.
-/

namespace Gait

/-- Motion functions are counted servo by servo. -/
theorem Program.functionCount_eq_sum (p : Program) :
    p.functionCount = ∑ servo, (p.tracks.get servo).length := by
  have tracks : p.tracks.toList = List.ofFn p.tracks.get := by
    refine List.ext_getElem (by simp) fun i _ _ => ?_
    simp [Vector.get]
  rw [functionCount, tracks, List.length_flatten, List.map_ofFn, List.sum_ofFn]
  rfl

namespace CommandLine

namespace Verdict

variable {L : Type}

/-- What becomes of loading a file into a walker, by the verdict on it: the program that was read is
registered under its name, or the walker refuses it and reports the problem that the reason ends
with. -/
inductive Foretells (w : Walker L) : Verdict → Except Report (String × Walker L) → Prop
  | registers (reading : WalkFile.Reading) (mode : Mode)
    (valid : reading.program.mode = .ok mode) :
    Foretells w (.playable reading mode)
      (.ok (reading.program.name,
        { w with registry := w.registry.insert reading.program.name reading.program }))
  | refuses (circumstances : String) (report : Report) :
    Foretells w (.unplayable (circumstances ++ report.problem.message)) (.error report)

theorem Foretells.isPlayable_iff {w : Walker L} {v : Verdict}
    {loaded : Except Report (String × Walker L)} (foretells : v.Foretells w loaded) :
    v.isPlayable = loaded.isOk := by
  cases foretells <;> rfl

/-- A problem in one circumstance is told behind it. -/
theorem text_within (problem : Problem) (circumstance : String) :
    (Report.within ⟨problem, []⟩ circumstance).text = circumstance ++ ": " ++ problem.message := by
  rfl

theorem foretells_ofReading [Files Id] (w : Walker L) (file : String) :
    (ofReading (WalkFile.load file : Id _)).Foretells w (w.load file : Id _) := by
  unfold Walker.load
  simp only [bind, pure]
  cases loaded : (WalkFile.load file : Id _) with
  | error r =>
      dsimp only
      rw [WalkFile.load_eq_map] at loaded
      simp only [Functor.map] at loaded
      cases result : (Files.readText file : Id _) with
      | error e =>
          rw [result] at loaded
          cases loaded
          rw [ofReading, text_within]
          exact .refuses _ (Report.within ⟨.io e.message, []⟩ s!"reading walk file {file}")
      | ok text =>
          rw [result] at loaded
          cases loaded
  | ok reading =>
      dsimp only
      cases valid : reading.program.mode with
      | ok mode =>
          rw [Walker.register_of_valid w valid, ofReading, valid]
          exact .registers reading mode valid
      | error i =>
          rw [Walker.register_of_invalid w valid, ofReading, valid]
          have refuses : Foretells w (.unplayable ("" ++ i.problem.message)) _ :=
            .refuses "" (Report.within ⟨i.problem, []⟩ s!"walk file {file}")
          rwa [String.empty_append] at refuses

/-- What is printed for a verdict. -/
def text (file : String) (json : Bool) (v : Verdict) : List String :=
  if json then [v.json file] else v.lines file

end Verdict

/-- What is printed for a file, by what becomes of loading it: `ok` with the name, the mode and the
sizes of the program that was read and is registered, and the problems of the lines that were
dropped, or `FAIL` with a reason that ends with the problem.  Motion functions are counted over the
tracks of all servos.  An object is known by the fields that are read off it. -/
inductive Announces [Files Id] {L : Type} (w : Walker L) (file : String) :
    Bool → List String → Except Report (String × Walker L) → Prop
  | ok (reading : WalkFile.Reading) (p : Program) (mode : Mode) (word : String) (functions : Nat)
    (loaded : (WalkFile.load file : Id _) = .ok reading) (program : reading.program = p)
    (valid : p.mode = .ok mode) (means : Mode.ofText? word = some mode)
    (counted : functions = ∑ servo, (p.tracks.get servo).length) :
    Announces w file false
      ((s!"ok   {file}: '{p.name}' ({word}) init={p.setup.size} prg={p.main.size} " ++
        s!"functions={functions}") ::
        reading.skipped.toList.map fun s => "     skipped: " ++ s.problem.message)
      (.ok (p.name, { w with registry := w.registry.insert p.name p }))
  | okJson (reading : WalkFile.Reading) (p : Program) (mode : Mode) (word : String)
    (functions : Nat) (line : String)
    (loaded : (WalkFile.load file : Id _) = .ok reading) (program : reading.program = p)
    (valid : p.mode = .ok mode) (means : Mode.ofText? word = some mode)
    (counted : functions = ∑ servo, (p.tracks.get servo).length)
    (read : Json.fields? line =
      some [
        ("file", .text file), ("functions", .number functions),
        ("init_steps", .number p.setup.size), ("mode", .text word), ("name", .text p.name),
        ("ok", .flag true), ("prg_steps", .number p.main.size),
        ("skipped", .texts (reading.skipped.toList.map fun s => s.problem.message))]) :
    Announces w file true [line]
      (.ok (p.name, { w with registry := w.registry.insert p.name p }))
  | fail (reason circumstances : String) (report : Report)
    (told : reason = circumstances ++ report.problem.message) :
    Announces w file false [s!"FAIL {file}: {reason}"] (.error report)
  | failJson (reason circumstances line : String) (report : Report)
    (told : reason = circumstances ++ report.problem.message)
    (read : Json.fields? line =
      some [("error", .text reason), ("file", .text file), ("ok", .flag false)]) :
    Announces w file true [line] (.error report)

namespace Verdict

/-- What an object tells of a verdict, in the order of the keys. -/
def fields (file : String) : Verdict → List (String × Json.Value)
  | playable reading mode =>
    let p := reading.program
    [("file", .text file), ("functions", .number p.functionCount),
      ("init_steps", .number p.setup.size), ("mode", .text mode.text), ("name", .text p.name),
      ("ok", .flag true), ("prg_steps", .number p.main.size),
      ("skipped", .texts (skippedTexts reading))]
  | unplayable reason => [("error", .text reason), ("file", .text file), ("ok", .flag false)]

theorem json_eq (file : String) (v : Verdict) : v.json file = Json.inBraces (v.fields file) := by
  cases v <;> exact congrArg Json.inBraces (by simp [fields, List.mergeSort])

theorem fields?_json (file : String) (v : Verdict) :
    Json.fields? (v.json file) = some (v.fields file) := by
  rw [json_eq]
  exact Json.fields?_inBraces (by cases v <;> simp [fields])

theorem eq_ok_of_ofReading {result : Except Report WalkFile.Reading} {reading : WalkFile.Reading}
    {mode : Mode} (verdict : ofReading result = .playable reading mode) : result = .ok reading := by
  unfold ofReading at verdict
  split at verdict
  · cases verdict
  · split at verdict <;> cases verdict
    rfl

theorem announces [Files Id] {L : Type} (w : Walker L) (file : String) (json : Bool) :
    Announces w file json ((ofReading (WalkFile.load file : Id _)).text file json)
      (w.load file : Id _) := by
  have foretells := foretells_ofReading w file
  generalize verdict : ofReading (WalkFile.load file : Id _) = v at foretells ⊢
  generalize (w.load file : Id _) = result at foretells ⊢
  cases foretells with
  | registers reading mode valid =>
      have loaded := eq_ok_of_ofReading verdict
      have means := Mode.ofText?_text mode
      have counted := reading.program.functionCount_eq_sum
      cases json with
      | false =>
          rw [text, if_neg Bool.false_ne_true, lines, skippedTexts, List.map_map]
          exact .ok reading _ mode mode.text _ loaded rfl valid means counted
      | true =>
          exact .okJson reading _ mode mode.text _ _ loaded rfl valid means counted
            (fields?_json _ _)
  | refuses circumstances report =>
      cases json with
      | false => exact .fail _ circumstances report rfl
      | true => exact .failJson _ circumstances _ report rfl (fields?_json _ _)

end Verdict

theorem verdicts_eq [Files Id] (files : List String) :
    (verdicts files : Id _) =
      files.map fun file => (file, Verdict.ofReading (WalkFile.load file : Id _)) := by
  induction files with
  | nil => rfl
  | cons file files ih =>
      rw [List.map_cons, ← ih]
      rfl

/-- What a failure prints tells a reason among other words.  An object has it in its message, under
the kind of a failed validation. -/
inductive Tells (reason : String) : Bool → List String → Prop
  | plain (before behind : String) : Tells reason false [before ++ reason ++ behind]
  | object (line before behind : String)
    (read : Json.fields? line =
      some [("message", .text (before ++ reason ++ behind)), ("reason", .text "Validation")]) :
    Tells reason true [line]

theorem tells_validation {out : Output} {reason : String} {circumstances : List String}
    (fails : out.failure = some ⟨.validation reason, circumstances⟩) (json : Bool) :
    Tells reason json (out.errorLines json) := by
  obtain ⟨before, behind, told⟩ : ∃ before behind,
      (⟨.validation reason, circumstances⟩ : Report).explanation = before ++ reason ++ behind := by
    simp only [Report.explanation, Problem.explanation?, String.append_assoc]
    exact ⟨_, _, rfl⟩
  have inOrder (message kind : Json.Value) :
      Json.byKey [("reason", kind), ("message", message)] =
        [("message", message), ("reason", kind)] := by
    simp [Json.byKey, List.mergeSort]
  rw [Output.errorLines, fails]
  cases json with
  | false =>
      have plain : Tells reason false [before ++ reason ++ behind] := .plain before behind
      rwa [← told] at plain
  | true =>
      refine .object _ before behind ?_
      rw [← told, ← inOrder]
      exact Json.fields?_object (by simp)

/-- What `check` fails with, if not all verdicts are good. -/
theorem checkFailure?_eq (vs : List (String × Verdict)) :
    (checkFailure? vs = none ∧ ∀ v ∈ vs, v.2.isPlayable = true) ∨
      ∃ failed, 0 < failed ∧ failed = vs.countP (fun v => !v.2.isPlayable) ∧
        checkFailure? vs =
          some ⟨.validation s!"{failed} of {vs.length} walk files failed", ["check failed"]⟩ := by
  rcases Nat.eq_zero_or_pos (vs.countP fun v => !v.2.isPlayable) with clean | faulty
  · refine .inl ⟨if_pos clean, fun v member => ?_⟩
    simpa using List.countP_eq_zero.1 clean v member
  · exact .inr ⟨_, faulty, rfl, if_neg (Nat.ne_of_gt faulty)⟩

theorem execute_check [Files Id] {i : Invocation} {files : List String} {settings : Settings}
    (command : i.command = .check files)
    (configured : (loadSettings i.config : Id _) = .ok settings) :
    (execute i : Id Progress) = .finished (check i.json files : Id Output) := by
  unfold execute
  simp only [configured, command, bind, pure]

/-- `check` announces for each file, in order, what becomes of loading it into any walker.  It
succeeds if and only if all files can be loaded; otherwise it fails with code 4, and what it prints
for the failure tells how many of how many files cannot. -/
theorem check_agrees_with_loading [Files Id] (json : Bool) (files : List String) :
    let out : Output := (check json files : Id Output)
    ∃ texts : List (List String),
      out.lines = texts.flatten ∧
      (∀ {L : Type} (w : Walker L),
        List.Forall₂ (fun file text => Announces w file json text (w.load file : Id _))
          files texts ∧
        (out.exitCode = 0 ↔ ∀ file ∈ files, (w.load file : Id _).isOk) ∧
        (out.exitCode ≠ 0 →
          let failed := files.countP fun file => !(w.load file : Id _).isOk
          let reason := s!"{failed} of {files.length} walk files failed"
          out.exitCode = 4 ∧ out.failure = some ⟨.validation reason, ["check failed"]⟩ ∧
            Tells reason json (out.errorLines json))) ∧
      ∀ i settings, i.command = .check files → i.json = json →
        (loadSettings i.config : Id _) = .ok settings →
          (execute i : Id Progress) = .finished out := by
  intro out
  let verdict (file : String) : Verdict := .ofReading (WalkFile.load file : Id _)
  have whole : out =
      { lines := (files.map fun file => (file, verdict file)).flatMap fun v => v.2.text v.1 json
        failure := checkFailure? (files.map fun file => (file, verdict file)) } := by
    rw [← verdicts_eq]
    rfl
  refine ⟨files.map fun file => (verdict file).text file json, ?_, fun {L} w => ⟨?_, ?_⟩, ?_⟩
  · rw [whole, List.flatMap_map]
    rfl
  · refine List.forall₂_map_right_iff.2 (List.forall₂_same.2 fun file _ => ?_)
    exact Verdict.announces w file json
  · have foretold (file : String) : (verdict file).isPlayable = (w.load file : Id _).isOk :=
      (Verdict.foretells_ofReading w file).isPlayable_iff
    rcases checkFailure?_eq (files.map fun file => (file, verdict file)) with
      ⟨succeeds, playable⟩ | ⟨failed, faulty, count, fails⟩
    · have code : out.exitCode = 0 := by rw [whole, Output.exitCode, succeeds]; rfl
      refine ⟨iff_of_true code fun file member => ?_, fun fault => (fault code).elim⟩
      rw [← foretold]
      exact playable _ (List.mem_map_of_mem member)
    · have code : out.exitCode = 4 := by rw [whole, Output.exitCode, fails]; rfl
      have count' : files.countP (fun file => !(w.load file : Id _).isOk) = failed := by
        rw [count, List.countP_map]
        exact List.countP_congr fun file _ => by rw [Function.comp_apply, foretold]
      rw [code, count']
      have report : out.failure =
          some ⟨.validation s!"{failed} of {files.length} walk files failed", ["check failed"]⟩ := by
        rw [whole]
        simpa using fails
      refine ⟨iff_of_false (by decide) fun loads => ?_, fun _ => ⟨rfl, report, ?_⟩⟩
      · have clean : failed = 0 := by
          rw [← count', List.countP_eq_zero]
          intro file member
          simp [loads file member]
        omega
      · exact tells_validation report json
  · rintro i settings command rfl configured
    exact execute_check command configured

/-- A file that can be played although one of its lines is dropped, an empty one and one that is not
there. -/
theorem check_of_three_files :
    let text : List Char := ['\n'].intercalate
      (["[info]", "Name=wave", "Use=prg", "Speed=fast", "[end]", "[prg]", ">9:2", "[end]", "[m3]",
        "-", "Interval=0,1", "Function=t", "-", "Interval=1,2", "Function=9", "[end]"].map
        String.toList)
    let files : Files Id :=
      { readText path :=
          if path = "wave.walk" then .ok (String.ofList text)
          else if path = "empty.walk" then .ok (String.ofList []) else .error .missing
        names _ := .ok []
        isFile _ := true
        isPresent _ := false }
    let i (json : Bool) : Invocation :=
      { json, command := .check ["wave.walk", "empty.walk", "none.walk"] }
    let missing := "reading walk file none.walk: io error: No such file or directory (os error 2)"
    ∀ json, ∃ out, @execute Id _ files (i json) = .finished out ∧ out.exitCode = 4 ∧
      out.failure = some ⟨.validation "2 of 3 walk files failed", ["check failed"]⟩ ∧
      Tells "2 of 3 walk files failed" json (out.errorLines json) ∧
      out.lines =
        if json then
          ["\x7b\"file\":\"wave.walk\",\"functions\":2,\"init_steps\":0,\"mode\":\"prg\"," ++
              "\"name\":\"wave\",\"ok\":true,\"prg_steps\":1," ++
              "\"skipped\":[\"parse error on line 4: Speed is not an integer: fast\"]\x7d",
            "\x7b\"error\":\"validation failed: Use is not set\",\"file\":\"empty.walk\"," ++
              "\"ok\":false\x7d",
            "\x7b\"error\":\"" ++ missing ++ "\",\"file\":\"none.walk\",\"ok\":false\x7d"]
        else
          ["ok   wave.walk: 'wave' (prg) init=0 prg=1 functions=2",
            "     skipped: parse error on line 4: Speed is not an integer: fast",
            "FAIL empty.walk: validation failed: Use is not set",
            "FAIL none.walk: " ++ missing] := by
  intro text files i missing json
  obtain ⟨texts, -, agrees, executes⟩ :=
    check_agrees_with_loading json ["wave.walk", "empty.walk", "none.walk"]
  obtain ⟨-, success, failure⟩ := agrees (newWalker .replace)
  have failed : ["wave.walk", "empty.walk", "none.walk"].countP (fun file =>
      !(@Walker.load _ Id _ files (newWalker .replace) file).isOk) = 2 := by
    decide +kernel
  have refused : ¬∀ file ∈ ["wave.walk", "empty.walk", "none.walk"],
      (@Walker.load _ Id _ files (newWalker .replace) file).isOk := by
    intro loads
    have none : ["wave.walk", "empty.walk", "none.walk"].countP (fun file =>
        !(@Walker.load _ Id _ files (newWalker .replace) file).isOk) = 0 :=
      List.countP_eq_zero.2 fun file member => by simp [loads file member]
    cases none.symm.trans failed
  obtain ⟨code, report, told⟩ := failure (mt success.1 refused)
  rw [failed] at report told
  refine ⟨_, executes (i json) {} rfl rfl rfl, code, report, told, ?_⟩
  cases json with
  | false => decide +kernel
  | true =>
      simp only [check, Verdict.json_eq]
      decide +kernel

end CommandLine

end Gait
