import Dimensional.Proofs.CommandLine.Arguments

/-! Runs over several files. Each file is processed as if it were the only one. -/

namespace Dimensional.CommandLine

/-- A run that finds files as they are at once. -/
def runOn (read : String → Except ReadError ByteArray) (arguments : List String) : Outcome :=
  Id.run (run (m := Id) (fun path => pure (read path)) arguments)

/-- The scope of a run. -/
def loadScope (read : String → Except ReadError ByteArray) : Option String → Except String Scope
  | none => .ok .si
  | some path => scopeOf path (read path)

namespace Options

def grammar (options : Options) : Grammar := if options.numeric then .numeric else .quantity

/-- The same options for one file. -/
def only (options : Options) (file : String) : Options := { options with files := [file] }

/-- The arguments of a run over one file that has the same options otherwise. -/
def alone (options : Options) (file : String) : List String := (options.only file).arguments

end Options

/-- The expressions of a file that can be read and compiled. -/
def compiled? (scope : Scope) (grammar : Grammar) (content : Except ReadError ByteArray) :
    Option (List Expression) :=
  (decode content).toOption.bind fun source =>
    (Parser.readAll (.standard scope.vocabulary) grammar source).toOption

variable {read other : String → Except ReadError ByteArray} {arguments : List String}
  {options : Options} {scope : Scope} {file : String}

/-- Only the options count, and one compiler serves all files. -/
theorem runOn_eq (asked : Options.ofArguments arguments = .ok options)
    (loads : loadScope read options.scope? = .ok scope) :
    runOn read arguments = summarize (options.files.map fun path =>
      process (.ofScope scope) options path (read path)) := by
  unfold runOn run
  rw [asked]
  unfold processAll
  cases named : options.scope? with
  | none =>
    rw [named] at loads
    cases loads
    simp [named]
  | some path =>
    rw [named] at loads
    have loads : scopeOf path (read path) = .ok scope := loads
    simp [named, loads]

section Summary

variable {results : List (Except String String)} {output error : String}

theorem summarize_ok_cons : summarize (.ok output :: results) =
    { summarize results with stdout := output ++ (summarize results).stdout } := by
  have outputs : (Except.ok output :: results).filterMap Except.toOption =
      output :: results.filterMap Except.toOption := rfl
  simp [summarize, outputs]

theorem summarize_error_cons : summarize (.error error :: results) =
    ⟨1, (summarize results).stdout, error :: (summarize results).errors⟩ := by
  have outputs : (Except.error error :: results).filterMap Except.toOption =
      results.filterMap Except.toOption := rfl
  simp [summarize, outputs]

theorem summarize_nil : summarize [] = ⟨0, "", []⟩ := rfl

theorem stdout_summarize : (summarize results).stdout =
    String.join (results.map fun result => (summarize [result]).stdout) := by
  induction results with
  | nil => rfl
  | cons result results ih =>
    cases result <;> simp [summarize_ok_cons, summarize_error_cons, summarize_nil, ih]

theorem errors_summarize : (summarize results).errors =
    results.flatMap fun result => (summarize [result]).errors := by
  induction results with
  | nil => rfl
  | cons result results ih =>
    cases result <;> simp [summarize_ok_cons, summarize_error_cons, summarize_nil, ih]

theorem stderr_summarize : (summarize results).stderr =
    String.join (results.map fun result => (summarize [result]).stderr) := by
  unfold Outcome.stderr
  induction results with
  | nil => rfl
  | cons result results ih =>
    cases result <;> simp [summarize_ok_cons, summarize_error_cons, summarize_nil, ih]

theorem exitCode_summarize : (summarize results).exitCode = 0 ↔
    ∀ result ∈ results, (summarize [result]).exitCode = 0 := by
  induction results with
  | nil => simp [summarize_nil]
  | cons result results ih =>
    cases result <;> simp [summarize_ok_cons, summarize_error_cons, summarize_nil, ih]

end Summary

section File

theorem process_of_decode {content : Except ReadError ByteArray} {source : String}
    (decoded : decode content = .ok source) :
    process (.ofScope scope) options file content =
      match Parser.readAll (.standard scope.vocabulary) options.grammar source with
      | .error error =>
        .error ("Failed to compile " ++ file ++ ": " ++ ": ".intercalate (causes error))
      | .ok expressions => .ok ((options.report?.getD .summary).render file expressions) := by
  rw [process, decoded]
  rfl

/-- A file is reported on as a whole or not at all. -/
theorem process_cases (scope : Scope) (options : Options) (file : String)
    (content : Except ReadError ByteArray) :
    (∃ expressions, compiled? scope options.grammar content = some expressions ∧
      process (.ofScope scope) options file content =
        .ok ((options.report?.getD .summary).render file expressions)) ∨
    (compiled? scope options.grammar content = none ∧
      ∃ error, process (.ofScope scope) options file content = .error error) := by
  cases decoded : decode content with
  | error reason =>
    right
    exact ⟨by rw [compiled?, decoded]; rfl, _, by rw [process, decoded]⟩
  | ok source =>
    rw [process_of_decode decoded, compiled?, decoded]
    cases compiled : Parser.readAll (.standard scope.vocabulary) options.grammar source with
    | error error =>
      right
      exact ⟨by rw [Except.toOption, Option.bind_some, compiled]; rfl, _, rfl⟩
    | ok expressions =>
      left
      exact ⟨expressions, by rw [Except.toOption, Option.bind_some, compiled]; rfl, rfl⟩

/-- A scope depends on no file but its own. -/
theorem loadScope_congr {scope? : Option String}
    (alike : ∀ path ∈ scope?, other path = read path) :
    loadScope other scope? = loadScope read scope? := by
  cases scope? with
  | none => rfl
  | some path => rw [loadScope, loadScope, alike path rfl]

theorem only_stands (asked : Options.ofArguments arguments = .ok options)
    (member : file ∈ options.files) :
    Options.ofArguments (options.alone file) = .ok (options.only file) := by
  obtain ⟨named, _⟩ := Options.areNamed_of_ofArguments asked
  refine Options.ofArguments_arguments ⟨?_, named.scope⟩ (List.cons_ne_nil file [])
  intro path single
  obtain rfl := List.mem_singleton.mp single
  exact named.files path member

theorem runOn_alone (asked : Options.ofArguments arguments = .ok options)
    (loads : loadScope read options.scope? = .ok scope) (member : file ∈ options.files) :
    runOn read (options.alone file) =
      summarize [process (.ofScope scope) options file (read file)] :=
  runOn_eq (only_stands asked member) loads

end File

/-- A run over several files leaves what the runs over each of them leave together. A file that
cannot be read or compiled adds nothing but an error, any other one the whole report on it, and no
run over a file depends on what other files hold. -/
theorem runOn_exact (asked : Options.ofArguments arguments = .ok options)
    (loads : loadScope read options.scope? = .ok scope) :
    (∀ file ∈ options.files,
      Options.ofArguments (options.alone file) = .ok (options.only file)) ∧
    (runOn read arguments).stdout =
      String.join (options.files.map fun file => (runOn read (options.alone file)).stdout) ∧
    (runOn read arguments).errors =
      options.files.flatMap (fun file => (runOn read (options.alone file)).errors) ∧
    (runOn read arguments).stderr =
      String.join (options.files.map fun file => (runOn read (options.alone file)).stderr) ∧
    ((runOn read arguments).exitCode = 0 ↔
      ∀ file ∈ options.files, (runOn read (options.alone file)).exitCode = 0) ∧
    ∀ file ∈ options.files,
      (∀ expressions, compiled? scope options.grammar (read file) = some expressions →
        runOn read (options.alone file) =
          ⟨0, (options.report?.getD .summary).render file expressions, []⟩) ∧
      (compiled? scope options.grammar (read file) = none →
        ∃ error, runOn read (options.alone file) = ⟨1, "", [error]⟩) ∧
      ∀ other : String → Except ReadError ByteArray, other file = read file →
        (∀ path ∈ options.scope?, other path = read path) →
        runOn other (options.alone file) = runOn read (options.alone file) := by
  have whole := runOn_eq asked loads
  have each (file : String) (member : file ∈ options.files) := runOn_alone asked loads member
  refine ⟨fun file member => only_stands asked member, ?_, ?_, ?_, ?_, ?_⟩
  · rw [whole, stdout_summarize, List.map_map]
    exact congrArg String.join (List.map_congr_left fun file member => by rw [each file member]; rfl)
  · rw [whole, errors_summarize, List.flatMap_map, List.flatMap_def, List.flatMap_def]
    exact congrArg List.flatten (List.map_congr_left fun file member => by rw [each file member])
  · rw [whole, stderr_summarize, List.map_map]
    exact congrArg String.join (List.map_congr_left fun file member => by rw [each file member]; rfl)
  · rw [whole, exitCode_summarize, List.forall_mem_map]
    exact forall₂_congr fun file member => by rw [each file member]
  · intro file member
    refine ⟨?_, ?_, ?_⟩
    · intro expressions compiled
      rcases process_cases scope options file (read file) with ⟨found, same, done⟩ | ⟨none, _⟩
      · obtain rfl := Option.some.inj (compiled.symm.trans same)
        rw [each file member, done]
        simp [summarize_ok_cons, summarize_nil]
      · rw [none] at compiled
        cases compiled
    · intro fails
      rcases process_cases scope options file (read file) with ⟨_, same, _⟩ | ⟨_, error, failed⟩
      · rw [fails] at same
        cases same
      · refine ⟨error, ?_⟩
        rw [each file member, failed, summarize_error_cons, summarize_nil]
    · intro other same alike
      have reloads := (loadScope_congr alike).trans loads
      rw [each file member, runOn_alone asked reloads member, same]

/-- Two files fail, one of them behind an expression that can be compiled. -/
theorem exists_report_beside_failures :
    let read (path : String) : Except ReadError ByteArray :=
      if path = "good" then .ok "3 kg + 2 kg; m".toUTF8
      else if path = "bad" then .ok "3 kg; 2 kg + m".toUTF8
      else .error .missing
    let options : Options := { files := ["bad", "good", "missing"] }
    (runOn read ["bad", "good", "missing"]).stdout = (runOn read (options.alone "good")).stdout ∧
      (runOn read (options.alone "good")).exitCode = 0 ∧
      (runOn read (options.alone "bad")).stdout = "" ∧
      (runOn read ["bad", "good", "missing"]).exitCode ≠ 0 := by
  intro read options
  have asked : Options.ofArguments ["bad", "good", "missing"] = .ok options :=
    Except.toOption_eq_some.mp (by decide +kernel)
  obtain ⟨_, stdout, _, _, exitCode, files⟩ := runOn_exact asked (rfl : loadScope read none = .ok .si)
  obtain ⟨ofGood, _, _⟩ := files "good" (by simp [options])
  obtain ⟨_, ofBad, _⟩ := files "bad" (by simp [options])
  obtain ⟨_, ofMissing, _⟩ := files "missing" (by simp [options])
  have good : (compiled? .si options.grammar (read "good")).isSome = true := by decide +kernel
  obtain ⟨expressions, compiled⟩ := Option.isSome_iff_exists.mp good
  obtain ⟨badError, bad⟩ := ofBad (by decide +kernel)
  obtain ⟨missingError, missing⟩ := ofMissing (by decide +kernel)
  have report := ofGood expressions compiled
  refine ⟨?_, ?_, ?_, ?_⟩
  · rw [stdout]
    simp [options, bad, missing]
  · rw [report]
  · rw [bad]
  · rw [Ne, exitCode]
    intro all
    have one := all "bad" (by simp [options])
    rw [bad] at one
    cases one

end Dimensional.CommandLine
