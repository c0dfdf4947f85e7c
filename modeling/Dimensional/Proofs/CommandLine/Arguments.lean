import Dimensional.CommandLine
import Dimensional.Proofs.Except

/-! Options that arguments stand for, and arguments that stand for options. -/

namespace Dimensional

/-- The name that a report is chosen by. -/
def Report.name : Report → String
  | .summary => "summary"
  | .drawing .ascii => "tree"
  | .drawing .dot => "dot"
  | .drawing .mermaid => "mermaid"

namespace CommandLine

theorem reportNamed?_name (report : Report) : reportNamed? report.name = some report := by
  rcases report with _ | (_ | _ | _) <;> rfl

namespace Options

/-- The files and the scope have names. -/
structure AreNamed (options : Options) : Prop where
  files : ∀ path ∈ options.files, path.isEmpty = false
  scope : ∀ path ∈ options.scope?, path.isEmpty = false

/-- An option with its value behind an equals sign. -/
def assignment (name value : String) : String := name ++ "=" ++ value

/-- Arguments that stand for some options, the files last. -/
def arguments (options : Options) : List String :=
  options.scope?.toList.map (assignment "--scope") ++
    (options.report?.toList.map (fun report => assignment "--format" report.name) ++
      ((if options.numeric then ["--numeric"] else []) ++
        ((if options.logJson then ["--log-json"] else []) ++ "--" :: options.files)))

section AreNamed

variable {options extended : Options} {path name : String} {letters : List Char}

theorem areNamed_default : ({} : Options).AreNamed := ⟨nofun, nofun⟩

theorem AreNamed.addFile (named : options.AreNamed) (h : options.addFile path = .ok extended) :
    extended.AreNamed := by
  unfold Options.addFile at h
  split at h
  · cases h
  · rename_i some
    cases h
    refine ⟨?_, named.scope⟩
    intro other member
    rcases List.mem_append.mp member with before | last
    · exact named.files other before
    · obtain rfl := List.mem_singleton.mp last
      exact Bool.eq_false_iff.mpr some

theorem AreNamed.setScope (named : options.AreNamed) (h : options.setScope path = .ok extended) :
    extended.AreNamed := by
  unfold Options.setScope at h
  split at h
  · cases h
  · rename_i some
    cases h
    refine ⟨named.files, ?_⟩
    rintro other ⟨⟩
    simp only [Bool.or_eq_true, not_or, Bool.not_eq_true] at some
    exact some.1

theorem AreNamed.setReport (named : options.AreNamed) (h : options.setReport name = .ok extended) :
    extended.AreNamed := by
  unfold Options.setReport at h
  split at h
  · cases h
    exact ⟨named.files, named.scope⟩
  · cases h

theorem AreNamed.setter? (named : options.AreNamed) {set : String → Except Detour Options}
    {value : String} (found : options.setter? name = some set) (h : set value = .ok extended) :
    extended.AreNamed := by
  unfold Options.setter? at found
  split at found
  · cases found
    exact named.setScope h
  · cases found
    exact named.setReport h
  · cases found

/-- Letters ask for nothing that is kept. -/
theorem eq_of_addLetters (h : options.addLetters letters = .ok extended) : extended = options := by
  induction letters with
  | nil =>
    cases h
    rfl
  | cons letter letters ih =>
    unfold Options.addLetters at h
    split at h
    · rename_i none
      cases none
    · rename_i same
      cases same
      exact ih h
    · cases h
    · cases h
    · cases h

theorem AreNamed.addFlag (named : options.AreNamed) (h : options.addFlag name = .ok extended) :
    extended.AreNamed := by
  unfold Options.addFlag at h
  split at h <;> try split at h
  all_goals cases h
  all_goals exact ⟨named.files, named.scope⟩

theorem AreNamed.addAssignment (named : options.AreNamed)
    (h : options.addAssignment letters = .ok extended) : extended.AreNamed := by
  unfold Options.addAssignment at h
  dsimp only at h
  split at h
  · rename_i set equals value found split
    exact named.setter? found h
  · cases h

theorem AreNamed.addAlone (named : options.AreNamed) (h : options.addAlone name = .ok extended) :
    extended.AreNamed := by
  unfold Options.addAlone at h
  split at h
  · split at h
    · exact named.addAssignment h
    · exact named.addFlag h
  · obtain rfl := eq_of_addLetters h
    exact named
  · exact named.addFile h

/-- No argument takes a name away. -/
theorem AreNamed.add (named : options.AreNamed) {arguments : List String}
    (h : options.add arguments = .ok extended) : extended.AreNamed := by
  induction options, arguments using add.induct with
  | case1 options =>
    rw [Options.add] at h
    cases h
    exact named
  | case2 options files =>
    rw [Options.add] at h
    exact Except.foldlM_preserves (fun options path _ next named added => named.addFile added) named h
  | case3 options argument goesOn set found =>
    rw [add.eq_3 options argument goesOn set found] at h
    cases h
  | case4 options argument goesOn set value rest found isOption =>
    rw [add.eq_4 options argument set value rest goesOn found, if_pos isOption] at h
    cases h
  | case5 options argument goesOn set value rest found plain ih =>
    rw [add.eq_4 options argument set value rest goesOn found, if_neg plain] at h
    obtain ⟨next, done, h⟩ := Except.bind_eq_ok.mp h
    exact ih next (named.setter? found done) h
  | case6 options argument goesOn rest alone ih =>
    rw [add.eq_5 options argument rest goesOn alone] at h
    obtain ⟨next, done, h⟩ := Except.bind_eq_ok.mp h
    exact ih next (named.addAlone done) h

/-- Options that were asked for name some file. -/
theorem areNamed_of_ofArguments {arguments : List String} (h : ofArguments arguments = .ok options) :
    options.AreNamed ∧ options.files ≠ [] := by
  obtain ⟨added, taken, h⟩ := Except.bind_eq_ok.mp h
  by_cases none : added.files.isEmpty = true
  · rw [if_pos none] at h
    cases h
  · rw [if_neg none] at h
    cases h
    exact ⟨areNamed_default.add taken, fun empty => none (List.isEmpty_iff.mpr empty)⟩

end AreNamed

section Arguments

variable {options : Options} {rest : List String}

/-- An option is taken in alone, unless the next argument is its value. -/
theorem add_dashed {argument : String} {letters : List Char}
    (dashed : argument.toList = '-' :: '-' :: letters) (named : letters ≠ [])
    (alone : options.setter? argument = none) :
    options.add (argument :: rest) =
      (if argument.toList.contains '=' then options.addAssignment argument.toList
        else options.addFlag argument) >>= fun extended => extended.add rest := by
  have goesOn : argument ≠ "--" := by
    rintro rfl
    exact named (by simpa using dashed.symm)
  rw [add.eq_5 options argument rest goesOn alone, addAlone]
  simp only [dashed]

theorem toList_assignment {name value : String} :
    (assignment name value).toList = name.toList ++ '=' :: value.toList := by
  simp [assignment]

/-- Nothing behind an equals sign is left for the next argument. -/
theorem setter?_assignment {name value : String} :
    options.setter? (assignment name value) = none := by
  unfold Options.setter?
  split
  · rename_i same
    have sign : '=' ∈ "--scope".toList := by
      rw [← same, toList_assignment]
      simp
    simp at sign
  · rename_i same
    have sign : '=' ∈ "--format".toList := by
      rw [← same, toList_assignment]
      simp
    simp at sign
  · rfl

theorem add_assignment {name value : String} {letters : List Char}
    {set : String → Except Detour Options} (dashed : name.toList = '-' :: '-' :: letters)
    (plain : '=' ∉ name.toList) (found : options.setter? name = some set) :
    options.add (assignment name value :: rest) =
      set value >>= fun extended => extended.add rest := by
  have toList : (assignment name value).toList = '-' :: '-' :: (letters ++ '=' :: value.toList) := by
    rw [toList_assignment, dashed]
    rfl
  have other : ∀ c ∈ name.toList, (c != '=') = true := by
    intro c member
    simp only [bne_iff_ne, ne_eq]
    rintro rfl
    exact plain member
  have before : (assignment name value).toList.takeWhile (· != '=') = name.toList := by
    rw [toList_assignment, List.takeWhile_append_of_pos other]
    simp
  have behind : (assignment name value).toList.dropWhile (· != '=') = '=' :: value.toList := by
    rw [toList_assignment, List.dropWhile_append_of_pos other]
    simp
  have assigned : options.addAssignment (assignment name value).toList = set value := by
    unfold Options.addAssignment
    simp only [before, behind, String.ofList_toList, found]
  have sign : (assignment name value).toList.contains '=' = true := by
    simp [toList_assignment]
  rw [add_dashed toList (by simp) setter?_assignment, if_pos sign, assigned]

theorem add_scope {scope? : Option String} (free : options.scope? = none)
    (named : ∀ path ∈ scope?, path.isEmpty = false) :
    options.add (scope?.toList.map (assignment "--scope") ++ rest) =
      ({ options with scope? } : Options).add rest := by
  cases scope? with
  | none =>
    cases options
    cases free
    rfl
  | some path =>
    have set : options.setScope path = .ok { options with scope? := some path } := by
      simp [Options.setScope, free, named path rfl]
    change options.add (assignment "--scope" path :: rest) = _
    rw [add_assignment rfl (by simp) rfl, set, Except.ok_bind]

theorem add_format {report? : Option Report} (free : options.report? = none) :
    options.add (report?.toList.map (fun report => assignment "--format" report.name) ++ rest) =
      ({ options with report? } : Options).add rest := by
  cases report? with
  | none =>
    cases options
    cases free
    rfl
  | some report =>
    have set : options.setReport report.name = .ok { options with report? := some report } := by
      simp [Options.setReport, free, reportNamed?_name]
    change options.add (assignment "--format" report.name :: rest) = _
    rw [add_assignment rfl (by simp) rfl, set, Except.ok_bind]

theorem add_numeric {numeric : Bool} (free : options.numeric = false) :
    options.add ((if numeric then ["--numeric"] else []) ++ rest) =
      ({ options with numeric } : Options).add rest := by
  cases numeric with
  | false =>
    cases options
    cases free
    rfl
  | true =>
    change options.add ("--numeric" :: rest) = _
    rw [add_dashed rfl (by simp) rfl]
    simp [Options.addFlag, free]

theorem add_logJson {logJson : Bool} (free : options.logJson = false) :
    options.add ((if logJson then ["--log-json"] else []) ++ rest) =
      ({ options with logJson } : Options).add rest := by
  cases logJson with
  | false =>
    cases options
    cases free
    rfl
  | true =>
    change options.add ("--log-json" :: rest) = _
    rw [add_dashed rfl (by simp) rfl]
    simp [Options.addFlag, free]

theorem add_files {files : List String} (named : ∀ path ∈ files, path.isEmpty = false) :
    options.add ("--" :: files) = .ok { options with files := options.files ++ files } := by
  rw [Options.add]
  induction files generalizing options with
  | nil => simp [pure, Except.pure]
  | cons path files ih =>
    obtain ⟨first, others⟩ := List.forall_mem_cons.mp named
    have added : options.addFile path = .ok { options with files := options.files ++ [path] } := by
      simp [Options.addFile, first]
    rw [List.foldlM_cons, added, Except.ok_bind, ih others]
    simp

/-- The arguments stand for the options that they were made of. -/
theorem ofArguments_arguments (named : options.AreNamed) (some : options.files ≠ []) :
    ofArguments options.arguments = .ok options := by
  have added : ({} : Options).add options.arguments = .ok options := by
    rw [arguments, add_scope rfl named.scope, add_format rfl, add_numeric rfl, add_logJson rfl,
      add_files named.files]
    rfl
  rw [ofArguments, added, Except.ok_bind, if_neg fun none => some (List.isEmpty_iff.mp none)]
  rfl

end Arguments

end Options

end CommandLine

end Dimensional
