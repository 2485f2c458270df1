import BinAtlas.Proofs.Printing

/-! Runs of the program are all or nothing. Whatever tools it is built upon and whatever is read from the files,
a run that succeeds has printed the whole report of what was asked, and a run that fails has printed nothing;
which of the two it is does not depend on the form of the report. -/

namespace BinAtlas

open Printing (Prints attempt_ok_bind fails_attempt)

namespace Printing

variable {task : Printing Unit} {lines : List String}

theorem outcome_of_prints (h : Prints task lines) : outcome task = (.ok (), String.join (lines.map (· ++ "\n"))) := by
  simp only [outcome, h [], List.append_nil, List.reverse_reverse]

theorem outcome_of_fails (h : Fails task) : ∃ f, outcome task = (.error f, "") := by
  obtain ⟨f, hf⟩ := h
  refine ⟨f, ?_⟩
  simp only [outcome, hf []]
  rfl

end Printing

namespace Invocation

variable {tools : Toolkit} {i : Invocation} {files : Readings} {r : Report}

/-- The snapshot is opened and the command has its answer. -/
def Answers (i : Invocation) (tools : Toolkit) (files : Readings) (r : Report) : Prop :=
  ∃ atlas, i.Opens tools files atlas ∧ i.command.Answers tools files.digest atlas r

/-- What may keep an invocation from its answer. -/
inductive Fails (i : Invocation) (tools : Toolkit) (files : Readings) : Prop
  | config (h : ∀ config, ¬ Configured tools files.config i.config config)
  | unnamed (h : i.snapshot = none)
  | loading {path} (hpath : i.snapshot = some path) (h : ∀ stored, ¬ files.snapshot.Stores tools path stored)
  | query {atlas} (hopens : i.Opens tools files atlas) (h : i.command.QueryFails files.digest atlas)

/-- An invocation has its answer, or one of these keeps it from it. -/
theorem answers_or_fails (i : Invocation) (tools : Toolkit) (files : Readings) :
    (∃ r, i.Answers tools files r) ∨ i.Fails tools files := by
  by_cases hconfig : ∃ config, Configured tools files.config i.config config
  case neg => exact .inr (.config (not_exists.1 hconfig))
  obtain ⟨config, hconfig⟩ := hconfig
  cases hpath : i.snapshot with
  | none => exact .inr (.unnamed hpath)
  | some path =>
    by_cases hstored : ∃ stored, files.snapshot.Stores tools path stored
    case neg => exact .inr (.loading hpath (not_exists.1 hstored))
    obtain ⟨stored, hstored⟩ := hstored
    have hopens : i.Opens tools files _ := .opened hconfig hpath hstored
    rcases Command.answers_or_queryFails tools files.digest _ i.command with ⟨r, h⟩ | h
    · exact .inl ⟨r, _, hopens, h⟩
    · exact .inr (.query hopens h)

theorem carryOut_of_opens {atlas : Atlas} (h : i.Opens tools files atlas) :
    i.carryOut tools files = i.command.carryOut tools files.digest atlas i.json := by
  obtain ⟨hconfig, hpath, hstored⟩ := h
  rw [carryOut, Atlas.configOf_eq_ok_iff.2 hconfig, hpath, attempt_ok_bind]
  dsimp only
  rw [Atlas.openWith, Files.loadSnapshot_eq_ok_iff.2 hstored, attempt_ok_bind]

theorem prints_carryOut (writes : tools.Writes) (h : i.Answers tools files r) :
    ∃ lines, r.Shown tools i.json lines ∧ Prints (i.carryOut tools files) lines := by
  obtain ⟨atlas, hopens, hanswers⟩ := h
  rw [carryOut_of_opens hopens]
  exact Command.prints_carryOut writes hopens.untouched hanswers i.json

theorem fails_carryOut (h : i.Fails tools files) : Printing.Fails (i.carryOut tools files) := by
  cases h with
  | query hopens h =>
    rw [carryOut_of_opens hopens]
    exact Command.fails_carryOut h i.json
  | config h =>
    rw [carryOut]
    cases hconfig : Atlas.configOf tools files.config i.config with
    | error f => exact fails_attempt f _
    | ok config => exact absurd (Atlas.configOf_eq_ok_iff.1 hconfig) (h config)
  | unnamed hnone =>
    rw [carryOut, hnone]
    cases Atlas.configOf tools files.config i.config with
    | error f => exact fails_attempt f _
    | ok config => exact fails_attempt .noSnapshot pure
  | @loading path hpath h =>
    rw [carryOut, hpath]
    cases Atlas.configOf tools files.config i.config with
    | error f => exact fails_attempt f _
    | ok config =>
      rw [attempt_ok_bind]
      dsimp only
      rw [Atlas.openWith]
      cases hload : files.snapshot.loadSnapshot tools path with
      | error e => exact fails_attempt (.loading path e) _
      | ok stored => exact absurd (Files.loadSnapshot_eq_ok_iff.1 hload) (h stored)

/-- What fails in one form fails in both. -/
theorem Fails.form (h : i.Fails tools files) (json : Bool) : { i with json }.Fails tools files := by
  cases h with
  | config h => exact .config h
  | unnamed h => exact .unnamed h
  | loading hpath h => exact .loading hpath h
  | query hopens h => exact .query (hopens.form json) h

theorem Answers.form (h : i.Answers tools files r) (json : Bool) : { i with json }.Answers tools files r := by
  obtain ⟨atlas, hopens, hanswers⟩ := h
  exact ⟨atlas, hopens.form json, hanswers⟩

end Invocation

namespace Command

variable {tools : Toolkit} {files : Readings} {args args' : List String} {i : Invocation} {r : Report} {json : Bool}
  {message : String}

/-- The arguments ask for no more than an explanation, such as for help or for the version. -/
def Explains (tools : Toolkit) (args : List String) : Prop := ∃ text, tools.arguments args = .error (.explained text)

/-- What may make a run fail. -/
inductive RunFails (tools : Toolkit) (files : Readings) (args : List String) : Prop
  | usage {message : String} (h : tools.arguments args = .error (.refused message))
  | invocation {i : Invocation} (h : tools.arguments args = .ok i) (hfails : i.Fails tools files)

/-- A run that prints all of its report or nothing of it. -/
structure AllOrNothing (tools : Toolkit) (files : Readings) (args : List String) : Prop where
  /-- Either it succeeds with the whole report of an answer on the output, or it fails with nothing on it. -/
  whole :
    (∃ i r lines, tools.arguments args = .ok i ∧ i.Answers tools files r ∧ (runOver tools files args).exit = 0 ∧
      r.Shown tools i.json lines ∧ (runOver tools files args).stdout = String.join (lines.map (· ++ "\n"))) ∨
    ((runOver tools files args).exit ≠ 0 ∧ (runOver tools files args).stdout = "")
  fails_iff : (runOver tools files args).exit ≠ 0 ↔ RunFails tools files args
  /-- Other arguments that ask for the same in one of the two forms. -/
  form : ∀ i json args', tools.arguments args = .ok i → tools.arguments args' = .ok { i with json } →
    (runOver tools files args').exit = (runOver tools files args).exit
  /-- The switch for the other form, where it is not given already. -/
  switch : (∀ i, tools.arguments args = .ok i → i.json = false) →
    (runOver tools files ("--json" :: args)).exit = (runOver tools files args).exit

theorem runOver_of_refused (h : tools.arguments args = .error (.refused message)) :
    runOver tools files args = { exit := 2, stdout := "", stderr := message } := by
  rw [runOver, h]

theorem runOver_of_prints {lines : List String} (h : tools.arguments args = .ok i)
    (hprints : Prints (i.carryOut tools files) lines) :
    runOver tools files args = { exit := 0, stdout := String.join (lines.map (· ++ "\n")), stderr := "" } := by
  simp only [runOver, h, Printing.outcome_of_prints hprints]

theorem runOver_of_answers (writes : tools.Writes) (h : tools.arguments args = .ok i)
    (hanswers : i.Answers tools files r) : ∃ lines, r.Shown tools i.json lines ∧
      runOver tools files args = { exit := 0, stdout := String.join (lines.map (· ++ "\n")), stderr := "" } := by
  obtain ⟨lines, hshown, hprints⟩ := Invocation.prints_carryOut writes hanswers
  exact ⟨lines, hshown, runOver_of_prints h hprints⟩

theorem runOver_of_fails (h : tools.arguments args = .ok i) (hfails : i.Fails tools files) :
    ∃ f : Failure, runOver tools files args = { exit := 1, stdout := "", stderr := f.report } := by
  obtain ⟨f, hf⟩ := Printing.outcome_of_fails (Invocation.fails_carryOut hfails)
  refine ⟨f, ?_⟩
  simp only [runOver, h, hf]

theorem runOver_of_runFails (h : RunFails tools files args) :
    (runOver tools files args).exit ≠ 0 ∧ (runOver tools files args).stdout = "" := by
  cases h with
  | usage h =>
    rw [runOver_of_refused h]
    exact ⟨(by decide : (2 : UInt32) ≠ 0), rfl⟩
  | invocation h hfails =>
    obtain ⟨f, hf⟩ := runOver_of_fails h hfails
    rw [hf]
    exact ⟨(by decide : (1 : UInt32) ≠ 0), rfl⟩

theorem answers_or_runFails (files : Readings) (hargs : ¬ Explains tools args) :
    (∃ i r, tools.arguments args = .ok i ∧ i.Answers tools files r) ∨ RunFails tools files args := by
  cases h : tools.arguments args with
  | ok i =>
    rcases i.answers_or_fails tools files with ⟨r, hanswers⟩ | hfails
    · exact .inl ⟨i, r, rfl, hanswers⟩
    · exact .inr (.invocation h hfails)
  | error parting =>
    cases parting with
    | refused message => exact .inr (.usage h)
    | explained text => exact absurd ⟨text, h⟩ hargs

/-- The form does not tell whether a run fails. -/
theorem exit_form (writes : tools.Writes) (h : tools.arguments args = .ok i)
    (h' : tools.arguments args' = .ok { i with json }) :
    (runOver tools files args').exit = (runOver tools files args).exit := by
  rcases i.answers_or_fails tools files with ⟨r, hanswers⟩ | hfails
  · obtain ⟨lines, -, hrun⟩ := runOver_of_answers writes h hanswers
    obtain ⟨lines', -, hrun'⟩ := runOver_of_answers writes h' (hanswers.form json)
    rw [hrun, hrun']
  · obtain ⟨f, hf⟩ := runOver_of_fails h hfails
    obtain ⟨f', hf'⟩ := runOver_of_fails h' (hfails.form json)
    rw [hf, hf']

theorem exit_switch (writes : tools.Writes) (switches : tools.TakesSwitch) (hargs : ¬ Explains tools args)
    (hjson : ∀ i, tools.arguments args = .ok i → i.json = false) :
    (runOver tools files ("--json" :: args)).exit = (runOver tools files args).exit := by
  cases h : tools.arguments args with
  | ok i => exact exit_form writes h (switches.accepted args i h (hjson i h))
  | error parting =>
    cases parting with
    | refused message =>
      obtain ⟨other, hother⟩ := switches.refused args message h
      rw [runOver_of_refused h, runOver_of_refused hother]
    | explained text => exact absurd ⟨text, h⟩ hargs

section Vanishing

def onlyMain : String := "\x7b\"functions\":[\x7b\"start\":4096,\"end\":8192,\"name\":\"main\"\x7d]\x7d"

/-- A file with one function in it, which is gone when it comes to its digest. -/
def vanishing : Readings where
  config := fun _ => .error .absent
  snapshot := fun _ => .ok (Utf8.encode onlyMain.toList)
  digest := fun _ => .error .absent

/-- What is loaded from the file. -/
def storedMain : Stored where
  tables := { functions := [⟨0x1000, 0x2000, some "main"⟩] }
  image := []

/-- A command over that file. -/
def overMain (command : Command) (json : Bool) : Invocation := { snapshot := some "a", config := none, json, command }

theorem stores_vanishing : vanishing.snapshot.Stores .standard "a" storedMain := by
  refine ⟨storedMain.tables, ⟨_, onlyMain, rfl, by decide +kernel, ?_⟩, ?_⟩
  · -- the text is a document of either format
    cases Files.formatOf "a" <;> decide +kernel
  · simp [Snapshot.load, Snapshot.flaw?, storedMain]

theorem opens_vanishing (command : Command) (json : Bool) :
    (overMain command json).Opens .standard vanishing ⟨{}, "a", storedMain.session 1024⟩ :=
  .opened .standard rfl stores_vanishing

theorem ofArguments_functions :
    ofArguments ["--snapshot", "a", "functions"] = .ok (overMain (.functions none none) false) := by
  decide +kernel

theorem ofArguments_info : ofArguments ["--snapshot", "a", "info"] = .ok (overMain .info false) := by
  decide +kernel

/-- The one function, as it is listed. -/
def shownMain : Function := ⟨0x1000, 0x2000, "main"⟩

theorem carryOut_functions_vanishing (json : Bool) :
    (overMain (.functions none none) json).carryOut .standard vanishing =
      if json then Printing.printJson Toolkit.standard.pretty (Report.functions [shownMain]).json
      else Printing.printListing "Functions" Report.functionLine [shownMain] := by
  have hcollect : (storedMain.session 1024).view.collectFunctions none none = .ok [shownMain] := rfl
  rw [Invocation.carryOut_of_opens (opens_vanishing _ json), overMain, carryOut, hcollect]
  rfl

end Vanishing
end Command
end BinAtlas
