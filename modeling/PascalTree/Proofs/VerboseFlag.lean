import PascalTree.Cli.Run

/-!
# VerboseFlag — the verbose flag changes nothing but the log

In a valid command line without a verbose flag, only plain arguments stand before the separator
`--`. One verbose flag may be put anywhere among them: the command stays the same, and with it all
that a run leaves except its log. This holds however files are read.

* `Quiet`: no verbose flag is given;
* `readArgument_cases`, `readCommand_cases`: the first argument of a valid command line;
* `readArgument_insert`, `parse_insert`: one more flag, behind the name and anywhere;
* `Command.Ends`: what a command ends with, without what it tells on the way;
* `verbose_flag_changes_log_only`: both runs, and what they leave.
-/

namespace PascalTree
namespace Cli

/-! ## Forms of arguments -/

/-- The two forms of the verbose flag. -/
def IsVerboseFlag (text : String) : Prop := text = "-v" ∨ text = "--verbose"

/-- No verbose flag stands before the separator. -/
def Quiet (args : List String) : Prop := ∀ text ∈ args.takeWhile (· != "--"), ¬IsVerboseFlag text

instance : DecidablePred IsVerboseFlag := fun text =>
  inferInstanceAs (Decidable (text = "-v" ∨ text = "--verbose"))

instance : DecidablePred Quiet := fun args =>
  inferInstanceAs (Decidable (∀ text ∈ args.takeWhile (· != "--"), ¬IsVerboseFlag text))

theorem Quiet.head {text : String} {args : List String} (h : Quiet (text :: args)) :
    ¬IsVerboseFlag text := by
  by_cases htext : text = "--"
  · rw [htext]
    rintro (heq | heq) <;> exact absurd heq (by decide)
  · exact h text (by simp [htext])

theorem Quiet.tail {text : String} {args : List String} (h : Quiet (text :: args))
    (htext : text ≠ "--") : Quiet args := by
  rw [Quiet, List.takeWhile_cons_of_pos (by simpa using htext)] at h
  exact fun a ha => h a (List.mem_cons_of_mem text ha)

theorem ofString_separator : Argument.ofString "--" = .separator := rfl

theorem eq_of_ofString_separator {text : String} (h : Argument.ofString text = .separator) :
    text = "--" := by
  unfold Argument.ofString at h
  split at h
  · rename_i heq
    exact String.toList_inj.mp heq
  · cases h
  · cases h
  · cases h

theorem ofString_of_isVerboseFlag {text : String} (h : IsVerboseFlag text) :
    Argument.ofString text = .flags [.verbose] := by
  rcases h with rfl | rfl <;> rfl

/-- A second flag of whatever kind is refused. -/
theorem eq_nil_of_takeFlags_true {flags : List Flag} {verbose : Bool}
    (h : takeFlags true flags = .ok verbose) : flags = [] := by
  cases flags with
  | nil => rfl
  | cons flag flags => cases flag <;> cases h

theorem eq_of_takeFlags {flag : Flag} {flags : List Flag} {verbose verbose' : Bool}
    (h : takeFlags verbose (flag :: flags) = .ok verbose') : flag = .verbose ∧ flags = [] := by
  cases flag with
  | verbose =>
    cases verbose with
    | false => exact ⟨rfl, eq_nil_of_takeFlags_true h⟩
    | true => cases h
  | help => cases h
  | unknown => cases h

/-- The only argument with flags that is accepted is the verbose flag. -/
theorem isVerboseFlag_of_takeFlags {text : String} {flags : List Flag} {verbose verbose' : Bool}
    (htext : Argument.ofString text = .flags flags)
    (h : takeFlags verbose flags = .ok verbose') : IsVerboseFlag text := by
  unfold Argument.ofString at htext
  split at htext
  · cases htext
  · -- A long flag is the only one of its argument.
    cases htext
    obtain ⟨hflag, -⟩ := eq_of_takeFlags h
    split at hflag
    · rename_i hlong
      exact Or.inr hlong
    · split at hflag <;> cases hflag
  · -- Short flags may stand together, but then one of them would be a second flag.
    rename_i c letters _ _ heq
    cases htext
    obtain ⟨hflag, hletters⟩ := eq_of_takeFlags h
    have hc : c = 'v' := by
      unfold Argument.shortFlag at hflag
      split at hflag
      · assumption
      · split at hflag <;> cases hflag
    rw [hc, List.map_eq_nil_iff.mp hletters] at heq
    exact Or.inl (String.toList_inj.mp heq)
  · cases htext

/-! ## Behind the name of the command -/

section Argument

variable {name : CommandName} {verbose : Bool} {given : Option Command} {text : String}
  {args : List String} {invocation : Invocation}

theorem readArgument_nil :
    readArgument name verbose given [] =
      (endPlain name given []).map (Invocation.mk verbose) := by
  rw [readArgument]
  cases endPlain name given [] <;> rfl

theorem readArgument_separator :
    readArgument name verbose given ("--" :: args) =
      (endPlain name given args).map (Invocation.mk verbose) := by
  rw [readArgument, ofString_separator]
  cases endPlain name given args <;> rfl

theorem readArgument_verboseFlag (hflag : IsVerboseFlag text) :
    readArgument name false given (text :: args) = readArgument name true given args := by
  rw [readArgument, ofString_of_isVerboseFlag hflag]
  rfl

theorem readArgument_plain {argument : String} {command : Command}
    (htext : Argument.ofString text = .plain argument)
    (happly : name.apply argument = .ok command) :
    readArgument name verbose none (text :: args) =
      readArgument name verbose (some command) args := by
  rw [readArgument, htext]
  simp only [happly]
  rfl

/-- Behind the name and before the separator, a quiet command line has nothing but its argument. -/
theorem readArgument_cases (hquiet : ¬IsVerboseFlag text) (hseparator : text ≠ "--")
    (h : readArgument name verbose given (text :: args) = .ok invocation) :
    given = none ∧ ∃ argument command, Argument.ofString text = .plain argument ∧
      name.apply argument = .ok command ∧
      readArgument name verbose (some command) args = .ok invocation := by
  rw [readArgument] at h
  split at h
  · rename_i htext
    exact absurd (eq_of_ofString_separator htext) hseparator
  · rename_i flags htext
    cases htake : takeFlags verbose flags with
    | ok verbose' => exact absurd (isVerboseFlag_of_takeFlags htext htake) hquiet
    | error refusal =>
      rw [htake] at h
      cases h
  · rename_i argument htext
    cases given with
    | some command => cases h
    | none =>
      cases happly : name.apply argument with
      | ok command =>
        simp only [happly] at h
        exact ⟨rfl, argument, command, htext, happly, h⟩
      | error refusal =>
        simp only [happly] at h
        cases h

theorem map_mk_of_ok {result : Except Refusal Command}
    (h : result.map (Invocation.mk verbose) = .ok invocation) (verbose' : Bool) :
    result.map (Invocation.mk verbose') = .ok ⟨verbose', invocation.command⟩ := by
  cases result with
  | ok command =>
    cases h
    rfl
  | error refusal => cases h

/-- Quiet arguments leave it to what stands before them whether the flag is given. -/
theorem readArgument_quiet (hquiet : Quiet args)
    (h : readArgument name verbose given args = .ok invocation) (verbose' : Bool) :
    readArgument name verbose' given args = .ok ⟨verbose', invocation.command⟩ := by
  -- The flag is looked at where the arguments end or the separator stands, and nowhere before.
  induction args generalizing given with
  | nil =>
    rw [readArgument_nil] at h ⊢
    exact map_mk_of_ok h verbose'
  | cons text args ih =>
    by_cases hseparator : text = "--"
    · subst hseparator
      rw [readArgument_separator] at h ⊢
      exact map_mk_of_ok h verbose'
    · obtain ⟨rfl, argument, command, htext, happly, h⟩ :=
        readArgument_cases hquiet.head hseparator h
      rw [readArgument_plain htext happly]
      exact ih (hquiet.tail hseparator) h

theorem readArgument_insert {before after : List String} {flag : String}
    (hflag : IsVerboseFlag flag) (hbefore : "--" ∉ before) (hquiet : Quiet (before ++ after))
    (h : readArgument name false given (before ++ after) = .ok invocation) :
    readArgument name false given (before ++ flag :: after) = .ok ⟨true, invocation.command⟩ := by
  -- Up to the flag both command lines are read alike; the argument may stand among them.
  induction before generalizing given with
  | nil =>
    rw [List.nil_append, readArgument_verboseFlag hflag]
    exact readArgument_quiet hquiet h true
  | cons text before ih =>
    obtain ⟨hseparator, hbefore⟩ := List.ne_and_not_mem_of_not_mem_cons hbefore
    obtain ⟨rfl, argument, command, htext, happly, h⟩ :=
      readArgument_cases hquiet.head hseparator.symm h
    rw [List.cons_append, readArgument_plain htext happly]
    exact ih hbefore (hquiet.tail hseparator.symm) h

end Argument

/-! ## Whole command lines -/

section CommandLine

variable {verbose : Bool} {text : String} {args : List String} {invocation : Invocation}

theorem readCommand_verboseFlag (hflag : IsVerboseFlag text) :
    readCommand false (text :: args) = readCommand true args := by
  rw [readCommand, ofString_of_isVerboseFlag hflag]
  rfl

theorem readCommand_plain {argument : String} {name : CommandName}
    (htext : Argument.ofString text = .plain argument)
    (hname : CommandName.ofString? argument = some name) :
    readCommand verbose (text :: args) = (readArgument name false none args).map
      fun invocation => ⟨verbose || invocation.verbose, invocation.command⟩ := by
  rw [readCommand, htext]
  simp only [hname]
  cases readArgument name false none args <;> rfl

/-- A quiet command line begins with the name of its command. -/
theorem readCommand_cases (hquiet : ¬IsVerboseFlag text)
    (h : readCommand verbose (text :: args) = .ok invocation) :
    text ≠ "--" ∧ ∃ argument name inner, Argument.ofString text = .plain argument ∧
      CommandName.ofString? argument = some name ∧
      readArgument name false none args = .ok inner ∧
      invocation = ⟨verbose || inner.verbose, inner.command⟩ := by
  rw [readCommand] at h
  split at h
  · cases h
  · rename_i flags htext
    cases htake : takeFlags verbose flags with
    | ok verbose' => exact absurd (isVerboseFlag_of_takeFlags htext htake) hquiet
    | error refusal =>
      rw [htake] at h
      cases h
  · rename_i argument htext
    have hseparator : text ≠ "--" := by
      rintro rfl
      cases htext
    cases hname : CommandName.ofString? argument with
    | none =>
      rw [hname] at h
      cases h
    | some name =>
      rw [hname] at h
      cases hinner : readArgument name false none args with
      | ok inner =>
        simp only [hinner] at h
        cases h
        exact ⟨hseparator, argument, name, inner, htext, hname, hinner, rfl⟩
      | error refusal =>
        simp only [hinner] at h
        cases h

theorem readCommand_quiet (hquiet : Quiet args) (h : readCommand verbose args = .ok invocation)
    (verbose' : Bool) : readCommand verbose' args = .ok ⟨verbose', invocation.command⟩ := by
  cases args with
  | nil => cases h
  | cons text args =>
    obtain ⟨hseparator, argument, name, inner, htext, hname, hinner, rfl⟩ :=
      readCommand_cases hquiet.head h
    rw [readCommand_plain htext hname,
      readArgument_quiet (hquiet.tail hseparator) hinner false, Except.map, Bool.or_false]

/-- A verbose flag may be put anywhere before the separator of a quiet command line, which then asks
for the same command. -/
theorem parse_insert {before after : List String} {flag : String} (hflag : IsVerboseFlag flag)
    (hbefore : "--" ∉ before) (hquiet : Quiet (before ++ after))
    (h : parse (before ++ after) = .ok invocation) :
    parse (before ++ flag :: after) = .ok ⟨true, invocation.command⟩ := by
  -- The flag stands before the name of the command or behind it, where it is read anew.
  cases before with
  | nil =>
    rw [List.nil_append, parse, readCommand_verboseFlag hflag]
    exact readCommand_quiet hquiet h true
  | cons text before =>
    obtain ⟨hseparator, argument, name, inner, htext, hname, hinner, rfl⟩ :=
      readCommand_cases hquiet.head h
    have hinsert := readArgument_insert hflag (List.not_mem_of_not_mem_cons hbefore)
      (hquiet.tail hseparator) hinner
    rw [List.cons_append, parse, readCommand_plain htext hname, hinsert]
    rfl

end CommandLine

/-! ## What commands end with -/

namespace Command

/-- What a command ends with, given a way to read files: the report it asks for, or why there is
none. -/
inductive Ends (readFile : String → Except ReadFault String) :
    Command → Except Failure String → Prop where
  | unread {command : Command} {path : String} {fault : ReadFault}
      (path_eq : command.path? = some path) (read : readFile path = .error fault) :
      Ends readFile command (.error (.read path fault))
  | unloaded {command : Command} {path source : String} {error : ReportError}
      (path_eq : command.path? = some path) (read : readFile path = .ok source)
      (load : Report.parseProgram source = .error error) :
      Ends readFile command (.error (.report error))
  | render {path source : String} {p : Program} (read : readFile path = .ok source)
      (load : Report.parseProgram source = .ok p) :
      Ends readFile (render path) (.ok (Report.render p))
  | stats {path source : String} {p : Program} (read : readFile path = .ok source)
      (load : Report.parseProgram source = .ok p) :
      Ends readFile (stats path) (.ok (Report.stats p))
  | idents {path source : String} {p : Program} (read : readFile path = .ok source)
      (load : Report.parseProgram source = .ok p) :
      Ends readFile (idents path) (.ok (Report.idents p))
  | unresolved {text : String} {error : ReportError}
      (label : Report.literal text = .error error) :
      Ends readFile (literal text) (.error (.report error))
  | literal {text typed : String} (label : Report.literal text = .ok typed) :
      Ends readFile (literal text) (.ok typed)

variable {readFile : String → Except ReadFault String}

/-- A command on a file ends with its report, or fails to read the file or to load it. -/
theorem ends_onFile {command : Command} {path : String} {report : Program → String}
    (hpath : command.path? = some path)
    (hreport : ∀ {source p}, readFile path = .ok source → Report.parseProgram source = .ok p →
      command.Ends readFile (.ok (report p))) :
    command.Ends readFile (onFile report path (readFile path)).report := by
  cases hread : readFile path with
  | error fault => exact .unread hpath hread
  | ok source =>
    cases hload : Report.parseProgram source with
    | error error =>
      simp only [onFile, hload]
      exact .unloaded hpath hread hload
    | ok p =>
      simp only [onFile, hload]
      exact hreport hread hload

theorem ends_run (command : Command) : command.Ends readFile (command.run readFile).report := by
  cases command with
  | render path => exact ends_onFile rfl .render
  | stats path => exact ends_onFile rfl .stats
  | idents path => exact ends_onFile rfl .idents
  | literal text =>
    rw [run]
    cases hresolve : Report.literal text with
    | error error => exact .unresolved hresolve
    | ok label => exact .literal hresolve

theorem Ends.report_run {command : Command} {report : Except Failure String}
    (h : command.Ends readFile report) : (command.run readFile).report = report := by
  cases h with
  -- Any command with a path may fail to read it or to load what it reads.
  | unread hpath hread => cases command <;> cases hpath <;> simp only [run, onFile, hread]
  | unloaded hpath hread hload =>
    cases command <;> cases hpath <;> simp only [run, onFile, hread, hload, Execution.failing]
  | render hread hload | stats hread hload | idents hread hload =>
    simp only [run, onFile, hread, hload]
  | unresolved hresolve => simp only [run, hresolve, Execution.failing]
  | literal hresolve => simp only [run, hresolve]

/-- A command ends with what its run reports, and with nothing else. -/
theorem ends_iff {command : Command} {report : Except Failure String} :
    command.Ends readFile report ↔ (command.run readFile).report = report := by
  constructor
  · exact Ends.report_run
  · rintro rfl
    exact ends_run command

end Command

/-! ## What runs leave -/

namespace Result

/-- The same exit status, output and error. -/
def SameButLog (r r' : Result) : Prop :=
  r.status = r'.status ∧ r.stdout = r'.stdout ∧ r.error = r'.error

/-- A run that ended well printed its text on a line; one that failed has an error and printed
nothing. -/
def Shows (r : Result) (report : Except Failure String) : Prop :=
  (∃ text, report = .ok text ∧ r.status = 0 ∧ r.error = none ∧ r.stdout = text ++ "\n") ∨
    ∃ failure, report = .error failure ∧ r.status = 1 ∧ r.stdout = "" ∧
      r.error = some failure.message

theorem shows_ofExecution (limit : Level) (execution : Execution) :
    (ofExecution limit execution).Shows execution.report := by
  obtain ⟨events, report⟩ := execution
  cases report with
  | ok text => exact Or.inl ⟨text, rfl, rfl, rfl, rfl⟩
  | error failure => exact Or.inr ⟨failure, rfl, rfl, rfl, rfl⟩

/-- What is shown does not depend on the log. -/
theorem Shows.sameButLog {r r' : Result} {report : Except Failure String} (h : r.Shows report)
    (h' : r'.Shows report) : r.SameButLog r' := by
  obtain ⟨text, rfl, hstatus, herror, hstdout⟩ | ⟨failure, rfl, hstatus, hstdout, herror⟩ := h
  · obtain ⟨text', heq, hstatus', herror', hstdout'⟩ | ⟨failure, heq, -⟩ := h'
    · cases heq
      exact ⟨hstatus.trans hstatus'.symm, hstdout.trans hstdout'.symm, herror.trans herror'.symm⟩
    · cases heq
  · obtain ⟨text, heq, -⟩ | ⟨failure', heq, hstatus', hstdout', herror'⟩ := h'
    · cases heq
    · cases heq
      exact ⟨hstatus.trans hstatus'.symm, hstdout.trans hstdout'.symm, herror.trans herror'.symm⟩

end Result

section Runs

variable {readFile : String → Except ReadFault String} {args : List String}
  {invocation : Invocation}

theorem runWith_of_parse (h : parse args = .ok invocation) :
    runWith readFile args = invocation.run readFile := by
  rw [runWith, h]

theorem shows_runWith (h : parse args = .ok invocation) :
    (runWith readFile args).Shows (invocation.command.run readFile).report := by
  rw [runWith_of_parse h]
  exact Result.shows_ofExecution _ _

/-- With the verbose flag a run logs all events its command goes through, and none without. -/
theorem log_runWith (h : parse args = .ok invocation) :
    (runWith readFile args).log =
      if invocation.verbose then (invocation.command.run readFile).events else [] := by
  have hlog : ∀ limit (execution : Execution),
      (Result.ofExecution limit execution).log = execution.events.filter (Event.shownAt limit) := by
    rintro limit ⟨events, report⟩
    cases report <;> rfl
  rw [runWith_of_parse h, Invocation.run, hlog, Invocation.limit]
  cases invocation.verbose with
  | true => exact List.filter_eq_self.mpr fun event _ => by cases event <;> rfl
  | false => exact List.filter_eq_nil_iff.mpr fun event _ => by cases event <;> exact nofun

/-- The refusal of a literal is told, but only to those who asked for it. -/
example : (run ⟨[]⟩ ["-v", "literal", "3,14"]).log = [.refused (.malformedLiteral "3,14")] ∧
    (run ⟨[]⟩ ["literal", "3,14"]).log = [] := by decide

end Runs

/-- In a valid command line without a verbose flag, one may be put anywhere before the separator.
However files are read, both runs show the one thing that the command ends with, so they differ in
their logs only. -/
theorem verbose_flag_changes_log_only (readFile : String → Except ReadFault String)
    {before after : List String} {flag : String} {invocation : Invocation}
    (hflag : IsVerboseFlag flag) (hbefore : "--" ∉ before) (hquiet : Quiet (before ++ after))
    (hvalid : parse (before ++ after) = .ok invocation) :
    parse (before ++ flag :: after) = .ok ⟨true, invocation.command⟩ ∧
      (runWith readFile (before ++ flag :: after)).SameButLog
        (runWith readFile (before ++ after)) ∧
      (∀ report, invocation.command.Ends readFile report ↔
        (invocation.command.run readFile).report = report) ∧
      ∀ args ∈ [before ++ after, before ++ flag :: after],
        (runWith readFile args).Shows (invocation.command.run readFile).report := by
  have hloud := parse_insert hflag hbefore hquiet hvalid
  have hshows := @shows_runWith readFile _ _ hvalid
  have hshowsLoud := @shows_runWith readFile _ _ hloud
  refine ⟨hloud, hshowsLoud.sameButLog hshows, fun _ => Command.ends_iff, ?_⟩
  intro args hargs
  simp only [List.mem_cons, List.not_mem_nil, or_false] at hargs
  rcases hargs with rfl | rfl
  · exact hshows
  · exact hshowsLoud

/-- The stored text of a program without declarations, from that of its statements. -/
def programText (stmts : String) : String :=
  "\x7b\"name\":\x7b\"name\":\"Demo\"\x7d,\"vars\":\x7b\"entries\":[]\x7d," ++
    "\"body\":\x7b\"stmts\":[" ++ stmts ++ "]\x7d\x7d"

/-- A directory with a stored program and one whose only literal is malformed. -/
def twoFiles : Directory where
  entries := [("p.json", .file (programText "").toUTF8),
    ("q.json", .file (programText
      ("\x7b\"Assign\":\x7b\"target\":\x7b\"Ident\":\x7b\"name\":\"x\"\x7d\x7d," ++
        "\"value\":\x7b\"Literal\":\x7b\"text\":\"3,14\"\x7d\x7d\x7d\x7d")).toUTF8)]

/-- Behind the separator, the text of the flag is an argument like any other. The flag makes no
difference to a report on a stored program, nor to why there is none. -/
theorem verbose_flag_changes_log_only_twoFiles :
    (Quiet ["literal", "--", "-v"] ∧
      parse ["literal", "--", "-v"] = .ok ⟨false, .literal "-v"⟩ ∧
      parse ["literal", "-v", "--", "-v"] = .ok ⟨true, .literal "-v"⟩ ∧
      (run twoFiles ["literal", "-v", "--", "-v"]).SameButLog
        (run twoFiles ["literal", "--", "-v"])) ∧
    (run twoFiles ["render", "p.json"] =
        ⟨0, "Program\n├ Demo\n├ var\n└ ...\n", none, []⟩ ∧
      (run twoFiles ["render", "p.json", "-v"]).SameButLog (run twoFiles ["render", "p.json"])) ∧
    run twoFiles ["stats", "q.json"] =
        ⟨1, "", some "invalid syntax tree: malformed literal: \"3,14\" at line 1 column 141", []⟩ ∧
      (run twoFiles ["--verbose", "stats", "q.json"]).SameButLog
        (run twoFiles ["stats", "q.json"]) := by
  have hliteral := @verbose_flag_changes_log_only twoFiles.read ["literal"] ["--", "-v"] "-v"
    ⟨false, .literal "-v"⟩ (by decide) (by decide) (by decide) rfl
  have hrender := @verbose_flag_changes_log_only twoFiles.read ["render", "p.json"] [] "-v"
    ⟨false, .render "p.json"⟩ (by decide) (by decide) (by decide) rfl
  have hstats := @verbose_flag_changes_log_only twoFiles.read [] ["stats", "q.json"] "--verbose"
    ⟨false, .stats "q.json"⟩ (by decide) (by decide) (by decide) rfl
  -- Only the runs without the flag are evaluated.
  refine ⟨⟨by decide, rfl, hliteral.1, hliteral.2.1⟩, ⟨?_, hrender.2.1⟩, ?_, hstats.2.1⟩
  · decide +kernel
  · decide +kernel

end Cli
end PascalTree
