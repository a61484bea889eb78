import Mathlib
import Playthrough.Command.Run

/-!
# Files are reported on apart

A run goes through its files in one session, which holds what has been printed, how many files have
failed, and the samples of the stopwatch. So a file could in principle change what is said about those
behind it. It does not: what a file adds to a session does not depend on the session.

* `Session.visit_adds`: what one file adds.
* `Session.foldl_visit_adds`: what the files of a run add.
* `files_apart`: a run over several files, and the runs over each of them.
-/

namespace Playthrough.Command

open Reading

namespace Session

/-- What was printed and counted in `first`, and then in `second`, is what was printed and counted in
    `whole`. The stopwatch is left aside. -/
structure Adds (first second whole : Session) : Prop where
  stdout : whole.stdout = first.stdout ++ second.stdout
  stderr : whole.stderr = first.stderr ++ second.stderr
  failures : whole.failures = first.failures + second.failures

/-- What is added in two steps is added in one. -/
theorem Adds.assoc {first second third begun rest whole : Session} (h : Adds first second begun)
    (h' : Adds begun third whole) (hrest : Adds second third rest) : Adds first rest whole where
  stdout := by rw [h'.stdout, h.stdout, hrest.stdout, String.append_assoc]
  stderr := by rw [h'.stderr, h.stderr, hrest.stderr, String.append_assoc]
  failures := by rw [h'.failures, h.failures, hrest.failures, Nat.add_assoc]

/-- Several sessions one after the other. -/
def sum (sessions : List Session) : Session where
  stdout := String.join (sessions.map stdout)
  stderr := String.join (sessions.map stderr)
  failures := (sessions.map failures).sum

theorem sum_cons (session : Session) (sessions : List Session) :
    Adds session (sum sessions) (sum (session :: sessions)) where
  stdout := String.join_cons
  stderr := String.join_cons
  failures := List.sum_cons

theorem sum_failures_pos (sessions : List Session) :
    0 < (sum sessions).failures ↔ ∃ session ∈ sessions, 0 < session.failures := by
  induction sessions with
  | nil => simp [sum]
  | cons session sessions ih =>
    rw [(sum_cons session sessions).failures, Nat.add_pos_iff_pos_or_pos, ih]
    simp

/-! ## What a file adds -/

section

variable (world : World) (options : Options) (settings : Settings Float)

/-- What a file adds to a session does not depend on the session. -/
theorem visit_adds (session : Session) (file : String) :
    Adds session (visit world options settings {} file)
      (visit world options settings session file) := by
  unfold visit
  dsimp only
  cases world.report options settings file with
  | ok report => exact ⟨by simp [print, record], by simp [print, record], rfl⟩
  | error failure => exact ⟨by simp [complain, record], by simp [complain, record], rfl⟩

/-- The files of a run add what each of them adds. -/
theorem foldl_visit_adds (files : List String) (session : Session) :
    Adds session (sum (files.map (visit world options settings {})))
      (files.foldl (visit world options settings) session) := by
  induction files generalizing session with
  | nil => exact ⟨String.append_empty.symm, String.append_empty.symm, rfl⟩
  | cons file files ih =>
    have hfile := visit_adds world options settings session file
    exact hfile.assoc (ih _) (sum_cons _ _)

end

/-- What a run leaves behind is what was added to the session that it started with. -/
theorem Adds.finish {timing : Bool} {second whole : Session} (h : Adds (start timing) second whole) :
    (whole.finish timing).stdout = second.stdout ∧
      (timing = false → (whole.finish timing).stderr = second.stderr) ∧
      ((whole.finish timing).status ≠ 0 ↔ 0 < second.failures) := by
  obtain ⟨hout, herr, hcount⟩ := h
  have hcount : whole.failures = second.failures := hcount.trans (Nat.zero_add _)
  refine ⟨?_, ?_, ?_⟩
  · rw [Session.finish, hout]
    exact String.empty_append
  · rintro rfl
    rw [Session.finish, herr]
    simp [start]
  · rw [Session.finish, hcount]
    simp [Nat.pos_iff_ne_zero]

end Session

variable {world : World} {options : Options} {settings : Settings Float}

theorem run_eq_finish (hsettings : world.runSettings options = .ok settings) (files : List String) :
    run world { options with files } =
      (files.foldl (Session.visit world options settings)
        (Session.start (world.wantsTimings options))).finish (world.wantsTimings options) := by
  unfold run
  rw [show world.runSettings { options with files } = .ok settings from hsettings]
  rfl

theorem run_alone (hsettings : world.runSettings options = .ok settings) (file : String) :
    let alone := run world { options with files := [file] }
    let visited := Session.visit world options settings {} file
    alone.stdout = visited.stdout ∧
      (world.wantsTimings options = false → alone.stderr = visited.stderr) ∧
      (alone.status ≠ 0 ↔ 0 < visited.failures) := by
  dsimp only
  rw [run_eq_finish hsettings]
  exact (Session.visit_adds world options settings _ file).finish

/-- **Files are reported on apart.** When the settings of a run can be loaded, what it prints about a
    list of files is what the runs over the single files print, one after the other; on the error
    output this holds unless timings are wanted, which are told of all files together. The run fails
    if and only if one of the single runs does. -/
theorem files_apart (hsettings : world.runSettings options = .ok settings) (files : List String) :
    let whole := run world { options with files }
    let alone := fun file => run world { options with files := [file] }
    whole.stdout = String.join (files.map fun file => (alone file).stdout) ∧
    (world.wantsTimings options = false →
      whole.stderr = String.join (files.map fun file => (alone file).stderr)) ∧
    (whole.status ≠ 0 ↔ ∃ file ∈ files, (alone file).status ≠ 0) := by
  dsimp only
  have hadds := Session.foldl_visit_adds world options settings files
    (.start (world.wantsTimings options))
  obtain ⟨hout, herr, hstatus⟩ := hadds.finish
  rw [run_eq_finish hsettings files]
  refine ⟨?_, fun htiming => ?_, ?_⟩
  · rw [hout]
    show String.join ((files.map _).map Session.stdout) = _
    rw [List.map_map]
    exact congrArg String.join
      (List.map_congr_left fun file _ => (run_alone hsettings file).1.symm)
  · rw [herr htiming]
    show String.join ((files.map _).map Session.stderr) = _
    rw [List.map_map]
    exact congrArg String.join
      (List.map_congr_left fun file _ => ((run_alone hsettings file).2.1 htiming).symm)
  · rw [hstatus, Session.sum_failures_pos]
    constructor
    · rintro ⟨_, hmem, hpos⟩
      obtain ⟨file, hfile, rfl⟩ := List.mem_map.1 hmem
      exact ⟨file, hfile, (run_alone hsettings file).2.2.2 hpos⟩
    · rintro ⟨file, hfile, hfails⟩
      exact ⟨_, List.mem_map_of_mem hfile, (run_alone hsettings file).2.2.1 hfails⟩

/-- A desk with two scripts, one of which continues a name that there is not. -/
def deskWorld : World where
  read path :=
    if path = "play" then .ok "scene desk\n".toUTF8
    else if path = "draft" then .ok "jump .end\n".toUTF8
    else .error .missing
  environment _ := none

/-- Of three files only the second can be reported on, and the run goes through all of them. -/
theorem files_apart_desk :
    ∃ settings, deskWorld.runSettings {} = .ok settings ∧ deskWorld.wantsTimings {} = false ∧
      let whole := run deskWorld { files := ["draft", "play", "notes"] }
      let alone := fun file => run deskWorld { files := [file] }
      whole.stdout = String.join [(alone "draft").stdout, (alone "play").stdout,
        (alone "notes").stdout] ∧
      whole.stderr = String.join [(alone "draft").stderr, (alone "play").stderr,
        (alone "notes").stderr] ∧
      (alone "draft").status = 1 ∧ whole.status ≠ 0 := by
  have hloads : (deskWorld.runSettings {}).toOption.isSome = true := by decide +kernel
  have htiming : deskWorld.wantsTimings {} = false := by decide +kernel
  have hdraft : (run deskWorld { files := ["draft"] }).status = 1 := by decide +kernel
  cases hsettings : deskWorld.runSettings {} with
  | error failure =>
    rw [hsettings] at hloads
    cases hloads
  | ok settings =>
    obtain ⟨hout, herr, hstatus⟩ := files_apart hsettings ["draft", "play", "notes"]
    refine ⟨settings, rfl, htiming, hout, herr htiming, hdraft, ?_⟩
    exact hstatus.2 ⟨"draft", List.mem_cons_self, by rw [hdraft]; decide⟩

end Playthrough.Command
