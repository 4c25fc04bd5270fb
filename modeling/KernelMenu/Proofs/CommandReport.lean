import KernelMenu.Proofs.ArgumentReading
import KernelMenu.Proofs.StreamReading

/-!
What a run of the command line reports about a file is what the library makes of it. A tree is shown
by another way than tokens are, and both ways come to the same output; and notes are not part of it.
-/

namespace KernelMenu.CommandLine

theorem render_output (file : Option ByteArray) (view : View) (options : RenderOptions) :
    (render file view options).2.toOption = (view.renderFile file options).toOption := by
  unfold render
  split
  case h_1 => cases view.renderFile file options <;> rfl
  case h_2 tree =>
    unfold View.renderFile Root.parseFile Root.parseText
    cases readText file with
    | error fault => rfl
    | ok source =>
        dsimp only
        rw [View.render, tree]
        cases Root.parse source with
        | error error => rfl
        | ok root =>
            dsimp only
            cases root.render view.format options <;> rfl

theorem of_arguments_iff {arguments : List String} {path : String} {request : Request} :
    Invocation.ofArguments arguments = some (.parse path request) ↔
      ∃ rest, arguments = "parse" :: rest ∧ Request.empty.read rest = .ok request ∧
        request.path = some path := by
  constructor
  · intro accepted
    unfold Invocation.ofArguments at accepted
    split at accepted
    case h_2 rest =>
      refine ⟨rest, rfl, ?_⟩
      split at accepted
      case h_1 other read =>
        obtain ⟨_, said, same⟩ := Option.map_eq_some_iff.1 accepted
        obtain ⟨rfl, rfl⟩ := Invocation.parse.inj same
        exact ⟨read, said⟩
      all_goals cases accepted
    case h_5 => split at accepted <;> cases accepted
    case h_6 =>
      obtain ⟨_, -, same⟩ := Option.map_eq_some_iff.1 accepted
      cases same
    case h_7 =>
      split at accepted
      · cases accepted
      · split at accepted <;> cases accepted
    all_goals cases accepted
  · rintro ⟨rest, rfl, read, said⟩
    rw [Invocation.ofArguments, read]
    dsimp only
    rw [said]
    rfl

namespace Report

/-- There is no output, and the exit code says that something is wrong. -/
def Fails (report : Report) : Prop := report.exitCode = 1 ∧ report.output = ""

/-- All but the notes is the same. -/
def SameResult (report other : Report) : Prop :=
  report.exitCode = other.exitCode ∧ report.output = other.output

end Report

theorem end_line_of_ended {output : String} (ended : ∃ text, output = text ++ "\n") :
    endLine output = output := by
  obtain ⟨text, rfl⟩ := ended
  rw [endLine, if_pos (by simp)]

theorem end_line_of_open {output : String} (notEnded : ¬ ∃ text, output = text ++ "\n") :
    endLine output = output ++ "\n" := by
  rw [endLine, if_neg]
  intro last
  apply notEnded
  obtain ⟨front, whole⟩ := List.getLast?_eq_some_iff.1 last
  refine ⟨String.ofList front, String.toList_injective ?_⟩
  simpa using whole

section Run

variable {path : String} {request : Request} {files : Files} {settings : Settings} {view : View}

theorem fails_without_settings {error : SettingsError}
    (failed : (request.layers files).build = .error error) :
    (runParse path request files).Fails := by
  rw [runParse, failed]
  exact ⟨rfl, rfl⟩

theorem fails_without_view (built : (request.layers files).build = .ok settings) {error : ViewError}
    (failed : View.ofName settings.format = .error error) :
    (runParse path request files).Fails := by
  rw [runParse, built]
  dsimp only
  rw [failed]
  exact ⟨rfl, rfl⟩

/-- Once there is a view, the run goes by what is shown in it. -/
theorem run_shows (path : String) (built : (request.layers files).build = .ok settings)
    (named : View.ofName settings.format = .ok view) :
    match (view.renderFile (files path) settings.renderOptions).toOption with
    | some output =>
        (runParse path request files).exitCode = 0 ∧
          (runParse path request files).output = endLine output
    | none => (runParse path request files).Fails := by
  rw [← render_output, runParse, built]
  dsimp only
  rw [named]
  dsimp only
  cases (render (files path) view settings.renderOptions).2 with
  | ok output => exact ⟨rfl, rfl⟩
  | error message => exact ⟨rfl, rfl⟩

theorem run_loud (verbose : Bool) :
    (runParse path { request with verbose } files).SameResult (runParse path request files) := by
  have layers : Request.layers { request with verbose } files = request.layers files := rfl
  unfold runParse
  rw [layers]
  cases (request.layers files).build with
  | error error => exact ⟨rfl, rfl⟩
  | ok settings =>
      dsimp only
      cases View.ofName settings.format with
      | error error => exact ⟨rfl, rfl⟩
      | ok view =>
          dsimp only
          cases (render (files path) view settings.renderOptions).2 <;> exact ⟨rfl, rfl⟩

end Run

/-- A run shows what the library shows: it fails if there are no settings, no view of the name in
them, or nothing to show of the file; otherwise it prints the output and ends its last line. The
flag for notes has no part in this, wherever it stands. -/
theorem run_agrees {arguments : List String} {path : String} {request : Request}
    (accepted : Invocation.ofArguments arguments = some (.parse path request)) (files : Files) :
    (∀ error, (request.layers files).build = .error error → (run arguments files).Fails) ∧
    (∀ settings, (request.layers files).build = .ok settings →
      (∀ error, View.ofName settings.format = .error error → (run arguments files).Fails) ∧
      ∀ view, View.ofName settings.format = .ok view →
        (∀ error, view.renderFile (files path) settings.renderOptions = .error error →
          (run arguments files).Fails) ∧
        ∀ output, view.renderFile (files path) settings.renderOptions = .ok output →
          (run arguments files).exitCode = 0 ∧
          ((∃ text, output = text ++ "\n") → (run arguments files).output = output) ∧
          ((¬ ∃ text, output = text ++ "\n") → (run arguments files).output = output ++ "\n")) ∧
    (∀ arguments' verbose,
      Invocation.ofArguments arguments' = some (.parse path { request with verbose }) →
      (run arguments' files).SameResult (run arguments files)) ∧
    ∀ flag ∈ Request.verboseFlags,
      (∀ front back path' request', arguments = "parse" :: (front ++ back) →
        Invocation.ofArguments ("parse" :: (front ++ flag :: back)) =
          some (.parse path' request') →
        path' = path ∧ request' = { request with verbose := true }) ∧
      ∀ rest, arguments = "parse" :: rest → request.verbose = false →
        Invocation.ofArguments ("parse" :: flag :: rest) =
          some (.parse path { request with verbose := true }) := by
  have report : ∀ arguments request,
      Invocation.ofArguments arguments = some (.parse path request) →
      run arguments files = runParse path request files := by
    intro arguments request accepted
    rw [run, accepted]
  rw [report arguments request accepted]
  refine ⟨fun error => fails_without_settings, fun settings built => ?_, ?_, ?_⟩
  · refine ⟨fun error => fails_without_view built, fun view named => ?_⟩
    constructor
    · intro error failed
      have shows := run_shows path built named
      rwa [failed] at shows
    · intro output shown
      have shows := run_shows path built named
      rw [shown] at shows
      exact ⟨shows.1, fun ended => shows.2.trans (end_line_of_ended ended),
        fun notEnded => shows.2.trans (end_line_of_open notEnded)⟩
  · intro arguments' verbose accepted'
    rw [report _ _ accepted']
    exact run_loud verbose
  · obtain ⟨rest, rfl, read, said⟩ := of_arguments_iff.1 accepted
    intro flag isFlag
    constructor
    · rintro front back path' request' same accepted'
      obtain ⟨_, ⟨⟩, read', said'⟩ := of_arguments_iff.1 accepted'
      rw [(List.cons.inj same).2] at read
      obtain ⟨-, rfl⟩ := Request.read_inserted isFlag read (by simp [said]) read'
      exact ⟨Option.some.inj (said'.symm.trans said), rfl⟩
    · rintro _ ⟨⟩ quiet
      apply of_arguments_iff.2
      refine ⟨flag :: rest, rfl, ?_, said⟩
      rw [Request.read_flag isFlag]
      exact (Request.neutral_read rest Request.empty _ rfl).2 ⟨request, read, quiet, rfl⟩

/-- There is one file, and its last line is not ended. -/
def oneFile : Files := fun path => if path = "m" then some "config  A hex".toUTF8 else none

/-- The listing has no line feed of its own, so it gets one; the flag may stand in between. -/
theorem run_agrees_of_listing :
    Invocation.ofArguments ["parse", "-ftoken-simple", "m"] =
      some (.parse "m" ⟨some "m", some "token-simple", none, false⟩) ∧
    (run ["parse", "-ftoken-simple", "m"] oneFile).exitCode = 0 ∧
    (run ["parse", "-ftoken-simple", "m"] oneFile).output = "config A hex" ++ "\n" ∧
    (run ["parse", "-ftoken-simple", "-v", "m"] oneFile).SameResult
      (run ["parse", "-ftoken-simple", "m"] oneFile) := by
  have read : Request.empty.read ["-ftoken-simple", "m"] =
      .ok ⟨some "m", some "token-simple", none, false⟩ := by
    simp [Request.read, Request.resume_ready, Request.readShort, Request.readShort.attached,
      Request.withValue, Request.withPath, Request.empty, bind, Except.bind]
  have read' : Request.empty.read ["-ftoken-simple", "-v", "m"] =
      .ok ⟨some "m", some "token-simple", none, true⟩ := by
    simp [Request.read, Request.resume_ready, Request.readShort, Request.readShort.attached,
      Request.withValue, Request.withPath, Request.withVerbose, Request.empty, bind, Except.bind]
  have accepted := of_arguments_iff.2 ⟨_, rfl, read, rfl⟩
  have accepted' := of_arguments_iff.2 ⟨_, rfl, read', rfl⟩
  obtain ⟨-, agrees, same, -⟩ := run_agrees accepted oneFile
  have file : oneFile "m" = some "config  A hex".toUTF8 := if_pos rfl
  have decoded : decodeText "config  A hex".toUTF8 = .ok "config  A hex" := decode_text_iff.2 rfl
  have shown : View.renderFile ⟨.tokens, .simple⟩ (oneFile "m") ⟨true, "  "⟩ =
      .ok "config A hex" := by
    rw [View.renderFile, file, readText, decoded]
    decide +kernel
  have built : (Request.layers ⟨some "m", some "token-simple", none, false⟩ oneFile).build =
      .ok ⟨"token-simple", true, "  "⟩ := by decide +kernel
  obtain ⟨-, views⟩ := agrees _ built
  obtain ⟨code, -, output⟩ := (views ⟨.tokens, .simple⟩ rfl).2 _ shown
  refine ⟨accepted, code, output ?_, same _ _ accepted'⟩
  rintro ⟨front, ended⟩
  have last := congrArg (fun text => text.toList.getLast?) ended
  simp at last

end KernelMenu.CommandLine
