import KernelMenu.CommandLine

/-!
The flag for notes among the arguments. Arguments are read in steps that refuse the flag when it
comes again and do not look at it otherwise; so it changes nothing else in the request that is read,
wherever it stands.
-/

namespace KernelMenu.CommandLine

theorem bind_eq_ok_iff {Fault Value Result : Type} {first : Except Fault Value}
    {second : Value → Except Fault Result} {result : Result} :
    (first >>= second) = .ok result ↔ ∃ value, first = .ok value ∧ second value = .ok result := by
  cases first with
  | error fault => exact iff_of_false nofun (by rintro ⟨value, ⟨⟩, -⟩)
  | ok value =>
      constructor
      · exact fun found => ⟨value, rfl, found⟩
      · rintro ⟨_, ⟨⟩, found⟩
        exact found

theorem same_first_step {Fault Value Result : Type} {first : Except Fault Value}
    {second second' : Value → Except Fault Result} {result result' : Result}
    (run : (first >>= second) = .ok result) (run' : (first >>= second') = .ok result') :
    ∃ value, second value = .ok result ∧ second' value = .ok result' := by
  obtain ⟨value, found, rest⟩ := bind_eq_ok_iff.1 run
  obtain ⟨value', found', rest'⟩ := bind_eq_ok_iff.1 run'
  obtain rfl := Except.ok.inj (found.symm.trans found')
  exact ⟨value, rest, rest'⟩

namespace Request

def verboseFlags : List String := ["-v", "--verbose"]

theorem is_option_of_flag : ∀ flag ∈ verboseFlags, isOption flag = true :=
  List.all_eq_true.1 rfl

def loud (request : Request) : Request := { request with verbose := true }

/-- What is read with the flag is what is read without it, if the flag is not read again. -/
def Neutral (step : Request → Except Stop Request) : Prop :=
  ∀ request result, request.verbose = false →
    (step request.loud = .ok result ↔
      ∃ other, step request = .ok other ∧ other.verbose = false ∧ result = other.loud)

namespace Neutral

theorem done : Neutral .ok := by
  intro request result quiet
  constructor
  · rintro ⟨⟩
    exact ⟨request, rfl, quiet, rfl⟩
  · rintro ⟨other, ⟨⟩, -, rfl⟩
    rfl

theorem stopped (stop : Stop) : Neutral fun _ => .error stop :=
  fun _ _ _ => iff_of_false nofun (by rintro ⟨other, ⟨⟩, -, -⟩)

theorem congr {step step' : Request → Except Stop Request} (neutral : Neutral step)
    (same : ∀ request, step' request = step request) : Neutral step' := by
  intro request result quiet
  rw [same, same]
  exact neutral request result quiet

theorem bind {first second : Request → Except Stop Request} (neutral : Neutral first)
    (neutral' : Neutral second) : Neutral fun request => first request >>= second := by
  intro request result quiet
  simp only [bind_eq_ok_iff]
  constructor
  · rintro ⟨middle, read, read'⟩
    obtain ⟨other, found, quiet', rfl⟩ := (neutral request middle quiet).1 read
    obtain ⟨last, found', quiet'', rfl⟩ := (neutral' other result quiet').1 read'
    exact ⟨last, ⟨other, found, found'⟩, quiet'', rfl⟩
  · rintro ⟨last, ⟨other, found, found'⟩, quiet', rfl⟩
    -- The second step does not take the flag away.
    have quiet'' : other.verbose = false := by
      cases shown : other.verbose with
      | false => rfl
      | true =>
          have same : other = loud { other with verbose := false } := by
            rw [loud, ← shown]
          rw [same] at found'
          obtain ⟨_, -, -, rfl⟩ := (neutral' _ last rfl).1 found'
          exact nomatch quiet'
    exact ⟨other.loud, (neutral request _ quiet).2 ⟨other, found, quiet'', rfl⟩,
      (neutral' other _ quiet'').2 ⟨last, found', quiet', rfl⟩⟩

theorem said (before : Request → Bool) (say : Request → Request)
    (same : ∀ request, before request.loud = before request)
    (carried : ∀ request, say request.loud = (say request).loud)
    (kept : ∀ request, (say request).verbose = request.verbose) :
    Neutral fun request => if before request then .error .refused else .ok (say request) := by
  intro request result quiet
  dsimp only
  rw [same, carried]
  cases before request with
  | true => exact stopped .refused request result quiet
  | false =>
      have quiet' := (kept request).trans quiet
      exact done (say request) result quiet'

theorem with_path (path : String) : Neutral fun request => request.withPath path :=
  said (·.path.isSome) ({ · with path := some path }) (fun _ => rfl) (fun _ => rfl) fun _ => rfl

theorem with_value (option : ValueOption) (value : String) :
    Neutral fun request => request.withValue option value := by
  cases option with
  | format =>
      exact said (·.format.isSome) ({ · with format := some value }) (fun _ => rfl) (fun _ => rfl)
        fun _ => rfl
  | config =>
      exact said (·.config.isSome) ({ · with config := some value }) (fun _ => rfl) (fun _ => rfl)
        fun _ => rfl

theorem with_verbose : Neutral Request.withVerbose := by
  intro request result quiet
  refine iff_of_false nofun ?_
  rintro ⟨other, read, quiet', -⟩
  rw [Request.withVerbose, quiet] at read
  obtain rfl := Except.ok.inj read
  exact nomatch quiet'

/-- Whatever is read behind an argument with options, it is read with the flag as without it. -/
def Starts (start : Request → Except Stop Pending) : Prop :=
  ∀ next : Option ValueOption → Request → Except Stop Request, (∀ waiting, Neutral (next waiting)) →
    Neutral fun request => start request >>= fun pending => next pending.2 pending.1

theorem Starts.ready (waiting : Option ValueOption) :
    Starts fun request => .ok (request, waiting) := fun _ neutral => neutral waiting

theorem Starts.stopped (stop : Stop) : Starts fun _ => .error stop :=
  fun _ _ => Neutral.stopped stop

theorem Starts.after {step : Request → Except Stop Request} {start : Request → Except Stop Pending}
    (neutral : Neutral step) (starts : Starts start) :
    Starts fun request => step request >>= start := by
  intro next neutral'
  apply (neutral.bind (starts next neutral')).congr
  intro request
  exact bind_assoc _ _ _

theorem starts_valued (option : ValueOption) (value : String) :
    Starts fun request => request.withValue option value >>= fun request => .ok (request, none) :=
  .after (with_value option value) (.ready none)

theorem starts_attached (option : ValueOption) (text : List Char) :
    Starts fun request => readShort.attached request option text := by
  unfold readShort.attached
  split
  · exact .ready (some option)
  · exact starts_valued option _
  · exact starts_valued option _

theorem starts_short (text : List Char) : Starts fun request => request.readShort text := by
  induction text with
  | nil => exact .ready none
  | cons char text induction =>
      unfold readShort
      split
      case h_1 => exact .ready none
      case h_2 => exact .stopped .help
      case h_3 rest same =>
        obtain ⟨-, rfl⟩ := List.cons.inj same
        exact .after with_verbose induction
      case h_4 => exact starts_attached .format _
      case h_5 => exact starts_attached .config _
      case h_6 => exact .stopped .refused

theorem starts_long (text : List Char) : Starts fun request => request.readLong text := by
  unfold readLong
  dsimp only
  split
  · exact .ready _
  · exact starts_valued _ _
  · split
    · exact .after with_verbose (.ready none)
    · split <;> exact .stopped _
  · exact .stopped _

end Neutral

open Neutral

theorem resume_eq_bind (state : Except Stop Pending) (arguments : List String) :
    read.resume state arguments = state >>= fun pending => read.resume (.ok pending) arguments := by
  cases state with
  | error stop =>
      rw [read.resume]
      rfl
  | ok pending => rfl

theorem resume_ready (request : Request) (arguments : List String) :
    read.resume (.ok (request, none)) arguments = request.read arguments := by
  rw [read.resume]

theorem resume_waiting (request : Request) (option : ValueOption) (value : String)
    (arguments : List String) :
    read.resume (.ok (request, some option)) (value :: arguments) =
      if isOption value then .error .refused
      else request.withValue option value >>= fun request => request.read arguments := by
  rw [read.resume]
  cases request.withValue option value <;> rfl

/-- An argument makes paths of all that follow, has options, or is a path. -/
theorem read_cases (argument : String) :
    (∀ request arguments, read request (argument :: arguments) = request.readPaths arguments) ∨
    (∃ start, Starts start ∧ ∀ request arguments, read request (argument :: arguments) =
      start request >>= fun pending => read.resume (.ok pending) arguments) ∨
    ∀ request arguments, read request (argument :: arguments) =
      request.withPath argument >>= fun request => request.read arguments := by
  have whole : ∀ request arguments, read request (argument :: arguments) = _ :=
    fun request arguments => read.eq_def request (argument :: arguments)
  dsimp only at whole
  split at whole
  case h_1 => exact .inl whole
  case h_2 text _ _ =>
    refine .inr (.inl ⟨_, starts_long text, fun request arguments => ?_⟩)
    rw [whole, resume_eq_bind]
  case h_3 char text _ _ _ =>
    refine .inr (.inl ⟨_, starts_short (char :: text), fun request arguments => ?_⟩)
    rw [whole, resume_eq_bind]
  case h_4 =>
    refine .inr (.inr fun request arguments => ?_)
    rw [whole]
    cases request.withPath argument <;> rfl

theorem neutral_paths (arguments : List String) :
    Neutral fun request => request.readPaths arguments := by
  induction arguments with
  | nil => exact done
  | cons path arguments induction => exact (Neutral.with_path path).bind induction

theorem neutral_read (arguments : List String) : Neutral fun request => request.read arguments := by
  induction length : arguments.length using Nat.strongRecOn generalizing arguments with
  | ind count induction =>
  subst length
  cases arguments with
  | nil =>
      apply done.congr
      intro request
      rw [read]
  | cons argument arguments =>
      have others := induction _ (Nat.lt_succ_self _) arguments rfl
      have resumes : ∀ waiting, Neutral fun request =>
          read.resume (.ok (request, waiting)) arguments := by
        rintro (_ | option)
        · exact others.congr fun request => resume_ready request arguments
        · cases arguments with
          | nil =>
              apply (Neutral.stopped .refused).congr
              intro request
              rw [read.resume]
          | cons value arguments =>
              refine congr ?_ fun request => resume_waiting request option value arguments
              split
              · exact Neutral.stopped .refused
              · apply (Neutral.with_value option value).bind
                exact induction _ (by simp only [List.length_cons]; omega) arguments rfl
      rcases read_cases argument with paths | ⟨start, starts, options⟩ | path
      · exact (neutral_paths arguments).congr fun request => paths request arguments
      · exact (starts _ resumes).congr fun request => options request arguments
      · exact ((Neutral.with_path argument).bind others).congr fun request => path request arguments

/-- Both spellings of the flag do the same. -/
theorem read_flag {flag : String} (isFlag : flag ∈ verboseFlags) (request : Request)
    (arguments : List String) : request.read (flag :: arguments) =
      request.withVerbose >>= fun request => request.read arguments := by
  have started : request.read (flag :: arguments) =
      (request.withVerbose >>= fun request => .ok (request, none)) >>= fun pending =>
        read.resume (.ok pending) arguments := by
    rw [← resume_eq_bind, read]
    simp only [verboseFlags, List.mem_cons, List.not_mem_nil, or_false] at isFlag
    rcases isFlag with rfl | rfl
    · rfl
    · rfl
  rw [started, bind_assoc]
  cases request.withVerbose with
  | error stop => rfl
  | ok request => exact resume_ready request arguments

theorem path_of_with_path {request result : Request} {path : String}
    (said : request.withPath path = .ok result) :
    request.path = none ∧ result.path = some path := by
  unfold withPath at said
  split at said
  case isTrue => exact nomatch said
  case isFalse free =>
    obtain rfl := Except.ok.inj said
    exact ⟨by simpa using free, rfl⟩

theorem arguments_of_paths {request result : Request} {arguments : List String}
    (read : request.readPaths arguments = .ok result) :
    arguments = [] ∧ result = request ∨ ∃ path, arguments = [path] ∧ request.path = none := by
  cases arguments with
  | nil => exact .inl ⟨rfl, (Except.ok.inj read).symm⟩
  | cons path arguments =>
      obtain ⟨middle, said, read⟩ := bind_eq_ok_iff.1 read
      obtain ⟨free, taken⟩ := path_of_with_path said
      cases arguments with
      | nil => exact .inr ⟨path, rfl, free⟩
      | cons other arguments =>
          obtain ⟨_, said', -⟩ := bind_eq_ok_iff.1 read
          rw [(path_of_with_path said').1] at taken
          exact nomatch taken

theorem paths_not_inserted {request other result : Request} {front back : List String}
    {flag : String} (read : request.readPaths (front ++ back) = .ok other)
    (path : other.path ≠ none) :
    request.readPaths (front ++ flag :: back) ≠ .ok result := by
  intro read'
  rcases arguments_of_paths read' with ⟨nothing, -⟩ | ⟨only, single, free⟩
  · simp at nothing
  · have nothing : front ++ back = [] := by
      have lengths := congrArg List.length single
      simp only [List.length_append, List.length_cons, List.length_nil] at lengths
      apply List.length_eq_zero_iff.1
      rw [List.length_append]
      omega
    rw [nothing] at read
    obtain rfl := Except.ok.inj read
    exact path free

/-- Wherever the flag is put among arguments that say a path, it is read as the flag if the
arguments are read, and it is the only one. -/
theorem read_inserted {flag : String} (isFlag : flag ∈ verboseFlags)
    {request other result : Request} {front back : List String}
    (read' : request.read (front ++ back) = .ok other) (path : other.path ≠ none)
    (read'' : request.read (front ++ flag :: back) = .ok result) :
    other.verbose = false ∧ result = other.loud := by
  induction length : front.length using Nat.strongRecOn generalizing front request with
  | ind count induction =>
  subst length
  cases front with
  | nil =>
      rw [List.nil_append, read_flag isFlag] at read''
      obtain ⟨_, taken, read''⟩ := bind_eq_ok_iff.1 read''
      unfold withVerbose at taken
      split at taken
      case isTrue => exact nomatch taken
      case isFalse quiet =>
        obtain rfl := Except.ok.inj taken
        obtain ⟨_, found, quiet', rfl⟩ :=
          (neutral_read back request result (by simpa using quiet)).1 read''
        obtain rfl := Except.ok.inj (found.symm.trans read')
        exact ⟨quiet', rfl⟩
  | cons argument front =>
      rw [List.cons_append] at read' read''
      rcases read_cases argument with paths | ⟨start, -, options⟩ | isPath
      · rw [paths] at read' read''
        exact absurd read'' (paths_not_inserted read' path)
      · rw [options] at read' read''
        obtain ⟨⟨middle, _ | option⟩, read', read''⟩ := same_first_step read' read''
        · rw [resume_ready] at read' read''
          exact induction _ (Nat.lt_succ_self _) read' read'' rfl
        · -- The option takes the next argument, which must not be the flag.
          cases front with
          | nil =>
              have dashed : isOption flag = true := is_option_of_flag flag isFlag
              rw [List.nil_append, resume_waiting, if_pos dashed] at read''
              exact nomatch read''
          | cons value front =>
              rw [List.cons_append, resume_waiting] at read' read''
              split at read'
              case isTrue => exact nomatch read'
              case isFalse free =>
                rw [if_neg free] at read''
                obtain ⟨last, read', read''⟩ := same_first_step read' read''
                exact induction _ (by simp only [List.length_cons]; omega) read' read'' rfl
      · rw [isPath] at read' read''
        obtain ⟨middle, read', read''⟩ := same_first_step read' read''
        exact induction _ (Nat.lt_succ_self _) read' read'' rfl

end Request

end KernelMenu.CommandLine
