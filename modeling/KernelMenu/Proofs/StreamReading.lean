import Mathlib.Data.List.Basic
import KernelMenu.Input

/-!
Sources that come in steps. A stream comes to its first failure or to all bytes up to its end, and
that alone decides what is read from it: neither the sizes of its chunks nor the interruptions
between them make a difference, and a character may be cut anywhere.
-/

namespace KernelMenu

namespace ReadStep

def bytes : ReadStep → ByteArray
  | data bytes => bytes
  | interrupted | failure _ => .empty

/-- The bytes of steps in a row. -/
def joined (steps : List ReadStep) : ByteArray :=
  steps.foldr (fun step rest => step.bytes ++ rest) .empty

theorem joined_cons (step : ReadStep) (steps : List ReadStep) :
    joined (step :: steps) = step.bytes ++ joined steps := rfl

/-- The step is neither a failure nor the end of the stream. -/
def goesOn : ReadStep → Bool
  | data bytes => !bytes.isEmpty
  | interrupted => true
  | failure _ => false

inductive AtEnd : List ReadStep → Prop
  | done : AtEnd []
  | empty {steps : List ReadStep} : AtEnd (.data .empty :: steps)

/-- A stream breaks off with the message of a failure, or ends with all bytes before its end. What
comes behind does not count. -/
inductive ComesTo : List ReadStep → Except String ByteArray → Prop
  | broken (front : List ReadStep) (message : String) (back : List ReadStep) :
      (∀ step ∈ front, step.goesOn = true) →
      ComesTo (front ++ .failure message :: back) (.error message)
  | ended (front back : List ReadStep) :
      (∀ step ∈ front, step.goesOn = true) → AtEnd back →
      ComesTo (front ++ back) (.ok (joined front))

/-- One step puts its bytes in front of all that the others give, and keeps their failure. -/
theorem collect_cons {step : ReadStep} (goesOn : step.goesOn = true) (steps : List ReadStep) :
    collect (step :: steps) = (collect steps).map (step.bytes ++ ·) := by
  cases step with
  | data bytes =>
      have filled : ¬ bytes.isEmpty = true := by simpa [ReadStep.goesOn] using goesOn
      rw [collect, if_neg filled]
      cases collect steps <;> rfl
  | interrupted =>
      rw [collect]
      cases collect steps with
      | ok rest => simp [Except.map, bytes]
      | error fault => rfl
  | failure message => exact nomatch goesOn

theorem collect_append {front : List ReadStep} (goOn : ∀ step ∈ front, step.goesOn = true)
    (back : List ReadStep) : collect (front ++ back) = (collect back).map (joined front ++ ·) := by
  induction front with
  | nil =>
      rw [List.nil_append]
      cases collect back with
      | ok rest => simp [Except.map, joined]
      | error fault => rfl
  | cons step front induction =>
      have first := goOn step List.mem_cons_self
      have others := induction fun other member => goOn other (List.mem_cons_of_mem _ member)
      rw [List.cons_append, collect_cons first, others]
      cases collect back with
      | ok rest =>
          rw [joined_cons, Except.map, Except.map, Except.map, ByteArray.append_assoc]
      | error fault => rfl

theorem collect_at_end {steps : List ReadStep} (atEnd : AtEnd steps) :
    collect steps = .ok .empty := by
  cases atEnd with
  | done => rfl
  | empty =>
      rw [collect, if_pos]
      rfl

theorem collect_of_comes_to {steps : List ReadStep} {outcome : Except String ByteArray}
    (comes : ComesTo steps outcome) : collect steps = outcome.mapError .failed := by
  cases comes with
  | broken _ _ _ goOn =>
      rw [collect_append goOn, collect]
      rfl
  | ended _ _ goOn atEnd =>
      rw [collect_append goOn, collect_at_end atEnd]
      change Except.ok (joined _ ++ ByteArray.empty) = _
      rw [ByteArray.append_empty]
      rfl

theorem ComesTo.cons {step : ReadStep} {steps : List ReadStep} {outcome : Except String ByteArray}
    (goesOn : step.goesOn = true) (comes : ComesTo steps outcome) :
    ∃ outcome, ComesTo (step :: steps) outcome := by
  cases comes with
  | broken front message back goOn =>
      exact ⟨_, .broken (step :: front) message back (List.forall_mem_cons.2 ⟨goesOn, goOn⟩)⟩
  | ended front back goOn atEnd =>
      exact ⟨_, .ended (step :: front) back (List.forall_mem_cons.2 ⟨goesOn, goOn⟩) atEnd⟩

theorem ComesTo.unique {steps : List ReadStep} {outcome outcome' : Except String ByteArray}
    (comes : ComesTo steps outcome) (comes' : ComesTo steps outcome') : outcome = outcome' := by
  have same := (collect_of_comes_to comes).symm.trans (collect_of_comes_to comes')
  cases outcome <;> cases outcome' <;> cases same <;> rfl

/-- Every stream breaks off or ends. -/
theorem exists_comes_to (steps : List ReadStep) : ∃ outcome, ComesTo steps outcome := by
  induction steps with
  | nil => exact ⟨_, .ended [] [] nofun .done⟩
  | cons step steps induction =>
      obtain ⟨outcome, comes⟩ := induction
      cases step with
      | data bytes =>
          by_cases empty : bytes = .empty
          · rw [empty]
            exact ⟨_, .ended [] _ nofun .empty⟩
          · refine comes.cons ?_
            have filled := mt ByteArray.size_eq_zero_iff.1 empty
            simpa [goesOn, ByteArray.isEmpty] using filled
      | interrupted => exact comes.cons rfl
      | failure message => exact ⟨_, .broken [] message steps nofun⟩

/-- An interruption can be left out anywhere. -/
theorem collect_interrupted (front back : List ReadStep) :
    collect (front ++ .interrupted :: back) = collect (front ++ back) := by
  induction front with
  | nil => rfl
  | cons step front induction => cases step <;> simp only [List.cons_append, collect, induction]

end ReadStep

theorem decode_text_iff {bytes : ByteArray} {source : String} :
    decodeText bytes = .ok source ↔ source.toUTF8 = bytes := by
  unfold decodeText String.fromUTF8?
  by_cases valid : bytes.IsValidUTF8
  · rw [dif_pos valid]
    constructor
    · rintro ⟨⟩
      rfl
    · rintro rfl
      rfl
  · rw [dif_neg valid]
    refine iff_of_false nofun ?_
    rintro rfl
    exact valid source.isValidUTF8

theorem decode_text_not_text {bytes : ByteArray}
    (invalid : ∀ source : String, source.toUTF8 ≠ bytes) : decodeText bytes = .error .notText := by
  cases decoded : decodeText bytes with
  | ok source => exact absurd (decode_text_iff.1 decoded) (invalid source)
  | error fault =>
      unfold decodeText at decoded
      split at decoded
      · exact nomatch decoded
      · exact decoded.symm

namespace Root

open ReadStep

/-- How the bytes of a stream arrive does not matter. Every stream breaks off or ends; a failure
before the end is the error, whatever has been read; otherwise the bytes are read as a file of these
bytes is, and interruptions count nowhere. -/
theorem parse_stream (steps : List ReadStep) :
    (∃! outcome, ComesTo steps outcome) ∧
    (∀ message, ComesTo steps (.error message) →
      parseStream steps = .error (.unreadable (.failed message))) ∧
    (∀ bytes, ComesTo steps (.ok bytes) →
      (∀ source : String, source.toUTF8 = bytes →
        parseStream steps = (parse source).mapError .rejected) ∧
      ((∀ source : String, source.toUTF8 ≠ bytes) →
        parseStream steps = .error (.unreadable .notText) ∧
        InputFault.notText.message = "stream did not contain valid UTF-8") ∧
      parseFile (some bytes) = parseStream steps) ∧
    ∀ front back, steps = front ++ .interrupted :: back →
      parseStream (front ++ back) = parseStream steps := by
  refine ⟨?_, ?_, ?_, ?_⟩
  · obtain ⟨outcome, comes⟩ := exists_comes_to steps
    exact ⟨outcome, comes, fun other comes' => comes'.unique comes⟩
  · intro message comes
    rw [parseStream, collect_of_comes_to comes]
    rfl
  · intro bytes comes
    have whole : parseStream steps = parseText (decodeText bytes) := by
      rw [parseStream, collect_of_comes_to comes]
      rfl
    refine ⟨fun source same => ?_, fun invalid => ⟨?_, rfl⟩, whole.symm⟩
    · rw [whole, decode_text_iff.2 same, parseText]
      cases parse source <;> rfl
    · rw [whole, decode_text_not_text invalid]
      rfl
  · rintro front back rfl
    rw [parseStream, parseStream, collect_interrupted]

def cutTitle : List ReadStep :=
  [.data ⟨#[0x6d, 0x65, 0x6e, 0x75, 0x22, 0xc3]⟩, .interrupted, .data ⟨#[0xa9, 0x22, 0x7b, 0x7d]⟩]

/-- A failure behind the end does not count; one before it does, although half a letter has been
read by then. -/
theorem parse_stream_of_title :
    parseStream (cutTitle ++ [.data .empty, .failure "late"]) =
      .ok (.ofChildren [.menu ⟨"é", .yes⟩ []]) ∧
    parseStream (cutTitle.take 2 ++ .failure "torn" :: cutTitle) =
      .error (.unreadable (.failed "torn")) := by
  have goOn : ∀ step ∈ cutTitle, step.goesOn = true := List.all_eq_true.1 (by decide)
  have text : "menu\"é\"\x7b\x7d".toUTF8 = joined cutTitle := by decide
  have parsed : parse "menu\"é\"\x7b\x7d" = .ok (.ofChildren [.menu ⟨"é", .yes⟩ []]) := by
    decide +kernel
  constructor
  · have comes : ComesTo (cutTitle ++ [.data .empty, .failure "late"]) (.ok (joined cutTitle)) :=
      .ended cutTitle _ goOn .empty
    rw [((parse_stream _).2.2.1 _ comes).1 _ text, parsed]
    rfl
  · have goOn' : ∀ step ∈ cutTitle.take 2, step.goesOn = true := List.all_eq_true.1 (by decide)
    exact (parse_stream _).2.1 _ (.broken _ _ _ goOn')

end Root

end KernelMenu
