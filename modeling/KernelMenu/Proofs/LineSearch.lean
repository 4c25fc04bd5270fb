import KernelMenu.LineTable
import KernelMenu.Proofs.LexemePlace

/-!
The search in the table of a source finds the last line that starts at an offset or in front of it,
and never looks outside of the table.
-/

namespace KernelMenu

namespace Slot

variable {numbers : Array Nat} {sought low high : Nat}

/-- What is sought can only stand from `low` on and in front of `high`. -/
structure Narrowed (numbers : Array Nat) (sought low high : Nat) : Prop where
  order : low ≤ high
  inside : high ≤ numbers.size
  below : ∀ place number, numbers[place]? = some number → place < low → number < sought
  above : ∀ place number, numbers[place]? = some number → high ≤ place → sought < number

/-- A slot that is taken holds the number; around a free one there are smaller and greater ones. -/
def Fits (numbers : Array Nat) (sought : Nat) : Slot → Prop
  | taken index => numbers[index]? = some sought
  | free index => Narrowed numbers sought index index

def Increasing (numbers : Array Nat) : Prop :=
  ∀ place later number other : Nat, numbers[place]? = some number →
    numbers[later]? = some other → place < later → number < other

theorem increasing_of_pairwise {numbers : List Nat} (sorted : numbers.Pairwise (· < ·)) :
    Increasing numbers.toArray := by
  intro place later number other found found' before
  rw [List.getElem?_toArray] at found found'
  obtain ⟨inside, rfl⟩ := List.getElem?_eq_some_iff.1 found
  obtain ⟨inside', rfl⟩ := List.getElem?_eq_some_iff.1 found'
  exact List.pairwise_iff_getElem.1 sorted place later inside inside' before

namespace Narrowed

variable {middle number : Nat}

theorem upper (narrowed : Narrowed numbers sought low high) (increasing : Increasing numbers)
    (before : middle < high) (found : numbers[middle]? = some number) (less : number < sought) :
    Narrowed numbers sought (middle + 1) high where
  order := before
  inside := narrowed.inside
  below := by
    intro place other found' inFront
    rcases Nat.lt_or_eq_of_le (Nat.le_of_lt_succ inFront) with inFront | rfl
    · exact Nat.lt_trans (increasing place middle other number found' found inFront) less
    · rw [found] at found'
      exact Option.some.inj found' ▸ less
  above := narrowed.above

theorem lower (narrowed : Narrowed numbers sought low high) (increasing : Increasing numbers)
    (behind : low ≤ middle) (before : middle < high) (found : numbers[middle]? = some number)
    (greater : sought < number) : Narrowed numbers sought low middle where
  order := behind
  inside := Nat.le_trans (Nat.le_of_lt before) narrowed.inside
  below := narrowed.below
  above := by
    intro place other found' beyond
    rcases Nat.lt_or_eq_of_le beyond with beyond | rfl
    · exact Nat.lt_trans greater (increasing middle place number other found found' beyond)
    · rw [found] at found'
      exact Option.some.inj found' ▸ greater

end Narrowed

theorem search_fits (increasing : Increasing numbers)
    (narrowed : Narrowed numbers sought low high) :
    ∃ slot, search numbers sought low high = some slot ∧ slot.Fits numbers sought := by
  fun_induction search numbers sought low high with
  | case1 low high unfinished middle missing =>
      -- The middle lies in front of `high`, so there is a number at it.
      have inside := narrowed.inside
      have beyond := Array.getElem?_eq_none_iff.1 missing
      have halved : middle = low + (high - low) / 2 := rfl
      omega
  | case2 low high unfinished middle found => exact ⟨.taken middle, rfl, found⟩
  | case3 low high unfinished middle number found other less induction =>
      have halved : middle = low + (high - low) / 2 := rfl
      exact induction (narrowed.upper increasing (by omega) found less)
  | case4 low high unfinished middle number found other notLess induction =>
      have halved : middle = low + (high - low) / 2 := rfl
      have greater : sought < number := by omega
      exact induction (narrowed.lower increasing (by omega) (by omega) found greater)
  | case5 low high finished =>
      obtain rfl : low = high := Nat.le_antisymm narrowed.order (Nat.not_lt.1 finished)
      exact ⟨.free low, rfl, narrowed⟩

end Slot

namespace LineTable

open Slot

/-- The search ends at the line that starts last of all that do not start behind the offset. -/
theorem line_of_split {table : LineTable} {before behind : List Nat} {start offset : Nat}
    (split : table.starts = (before ++ start :: behind).toArray)
    (sorted : (before ++ start :: behind).Pairwise (· < ·)) (le : start ≤ offset)
    (later : ∀ other ∈ behind, offset < other) : table.line? offset = some before.length := by
  have increasing : Increasing table.starts := split ▸ increasing_of_pairwise sorted
  have whole : Narrowed table.starts offset 0 table.starts.size :=
    ⟨Nat.zero_le _, Nat.le_refl _, fun _ _ _ none => absurd none (Nat.not_lt_zero _),
      fun place number found beyond => by simp [beyond] at found⟩
  have own : table.starts[before.length]? = some start := by simp [split]
  have size : table.starts.size = before.length + 1 + behind.length := by
    simp [split, Nat.add_assoc, Nat.add_comm 1]
  have next : ∀ place number, table.starts[place]? = some number → before.length < place →
      offset < number := by
    intro place number found beyond
    apply later
    rw [split, List.getElem?_toArray, List.getElem?_append_right (Nat.le_of_lt beyond),
      List.getElem?_cons, if_neg (by omega)] at found
    exact List.mem_of_getElem? found
  obtain ⟨slot, found, fits⟩ := search_fits increasing whole
  rw [line?, found]
  cases slot with
  | taken index =>
      have notBefore : ¬ index < before.length := fun less =>
        absurd (increasing index before.length offset start fits own less) (by omega)
      have notBehind : ¬ before.length < index := fun less =>
        absurd (next index offset fits less) (Nat.lt_irrefl _)
      exact congrArg some (by omega)
  | free index =>
      have behindOwn : before.length < index := Nat.lt_of_not_le fun less =>
        absurd (fits.above before.length start own less) (by omega)
      have inside := fits.inside
      -- An entry between the line's own one and the slot would start early and late.
      have noGap : ¬ before.length + 1 < index := fun less => by
        obtain ⟨number, there⟩ : ∃ number, table.starts[before.length + 1]? = some number :=
          ⟨_, Array.getElem?_eq_getElem (by omega)⟩
        have early := fits.below _ number there less
        have late := next _ number there (Nat.lt_succ_self _)
        omega
      obtain rfl : index = before.length + 1 := by omega
      rfl

variable {offset : Nat}

theorem starts_from_append (front back : List Char) : startsFrom offset (front ++ back) =
    startsFrom offset front ++ startsFrom (offset + byteCount front) back := by
  induction front generalizing offset with
  | nil => rfl
  | cons char front induction =>
      rw [List.cons_append, startsFrom, startsFrom, induction, byte_count_cons, Nat.add_assoc]
      split <;> rfl

theorem starts_from_bounds {text : List Char} {start : Nat}
    (member : start ∈ startsFrom offset text) :
    offset < start ∧ start ≤ offset + byteCount text := by
  induction text generalizing offset with
  | nil => cases member
  | cons char text induction =>
      have filled := char.utf8Size_pos
      rw [byte_count_cons]
      rw [startsFrom] at member
      split at member
      · rcases List.mem_cons.1 member with rfl | member
        · omega
        · have bounds := induction member
          omega
      · have bounds := induction member
        omega

theorem starts_from_sorted (text : List Char) : (startsFrom offset text).Pairwise (· < ·) := by
  induction text generalizing offset with
  | nil => exact .nil
  | cons char text induction =>
      rw [startsFrom]
      split
      case isTrue feed =>
        refine List.pairwise_cons.2 ⟨fun start member => ?_, induction⟩
        have bounds := starts_from_bounds member
        rw [feed] at bounds
        exact bounds.1
      case isFalse => exact induction

theorem starts_from_length (text : List Char) :
    (startsFrom offset text).length = text.count '\n' := by
  induction text generalizing offset with
  | nil => rfl
  | cons char text induction =>
      rw [startsFrom, List.count_cons, ← @induction (offset + char.utf8Size)]
      by_cases feed : char = '\n' <;> simp [feed]

theorem starts_from_plain {text : List Char} (plain : '\n' ∉ text) :
    startsFrom offset text = [] := by
  induction text generalizing offset with
  | nil => rfl
  | cons char text induction =>
      obtain ⟨other, others⟩ := List.ne_and_not_mem_of_not_mem_cons plain
      rw [startsFrom, if_neg other.symm, induction others]

end LineTable

end KernelMenu
