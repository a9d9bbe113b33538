/-! # Occurrences of one text inside another

A window of the length of the needle moves along the text. A sum over the characters in it is kept
up to date, and the characters are only compared where it agrees with the sum of the needle. So a
search takes time in proportion to the text, however long the needle is. -/

namespace SourceTree.Text

def sumBase : UInt64 := 0x100000001b3

def orderedSum (text : List Char) : UInt64 :=
  text.foldl (fun sum character => sum * sumBase + character.val.toUInt64) 0

def weightBefore (text : List Char) : UInt64 :=
  text.foldl (fun weight _ => weight * sumBase) 1

theorem foldl_weight (text : List Char) (weight : UInt64) :
    text.foldl (fun weight _ => weight * sumBase) weight = weight * weightBefore text := by
  unfold weightBefore
  induction text generalizing weight with
  | nil => simp
  | cons _ rest induction =>
      simp only [List.foldl_cons]
      rw [induction (weight * sumBase), induction (1 * sumBase)]
      grind

theorem foldl_sum (text : List Char) (sum : UInt64) :
    text.foldl (fun sum character => sum * sumBase + character.val.toUInt64) sum =
      sum * weightBefore text + orderedSum text := by
  unfold orderedSum
  induction text generalizing sum with
  | nil => simp [weightBefore]
  | cons character rest induction =>
      have weights : weightBefore (character :: rest) = sumBase * weightBefore rest := by
        rw [weightBefore, List.foldl_cons, foldl_weight]
        grind
      simp only [List.foldl_cons]
      rw [induction, induction (0 * sumBase + _), weights]
      grind

theorem orderedSum_cons (first : Char) (text : List Char) :
    orderedSum (first :: text) = first.val.toUInt64 * weightBefore text + orderedSum text := by
  rw [orderedSum, List.foldl_cons, foldl_sum]
  grind

theorem orderedSum_concat (text : List Char) (last : Char) :
    orderedSum (text ++ [last]) = orderedSum text * sumBase + last.val.toUInt64 := by
  simp [orderedSum, List.foldl_append]

theorem weightBefore_concat (text : List Char) (last : Char) :
    weightBefore (text ++ [last]) = weightBefore text * sumBase := by
  simp [weightBefore, List.foldl_append]

theorem weightBefore_eq {text other : List Char} (same : text.length = other.length) :
    weightBefore text = weightBefore other := by
  unfold weightBefore
  generalize (1 : UInt64) = weight
  induction text generalizing other weight with
  | nil => cases other <;> simp_all
  | cons _ rest induction =>
      cases other with
      | nil => simp at same
      | cons _ others => exact induction (by simpa using same) _

/-- Look for the needle from a window on. `text` starts with the window, `ahead` is what follows the
window, `sum` is the sum of the window, and `target` that of the needle; the first character of a
window counts `weight` times when one more follows it. -/
def occursFrom (needle : List Char) (target weight : UInt64) :
    UInt64 → List Char → List Char → Bool
  | sum, text, [] => sum = target && needle.isPrefixOf text
  | sum, [], _ :: _ => sum = target && needle.isPrefixOf []
  | sum, first :: text, next :: ahead =>
      (sum = target && needle.isPrefixOf (first :: text)) ||
        occursFrom needle target weight
          (sum * sumBase + next.val.toUInt64 - first.val.toUInt64 * weight) text ahead

/-- Where the sums of a window and the needle differ, the needle does not start. -/
theorem sum_and_isPrefixOf_iff {needle window : List Char} (ahead : List Char)
    (same : window.length = needle.length) :
    (decide (orderedSum window = orderedSum needle) && needle.isPrefixOf (window ++ ahead)) = true ↔
      needle <+: window ++ ahead := by
  simp only [Bool.and_eq_true, decide_eq_true_eq, List.isPrefixOf_iff_prefix, and_iff_right_iff_imp]
  intro isPrefix
  have shorter := List.prefix_of_prefix_length_le isPrefix (List.prefix_append window ahead)
    (Nat.le_of_eq same.symm)
  rw [shorter.eq_of_length same.symm]

theorem occursFrom_iff {needle window : List Char} (ahead : List Char)
    (same : window.length = needle.length) :
    occursFrom needle (orderedSum needle) (weightBefore needle) (orderedSum window)
      (window ++ ahead) ahead = true ↔ needle <:+: window ++ ahead := by
  induction ahead generalizing window with
  | nil =>
      rw [occursFrom, sum_and_isPrefixOf_iff [] same]
      refine ⟨List.IsPrefix.isInfix, fun isInfix => ?_⟩
      have whole : needle = window ++ [] := isInfix.eq_of_length (by simp [same])
      exact ⟨[], by rw [List.append_nil, ← whole]⟩
  | cons next ahead induction =>
      match window, same with
      | [], same =>
          have isEmpty : needle = [] := by simpa using same.symm
          subst isEmpty
          simp [occursFrom, orderedSum]
      | first :: window, same =>
          have moved : (window ++ [next]).length = needle.length := by simpa using same
          have sums : orderedSum (first :: window) * sumBase + next.val.toUInt64 -
              first.val.toUInt64 * weightBefore needle = orderedSum (window ++ [next]) := by
            rw [orderedSum_cons, orderedSum_concat, ← weightBefore_eq moved, weightBefore_concat]
            grind
          have starts := sum_and_isPrefixOf_iff (next :: ahead) same
          have further := induction moved
          simp only [List.cons_append, List.append_assoc, List.nil_append] at starts further ⊢
          rw [occursFrom, Bool.or_eq_true, starts, sums, further, List.infix_cons_iff]

def occursIn (needle text : List Char) : Bool :=
  let size := needle.length
  needle.length ≤ text.length &&
    occursFrom needle (orderedSum needle) (weightBefore needle) (orderedSum (text.take size)) text
      (text.drop size)

theorem occursIn_iff (needle text : List Char) :
    occursIn needle text = true ↔ needle <:+: text := by
  rw [occursIn, Bool.and_eq_true, decide_eq_true_eq]
  constructor
  · rintro ⟨fits, found⟩
    have same : (text.take needle.length).length = needle.length :=
      List.length_take_of_le fits
    have := (occursFrom_iff (text.drop needle.length) same).1
    rw [List.take_append_drop] at this
    exact this found
  · intro isInfix
    have fits := isInfix.length_le
    have same : (text.take needle.length).length = needle.length :=
      List.length_take_of_le fits
    have := (occursFrom_iff (text.drop needle.length) same).2
    rw [List.take_append_drop] at this
    exact ⟨fits, this isInfix⟩

def afterWord? (word text : List Char) : Option (List Char) :=
  if word.isPrefixOf text then some (text.drop word.length) else none

theorem afterWord?_eq_some_iff {word text rest : List Char} :
    afterWord? word text = some rest ↔ text = word ++ rest := by
  unfold afterWord?
  constructor
  · intro found
    split at found
    next isStart =>
      rcases List.isPrefixOf_iff_prefix.1 isStart with ⟨tail, rfl⟩
      simpa using found
    next => simp at found
  · rintro rfl
    simp

end SourceTree.Text
