import Mathlib.Data.List.TakeDrop
import Mathlib.Data.List.TakeWhile
import SourceTree.Release.Reader

/-! # How far releases are read

The readers of a written release take something off the front of a text and leave the rest. They
never look past a character that can stand in none of the parts they read: whatever is behind such a
character is left as it is. Blanks are such characters, and so is the plus sign in front of a build
mark. -/

namespace SourceTree.Release

open SourceTree.Text

/-! ## Where readers stop -/

/-- A character that is no part of a written release, unless it starts a build mark. -/
structure Stops (stop : Char) : Prop where
  notBuild : isBuildCharacter stop = false
  notSeparator : isSeparator stop = false
  notEpoch : stop ≠ '!'

instance (stop : Char) : Decidable (Stops stop) :=
  decidable_of_iff
    (isBuildCharacter stop = false ∧ isSeparator stop = false ∧ stop ≠ '!')
    ⟨fun ⟨notBuild, notSeparator, notEpoch⟩ => ⟨notBuild, notSeparator, notEpoch⟩,
      fun ⟨notBuild, notSeparator, notEpoch⟩ => ⟨notBuild, notSeparator, notEpoch⟩⟩

theorem stops_plus : Stops '+' := by decide

theorem stops_of_isBlank {character : Char} (blank : isBlank character = true) :
    Stops character :=
  of_inRanges Stops (by decide +kernel) blank

theorem isBuildCharacter_of_isDigit {character : Char} (digit : character.isDigit = true) :
    isBuildCharacter character = true := by
  have within : inRanges [(48, 57)] character = true := by
    simpa [inRanges, Char.isDigit, UInt32.le_iff_toNat_le] using digit
  exact of_inRanges (isBuildCharacter · = true) (by decide +kernel) within

theorem Stops.notDigit {stop : Char} (stops : Stops stop) : stop.isDigit = false := by
  by_contra digit
  rw [Bool.not_eq_false] at digit
  exact absurd (isBuildCharacter_of_isDigit digit) (by simp [stops.notBuild])

theorem Stops.notV {stop : Char} (stops : Stops stop) : stop ≠ 'v' ∧ stop ≠ 'V' := by
  constructor
  all_goals
    rintro rfl
    exact absurd stops.notBuild (by decide)

variable {α : Type} {stop : Char}

def leaving (behind : List Char) (read : α × List Char) : α × List Char :=
  (read.1, read.2 ++ behind)

/-- Whatever is behind the character is left as it is. -/
def StopsBefore (stop : Char) (read : List Char → Option (α × List Char)) : Prop :=
  ∀ front behind, read (front ++ stop :: behind) = (read front).map (leaving (stop :: behind))

theorem span_append {kind : Char → Bool} (notKind : kind stop = false) (front behind : List Char) :
    (front ++ stop :: behind).span kind = leaving (stop :: behind) (front.span kind) := by
  simp only [List.span_eq_takeWhile_dropWhile, leaving]
  induction front with
  | nil => simp [notKind]
  | cons character front induction =>
      rw [List.cons_append]
      cases isKind : kind character with
      | false => simp [isKind]
      | true => simpa [isKind] using induction

theorem stopsBefore_number? (stops : Stops stop) : StopsBefore stop number? := by
  intro front behind
  rw [number?, number?, span_append stops.notDigit]
  rcases front.span Char.isDigit with ⟨digits, rest⟩
  cases digits <;> rfl

def dropIf (kind : Char → Bool) : List Char → List Char
  | [] => []
  | character :: rest => if kind character then rest else character :: rest

theorem dropSeparator_eq (text : List Char) : dropSeparator text = dropIf isSeparator text := by
  cases text <;> rfl

theorem dropLeadingV_eq (text : List Char) :
    dropLeadingV text = dropIf (fun character => character = 'v' ∨ character = 'V') text := by
  cases text with
  | nil => rfl
  | cons character rest => simp only [dropLeadingV, dropIf, decide_eq_true_eq]

theorem dropIf_append {kind : Char → Bool} (notKind : kind stop = false)
    (front behind : List Char) :
    dropIf kind (front ++ stop :: behind) = dropIf kind front ++ stop :: behind := by
  cases front with
  | nil => simp [dropIf, notKind]
  | cons character front =>
      simp only [List.cons_append, dropIf]
      split <;> rfl

theorem dropIf_suffix (kind : Char → Bool) (text : List Char) : dropIf kind text <:+ text := by
  cases text with
  | nil => exact List.suffix_rfl
  | cons character rest =>
      rw [dropIf]
      split
      · exact List.suffix_cons character rest
      · exact List.suffix_rfl

theorem dropSeparator_append (stops : Stops stop) (front behind : List Char) :
    dropSeparator (front ++ stop :: behind) = dropSeparator front ++ stop :: behind := by
  rw [dropSeparator_eq, dropSeparator_eq, dropIf_append stops.notSeparator]

theorem dropLeadingV_append (stops : Stops stop) (front behind : List Char) :
    dropLeadingV (front ++ stop :: behind) = dropLeadingV front ++ stop :: behind := by
  rw [dropLeadingV_eq, dropLeadingV_eq, dropIf_append (by simp [stops.notV])]

theorem dropSeparator_suffix (text : List Char) : dropSeparator text <:+ text :=
  dropSeparator_eq text ▸ dropIf_suffix isSeparator text

theorem dropLeadingV_suffix (text : List Char) : dropLeadingV text <:+ text :=
  dropLeadingV_eq text ▸ dropIf_suffix _ text

/-! ## Numbers -/

def TakesFront (read : List Char → Option (α × List Char)) : Prop :=
  ∀ text found, read text = some found → found.2 <:+ text

theorem takesFront_number? : TakesFront number? := by
  intro text found read
  rw [number?, List.span_eq_takeWhile_dropWhile] at read
  dsimp only at read
  split at read
  · cases read
  · cases read
    exact List.dropWhile_suffix Char.isDigit

theorem moreNumbers_append (stops : Stops stop) (fuel : Nat) (front behind : List Char) :
    moreNumbers fuel (front ++ stop :: behind) =
      leaving (stop :: behind) (moreNumbers fuel front) := by
  have notPoint : stop ≠ '.' := by
    rintro rfl
    exact absurd stops.notSeparator (by decide)
  induction fuel generalizing front with
  | zero => rfl
  | succ fuel induction =>
      cases front with
      | nil => simp [moreNumbers, leaving, notPoint]
      | cons character front =>
          by_cases isPoint : character = '.'
          · subst isPoint
            rw [List.cons_append, moreNumbers, moreNumbers, stopsBefore_number? stops]
            cases number? front with
            | none => rfl
            | some read => simp [leaving, induction]
          · simp [moreNumbers, leaving, isPoint]

theorem moreNumbers_eq_of_le {fuel more : Nat} {text : List Char} (enough : text.length ≤ fuel)
    (also : text.length ≤ more) : moreNumbers fuel text = moreNumbers more text := by
  induction fuel generalizing more text with
  | zero =>
      obtain rfl := List.length_eq_zero_iff.1 (Nat.le_zero.1 enough)
      cases more <;> rfl
  | succ fuel induction =>
      cases text with
      | nil => cases more <;> rfl
      | cons character text =>
          cases more with
          | zero => simp at also
          | succ more =>
              by_cases isPoint : character = '.'
              · subst isPoint
                rw [moreNumbers, moreNumbers]
                cases read : number? text with
                | none => rfl
                | some found =>
                    have shorter := (takesFront_number? text found read).length_le
                    simp only [List.length_cons] at enough also
                    have readsAlike : moreNumbers fuel found.2 = moreNumbers more found.2 :=
                      induction (by omega) (by omega)
                    simp only [readsAlike]
              · simp [moreNumbers, isPoint]

/-! ## Marks -/

def AreWords (words : List String) : Prop :=
  (words.all fun word => word.toList.all Char.isAlphanum) = true

theorem areWords_cons {word : String} {words : List String} :
    AreWords (word :: words) ↔
      (∀ character ∈ word.toList, character.isAlphanum = true) ∧ AreWords words := by
  rw [AreWords, List.all_cons, Bool.and_eq_true, List.all_eq_true]
  rfl

theorem areWords_previewWords : AreWords previewWords := by
  unfold AreWords
  decide +kernel

theorem areWords_correctionWords : AreWords correctionWords := by
  unfold AreWords
  decide +kernel

theorem areWords_dev : AreWords ["dev"] := by
  unfold AreWords
  decide +kernel

def wordAt? (word : String) (text : List Char) : Option (String × List Char) :=
  if (text.take word.length).map foldCase = word.toList then
    some (String.ofList ((text.take word.length).flatMap lowerCase), text.drop word.length)
  else
    none

theorem firstWord?_eq (words : List String) (text : List Char) :
    firstWord? words text = words.findSome? fun word => wordAt? word text := rfl

theorem stopsBefore_wordAt? (stops : Stops stop) {word : String}
    (letters : ∀ character ∈ word.toList, character.isAlphanum = true) :
    StopsBefore stop (wordAt? word) := by
  intro front behind
  unfold wordAt?
  by_cases fits : word.length ≤ front.length
  · rw [List.take_append_of_le_length fits, List.drop_append_of_le_length fits]
    split <;> rfl
  · -- The front is too short for the word, and the word does not have the character behind it.
    have tooShort : (front.take word.length).map foldCase ≠ word.toList := by
      intro equal
      have lengths := congrArg List.length equal
      rw [List.length_map, List.length_take, String.length_toList] at lengths
      omega
    have tooFar : ((front ++ stop :: behind).take word.length).map foldCase ≠ word.toList := by
      intro equal
      rcases Nat.exists_eq_add_of_lt (Nat.lt_of_not_le fits) with ⟨further, exceeds⟩
      have isLetter : foldCase stop ∈ word.toList := by
        rw [← equal, exceeds, Nat.add_assoc, List.take_length_add_append, List.take_succ_cons]
        simp
      have alphanumeric := letters (foldCase stop) isLetter
      rw [← isBuildCharacter, stops.notBuild] at alphanumeric
      cases alphanumeric
    rw [if_neg tooShort, if_neg tooFar]
    rfl

theorem stopsBefore_firstWord? (stops : Stops stop) {words : List String}
    (areWords : AreWords words) : StopsBefore stop (firstWord? words) := by
  intro front behind
  simp only [firstWord?_eq]
  induction words with
  | nil => rfl
  | cons word words induction =>
      rcases areWords_cons.1 areWords with ⟨letters, areWords⟩
      rw [List.findSome?_cons, List.findSome?_cons, stopsBefore_wordAt? stops letters]
      cases wordAt? word front with
      | some found => rfl
      | none => exact induction areWords

theorem stopsBefore_mark? (stops : Stops stop) {words : List String}
    (areWords : AreWords words) : StopsBefore stop (mark? words) := by
  intro front behind
  rw [mark?, mark?, dropSeparator_append stops, stopsBefore_firstWord? stops areWords]
  simp only [Option.map_map]
  congr 1
  funext ⟨word, rest⟩
  simp only [Function.comp_apply, leaving, dropSeparator_append stops,
    stopsBefore_number? stops (dropSeparator rest) behind]
  cases number? (dropSeparator rest) <;> rfl

def hyphened? (text : List Char) : Option (Correction × List Char) :=
  match text with
  | '-' :: rest => (number? rest).map fun (number, after) => (⟨"post", number⟩, after)
  | _ => none

theorem correction?_eq (text : List Char) :
    correction? text =
      (hyphened? text).or ((mark? correctionWords text).map fun ((word, number), rest) =>
        (.ofWord word number, rest)) := rfl

theorem stopsBefore_hyphened? (stops : Stops stop) : StopsBefore stop hyphened? := by
  intro front behind
  have notHyphen : stop ≠ '-' := by
    rintro rfl
    exact absurd stops.notSeparator (by decide)
  cases front with
  | nil => simp [hyphened?, notHyphen]
  | cons character front =>
      by_cases isHyphen : character = '-'
      · subst isHyphen
        rw [List.cons_append, hyphened?, hyphened?, stopsBefore_number? stops]
        cases number? front <;> rfl
      · simp [hyphened?, isHyphen]

theorem stopsBefore_correction? (stops : Stops stop) : StopsBefore stop correction? := by
  intro front behind
  rw [correction?_eq, correction?_eq, stopsBefore_hyphened? stops,
    stopsBefore_mark? stops areWords_correctionWords, Option.map_or]
  simp only [Option.map_map]
  rfl

theorem optionally_append {read : List Char → Option (α × List Char)}
    (stopsBefore : StopsBefore stop read) (front behind : List Char) :
    optionally read (front ++ stop :: behind) =
      leaving (stop :: behind) (optionally read front) := by
  rw [optionally, optionally, stopsBefore]
  cases read front <;> rfl

/-! ## Everything in front of a build mark -/

def epoch? (text : List Char) : Option (Nat × List Char) :=
  (number? text).map fun (first, afterFirst) =>
    match afterFirst with
    | '!' :: rest => (first, rest)
    | _ => (0, text)

def goOn (epoch leading : Nat) (afterLeading : List Char) : Release × List Char :=
  let (others, afterNumbers) := moreNumbers afterLeading.length afterLeading
  let (preview, afterPreview) := optionally (mark? previewWords) afterNumbers
  let (correction, afterCorrection) := optionally correction? afterPreview
  let (development, afterDevelopment) := optionally (mark? ["dev"]) afterCorrection
  ({ epoch
     numbers := leading :: others
     preview := preview.map fun (word, number) => (.ofWord word, number)
     correction
     development := development.map Prod.snd
     build := [] }, afterDevelopment)

def unbuilt? (text : List Char) : Option (Release × List Char) :=
  (epoch? (dropLeadingV text)).bind fun (epoch, numbered) =>
    (number? numbered).map fun (leading, afterLeading) => goOn epoch leading afterLeading

def withBuild? (read : Release × List Char) : Option (Release × List Char) :=
  match read.2 with
  | '+' :: rest =>
      (buildParts? (rest.length + 1) rest).map fun (build, last) => ({ read.1 with build }, last)
  | _ => some read

theorem withBuild?_of_noMark {read : Release × List Char}
    (noMark : ∀ rest, read.2 = '+' :: rest → False) : withBuild? read = some read := by
  unfold withBuild?
  split
  next rest isMark => exact (noMark rest isMark).elim
  next => rfl

theorem atStart?_eq (text : List Char) : atStart? text = (unbuilt? text).bind withBuild? := by
  simp only [atStart?, unbuilt?, epoch?, Option.bind_eq_bind, Option.bind_map, Option.bind_assoc,
    Function.comp_def]
  apply Option.bind_congr
  rintro ⟨first, afterFirst⟩ -
  apply Option.bind_congr
  rintro ⟨leading, afterLeading⟩ -
  simp only [goOn]
  -- Both sides have read as much by now; what is left is the mark itself, if there is one.
  generalize optionally (mark? ["dev"]) _ = read
  rcases read with ⟨development, afterDevelopment⟩
  dsimp only
  split
  next => exact Option.map_eq_bind.symm
  next noMark => exact (withBuild?_of_noMark noMark).symm

theorem stopsBefore_epoch? (stops : Stops stop) : StopsBefore stop epoch? := by
  intro front behind
  rw [epoch?, epoch?, stopsBefore_number? stops]
  simp only [Option.map_map]
  congr 1
  funext ⟨first, afterFirst⟩
  simp only [Function.comp_apply, leaving]
  cases afterFirst with
  | nil => simp [stops.notEpoch]
  | cons character afterFirst =>
      by_cases isMark : character = '!'
      · subst isMark
        rfl
      · simp [isMark]

theorem goOn_append (stops : Stops stop) (epoch leading : Nat) (front behind : List Char) :
    goOn epoch leading (front ++ stop :: behind) =
      leaving (stop :: behind) (goOn epoch leading front) := by
  have enough : front.length ≤ (front ++ stop :: behind).length := by simp
  unfold goOn
  rw [moreNumbers_append stops, moreNumbers_eq_of_le enough (Nat.le_refl front.length)]
  simp only [leaving, optionally_append (stopsBefore_mark? stops areWords_previewWords),
    optionally_append (stopsBefore_correction? stops),
    optionally_append (stopsBefore_mark? stops areWords_dev)]

theorem stopsBefore_unbuilt? (stops : Stops stop) : StopsBefore stop unbuilt? := by
  intro front behind
  rw [unbuilt?, unbuilt?, dropLeadingV_append stops, stopsBefore_epoch? stops]
  cases epoch? (dropLeadingV front) with
  | none => rfl
  | some read =>
      simp only [Option.map_some, Option.bind_some, leaving,
        stopsBefore_number? stops read.2 behind]
      cases number? read.2 with
      | none => rfl
      | some first => simp only [Option.map_some, leaving, goOn_append stops]

theorem not_stops_of_unbuilt? {text : List Char} {release : Release}
    (read : unbuilt? text = some (release, [])) {character : Char} (mem : character ∈ text) :
    ¬Stops character := by
  intro stops
  rcases List.append_of_mem mem with ⟨front, behind, rfl⟩
  rw [stopsBefore_unbuilt? stops, Option.map_eq_some_iff] at read
  rcases read with ⟨found, -, left⟩
  have leavesNothing := congrArg Prod.snd left
  exact List.append_ne_nil_of_right_ne_nil _ (List.cons_ne_nil _ _) leavesNothing

/-! ## What readers leave is the end of a text -/

theorem moreNumbers_suffix (fuel : Nat) (text : List Char) :
    (moreNumbers fuel text).2 <:+ text := by
  induction fuel generalizing text with
  | zero => exact List.suffix_rfl
  | succ fuel induction =>
      unfold moreNumbers
      split
      next rest =>
        cases read : number? rest with
        | none => exact List.suffix_rfl
        | some found =>
            exact (induction found.2).trans
              ((takesFront_number? rest found read).trans (List.suffix_cons '.' rest))
      next => exact List.suffix_rfl

theorem takesFront_firstWord? (words : List String) : TakesFront (firstWord? words) := by
  intro text found read
  rw [firstWord?_eq] at read
  rcases List.exists_of_findSome?_eq_some read with ⟨word, -, read⟩
  unfold wordAt? at read
  split at read
  · cases read
    exact List.drop_suffix word.length text
  · cases read

theorem takesFront_mark? (words : List String) : TakesFront (mark? words) := by
  intro text found read
  rw [mark?, Option.map_eq_some_iff] at read
  rcases read with ⟨⟨word, rest⟩, read, rfl⟩
  have wordSuffix := (takesFront_firstWord? words _ _ read).trans (dropSeparator_suffix text)
  have restSuffix := (dropSeparator_suffix rest).trans wordSuffix
  cases readNumber : number? (dropSeparator rest) with
  | none => simpa [readNumber] using restSuffix
  | some number =>
      simpa [readNumber] using (takesFront_number? _ number readNumber).trans restSuffix

theorem takesFront_correction? : TakesFront correction? := by
  intro text found read
  rw [correction?_eq, Option.or_eq_some_iff] at read
  rcases read with hyphened | ⟨-, marked⟩
  · unfold hyphened? at hyphened
    split at hyphened
    next rest =>
      rcases Option.map_eq_some_iff.1 hyphened with ⟨number, readNumber, rfl⟩
      exact (takesFront_number? rest number readNumber).trans (List.suffix_cons '-' rest)
    next => cases hyphened
  · rcases Option.map_eq_some_iff.1 marked with ⟨mark, readMark, rfl⟩
    exact takesFront_mark? correctionWords text mark readMark

theorem optionally_suffix {read : List Char → Option (α × List Char)}
    (takesFront : TakesFront read) (text : List Char) : (optionally read text).2 <:+ text := by
  rw [optionally]
  cases found : read text with
  | none => exact List.suffix_rfl
  | some found' => exact takesFront text found' found

theorem takesFront_epoch? : TakesFront epoch? := by
  intro text found read
  rw [epoch?, Option.map_eq_some_iff] at read
  rcases read with ⟨⟨first, afterFirst⟩, read, rfl⟩
  dsimp only
  split
  next rest => exact (List.suffix_cons '!' rest).trans (takesFront_number? text _ read)
  next => exact List.suffix_rfl

theorem goOn_suffix (epoch leading : Nat) (text : List Char) :
    (goOn epoch leading text).2 <:+ text := by
  apply (optionally_suffix (takesFront_mark? ["dev"]) _).trans
  apply (optionally_suffix takesFront_correction? _).trans
  apply (optionally_suffix (takesFront_mark? previewWords) _).trans
  exact moreNumbers_suffix text.length text

theorem takesFront_unbuilt? : TakesFront unbuilt? := by
  intro text found read
  rw [unbuilt?, Option.bind_eq_some_iff] at read
  rcases read with ⟨⟨epoch, numbered⟩, readEpoch, read⟩
  rcases Option.map_eq_some_iff.1 read with ⟨⟨leading, afterLeading⟩, readLeading, rfl⟩
  apply (goOn_suffix epoch leading afterLeading).trans
  apply (takesFront_number? numbered _ readLeading).trans
  apply (takesFront_epoch? _ _ readEpoch).trans
  exact dropLeadingV_suffix text

end SourceTree.Release
