import Mathlib.Data.List.Perm.Subperm
import Mathlib.Data.List.TakeWhile
import Mathlib.Data.Nat.Basic
import Mathlib.Logic.Relation
import SourceTree.Pattern

/-! # Places of a text

A text has one place for each number of characters that are left. So places that are listed from the
last to the first can be united and taken apart by these numbers alone, and spreading from some of
them along a step finds exactly the places that the step leads to, before the fuel runs out. -/

namespace SourceTree.Cursor

/-! ## Places -/

def between (front rest : List Char) : Cursor :=
  { atStart rest with before := front.getLast? }

def IsIn (text : List Char) (place : Cursor) : Prop :=
  ∃ front rest, text = front ++ rest ∧ place = between front rest

/-- Places of a text from the last to the first, each of them once. -/
structure Listed (text : List Char) (places : List Cursor) : Prop where
  isIn : ∀ place ∈ places, IsIn text place
  ascending : places.Pairwise fun place other => place.left < other.left

structure Reaches (place next : Cursor) : Prop where
  leftAtMost : next.left ≤ place.left
  isIn : ∀ {text : List Char}, IsIn text place → IsIn text next

variable {text : List Char}

theorem IsIn.eq_of_left_eq {place other : Cursor} (isIn : IsIn text place)
    (otherIn : IsIn text other) (same : place.left = other.left) : place = other := by
  rcases isIn with ⟨front, rest, split, rfl⟩
  rcases otherIn with ⟨otherFront, otherRest, otherSplit, rfl⟩
  have sameText : front ++ rest = otherFront ++ otherRest := split.symm.trans otherSplit
  have sameLength : rest.length = otherRest.length := same
  rcases List.append_inj' sameText sameLength with ⟨rfl, rfl⟩
  rfl

theorem Reaches.refl (place : Cursor) : Reaches place place :=
  ⟨le_rfl, id⟩

theorem Reaches.trans {place middle next : Cursor} (first : Reaches place middle)
    (second : Reaches middle next) : Reaches place next :=
  ⟨second.leftAtMost.trans first.leftAtMost, fun isIn => second.isIn (first.isIn isIn)⟩

theorem pass?_between (set : CharSet) (front : List Char) (character : Char) (rest : List Char) :
    (between front (character :: rest)).pass? set =
      if set.contains character then some (between (front ++ [character]) rest) else none := by
  have last : (front ++ [character]).getLast? = some character := List.getLast?_concat
  rw [between, between, last]
  rfl

theorem pass?_between_nil (set : CharSet) (front : List Char) :
    (between front []).pass? set = none := rfl

theorem left_of_pass? {set : CharSet} {place next : Cursor} (passed : place.pass? set = some next) :
    next.left + 1 = place.left := by
  unfold pass? at passed
  split at passed
  next => cases passed
  next character rest follows =>
    split at passed
    · cases passed
      simp [place.leftCounted, follows]
    · cases passed

theorem reaches_of_pass? {set : CharSet} {place next : Cursor}
    (passed : place.pass? set = some next) : Reaches place next where
  leftAtMost := by
    have := left_of_pass? passed
    omega
  isIn := by
    rintro text ⟨front, rest, split, rfl⟩
    cases rest with
    | nil => cases passed
    | cons character rest =>
        rw [pass?_between] at passed
        split at passed
        · cases passed
          exact ⟨front ++ [character], rest, by simp [split], rfl⟩
        · cases passed

/-! ## Lists of places -/

theorem listed_nil : Listed text [] :=
  ⟨nofun, .nil⟩

theorem listed_singleton {place : Cursor} (isIn : IsIn text place) : Listed text [place] :=
  ⟨List.forall_mem_singleton.2 isIn, List.pairwise_singleton _ _⟩

theorem listed_cons {place : Cursor} {places : List Cursor} :
    Listed text (place :: places) ↔
      IsIn text place ∧ (∀ other ∈ places, place.left < other.left) ∧ Listed text places := by
  constructor
  · rintro ⟨isIn, ascending⟩
    rcases List.forall_mem_cons.1 isIn with ⟨placeIn, restIn⟩
    rcases List.pairwise_cons.1 ascending with ⟨least, restAscending⟩
    exact ⟨placeIn, least, restIn, restAscending⟩
  · rintro ⟨placeIn, least, rest⟩
    exact ⟨List.forall_mem_cons.2 ⟨placeIn, rest.isIn⟩,
      List.pairwise_cons.2 ⟨least, rest.ascending⟩⟩

theorem Listed.append {front back : List Cursor} (first : Listed text front)
    (second : Listed text back) (apart : ∀ place ∈ front, ∀ other ∈ back, place.left < other.left) :
    Listed text (front ++ back) where
  isIn := List.forall_mem_append.2 ⟨first.isIn, second.isIn⟩
  ascending := List.pairwise_append.2 ⟨first.ascending, second.ascending, apart⟩

theorem Listed.sublist {places fewer : List Cursor} (listed : Listed text places)
    (sublist : fewer.Sublist places) : Listed text fewer :=
  ⟨fun place member => listed.isIn place (sublist.subset member),
    listed.ascending.sublist sublist⟩

theorem Listed.nodup {places : List Cursor} (listed : Listed text places) : places.Nodup :=
  listed.ascending.imp fun before same => absurd (congrArg left same) (Nat.ne_of_lt before)

theorem passDownTo_cases (place : Cursor) (passed : List Cursor) {others : List Cursor}
    (isIn : IsIn text place) (listed : Listed text others) :
    ∃ nearer farther, passDownTo place passed others = (nearer.reverse ++ passed, farther) ∧
      Listed text (nearer ++ place :: farther) ∧
      ∀ other, other ∈ nearer ++ place :: farther ↔ other = place ∨ other ∈ others := by
  induction others generalizing passed with
  | nil => exact ⟨[], [], rfl, listed_singleton isIn, by simp⟩
  | cons other others induction =>
      rcases listed_cons.1 listed with ⟨otherIn, least, rest⟩
      rw [passDownTo]
      split
      next isNearer =>
        rcases induction (other :: passed) rest with ⟨nearer, farther, split, listed, members⟩
        refine ⟨other :: nearer, farther, by simp [split], ?_, ?_⟩
        · refine listed_cons.2 ⟨otherIn, fun next member => ?_, listed⟩
          rcases (members next).1 member with rfl | inOthers
          · exact isNearer
          · exact least next inOthers
        · intro next
          rw [List.cons_append, List.mem_cons, members next, List.mem_cons]
          exact or_left_comm
      next notNearer =>
        split
        next same =>
          have isPlace : other = place := otherIn.eq_of_left_eq isIn same
          subst isPlace
          exact ⟨[], others, rfl, listed, by simp⟩
        next different =>
          refine ⟨[], other :: others, rfl, listed_cons.2 ⟨isIn, ?_, listed⟩, by simp⟩
          have farther : place.left < other.left := by omega
          exact List.forall_mem_cons.2
            ⟨farther, fun next member => farther.trans (least next member)⟩

theorem mergeOnto_cases (passed : List Cursor) {places others : List Cursor}
    (listed : Listed text places) (otherListed : Listed text others) :
    ∃ union, mergeOnto passed places others = passed.reverse ++ union ∧ Listed text union ∧
      ∀ place, place ∈ union ↔ place ∈ places ∨ place ∈ others := by
  induction places generalizing passed others with
  | nil => exact ⟨others, by rw [mergeOnto, List.reverseAux_eq], otherListed, by simp⟩
  | cons place places induction =>
      rcases listed_cons.1 listed with ⟨isIn, least, rest⟩
      -- Later places of the other list go first; earlier ones are merged with the rest.
      rcases passDownTo_cases place passed isIn otherListed with
        ⟨nearer, farther, split, around, members⟩
      rcases List.pairwise_append.1 around.ascending with ⟨-, behind, nearerBefore⟩
      have fartherListed := around.sublist
        ((List.sublist_cons_self place farther).trans (List.sublist_append_right nearer _))
      rcases induction (place :: (nearer.reverse ++ passed)) rest fartherListed with
        ⟨union, merged, unionListed, unionMembers⟩
      have leastOfUnion : ∀ next ∈ union, place.left < next.left := by
        intro next member
        rcases (unionMembers next).1 member with inPlaces | inFarther
        · exact least next inPlaces
        · exact (List.pairwise_cons.1 behind).1 next inFarther
      refine ⟨nearer ++ place :: union, ?_, ?_, ?_⟩
      · rw [mergeOnto, split]
        simp only [merged, List.reverse_cons, List.reverse_append, List.reverse_reverse,
          List.append_assoc, List.singleton_append]
      · refine (around.sublist (List.sublist_append_left nearer _)).append
          (listed_cons.2 ⟨isIn, leastOfUnion, unionListed⟩) fun before isNearer next member => ?_
        have beforePlace := nearerBefore before isNearer place List.mem_cons_self
        rcases List.mem_cons.1 member with rfl | inUnion
        · exact beforePlace
        · exact beforePlace.trans (leastOfUnion next inUnion)
      · intro next
        have inOthers := members next
        simp only [List.mem_append, List.mem_cons, unionMembers] at inOthers ⊢
        grind

section

variable {places others : List Cursor}

theorem listed_merge (listed : Listed text places) (otherListed : Listed text others) :
    Listed text (merge places others) := by
  rcases mergeOnto_cases [] listed otherListed with ⟨union, merged, unionListed, -⟩
  rwa [merge, merged]

theorem mem_merge (listed : Listed text places) (otherListed : Listed text others)
    {place : Cursor} : place ∈ merge places others ↔ place ∈ places ∨ place ∈ others := by
  rcases mergeOnto_cases [] listed otherListed with ⟨union, merged, -, members⟩
  rw [merge, merged]
  exact members place

end

section

variable {place : Cursor} {others : List Cursor}

theorem mem_dropWhile_after {next : Cursor} (notAfter : place.left ≤ next.left) :
    next ∈ others.dropWhile (fun other => other.left < place.left) ↔ next ∈ others := by
  refine ⟨fun member => (List.dropWhile_sublist _).subset member, fun member => ?_⟩
  rw [← List.takeWhile_append_dropWhile (p := fun other => other.left < place.left)
    (l := others), List.mem_append] at member
  refine member.resolve_left fun dropped => ?_
  have after := List.mem_takeWhile_imp dropped
  simp only [decide_eq_true_eq] at after
  omega

theorem head?_dropWhile_after (isIn : IsIn text place) (listed : Listed text others) :
    (others.dropWhile fun other => other.left < place.left).head?.any
      (fun other => other.left = place.left) = true ↔ place ∈ others := by
  rw [← mem_dropWhile_after (le_refl place.left)]
  have notAfter := List.head?_dropWhile_not (fun other => decide (other.left < place.left)) others
  have remainingListed := listed.sublist
    (List.dropWhile_sublist fun other => other.left < place.left)
  cases remaining : others.dropWhile fun other => other.left < place.left with
  | nil => simp
  | cons first further =>
      rw [remaining] at remainingListed notAfter
      rcases listed_cons.1 remainingListed with ⟨firstIn, least, -⟩
      simp only [List.head?_cons, Option.any_some, decide_eq_true_eq, List.mem_cons]
      constructor
      · intro same
        exact .inl (isIn.eq_of_left_eq firstIn same.symm)
      · rintro (rfl | inFurther)
        · rfl
        · have := least place inFurther
          simp only [List.head?_cons, decide_eq_false_iff_not] at notAfter
          omega

end

theorem apartOnto_eq (kept : List Cursor) {places others : List Cursor}
    (listed : Listed text places) (otherListed : Listed text others) :
    apartOnto kept places others = kept.reverse ++ places.filter (· ∉ others) := by
  induction places generalizing kept others with
  | nil => simp [apartOnto]
  | cons place places induction =>
      rcases listed_cons.1 listed with ⟨isIn, least, rest⟩
      have notAfterListed := otherListed.sublist
        (List.dropWhile_sublist fun other => other.left < place.left)
      have sameRest : places.filter
          (· ∉ others.dropWhile fun other => other.left < place.left) =
            places.filter (· ∉ others) := by
        refine List.filter_congr fun next member => decide_eq_decide.2 (not_congr ?_)
        exact mem_dropWhile_after (least next member).le
      rw [apartOnto]
      split
      next found =>
        have inOthers := (head?_dropWhile_after isIn otherListed).1 found
        rw [induction kept rest notAfterListed, sameRest, List.filter_cons_of_neg (by simpa)]
      next notFound =>
        have notIn : place ∉ others := fun member =>
          notFound ((head?_dropWhile_after isIn otherListed).2 member)
        rw [induction (place :: kept) rest notAfterListed, sameRest,
          List.filter_cons_of_pos (by simpa), List.reverse_cons, List.append_assoc,
          List.singleton_append]

section

variable {places others : List Cursor}

theorem apart_eq (listed : Listed text places) (otherListed : Listed text others) :
    apart places others = places.filter (· ∉ others) :=
  apartOnto_eq [] listed otherListed

theorem listed_apart (listed : Listed text places) (otherListed : Listed text others) :
    Listed text (apart places others) := by
  rw [apart_eq listed otherListed]
  exact listed.sublist List.filter_sublist

theorem mem_apart (listed : Listed text places) (otherListed : Listed text others)
    {place : Cursor} : place ∈ apart places others ↔ place ∈ places ∧ place ∉ others := by
  rw [apart_eq listed otherListed, List.mem_filter, decide_eq_true_eq]

end

/-! ## Spreading -/

/-- A step on lists of places goes from each of them to the places that a relation leads to. -/
structure Follows (leads : Cursor → Cursor → Prop) (step : List Cursor → List Cursor) : Prop where
  reaches : ∀ {place next : Cursor}, leads place next → Reaches place next
  listed : ∀ {text : List Char} {places : List Cursor}, Listed text places →
    Listed text (step places)
  memIff : ∀ {text : List Char} {places : List Cursor}, Listed text places →
    ∀ {next : Cursor}, next ∈ step places ↔ ∃ place ∈ places, leads place next

variable {leads : Cursor → Cursor → Prop} {step : List Cursor → List Cursor}

theorem Listed.length_le {places : List Cursor} (listed : Listed text places) {limit : Nat}
    (bounded : ∀ place ∈ places, place.left ≤ limit) : places.length ≤ limit + 1 := by
  have distinct : (places.map left).Nodup :=
    List.pairwise_map.2 (listed.ascending.imp Nat.ne_of_lt)
  have inRange : places.map left ⊆ List.range (limit + 1) := by
    intro number member
    rcases List.mem_map.1 member with ⟨place, isPlace, rfl⟩
    exact List.mem_range.2 (Nat.lt_succ_of_le (bounded place isPlace))
  simpa using (List.subperm_of_subset distinct inRange).length_le

/-- What `spread` starts from: new places, beside places whose steps are taken or new themselves. -/
structure Frontier (text : List Char) (leads : Cursor → Cursor → Prop) (limit : Nat)
    (places taken : List Cursor) : Prop where
  listed : Listed text places
  takenListed : Listed text taken
  new : ∀ place ∈ places, place ∉ taken
  bounded : ∀ place ∈ places, place.left ≤ limit
  takenBounded : ∀ place ∈ taken, place.left ≤ limit
  closed : ∀ place ∈ taken, ∀ next, leads place next → next ∈ taken ∨ next ∈ places

theorem Frontier.advance {limit : Nat} {places taken : List Cursor} (follows : Follows leads step)
    (frontier : Frontier text leads limit places taken) :
    Frontier text leads limit (apart (step places) (merge places taken)) (merge places taken) where
  listed := listed_apart (follows.listed frontier.listed)
    (listed_merge frontier.listed frontier.takenListed)
  takenListed := listed_merge frontier.listed frontier.takenListed
  new := by
    intro place member
    have merged := listed_merge frontier.listed frontier.takenListed
    exact ((mem_apart (follows.listed frontier.listed) merged).1 member).2
  bounded := by
    intro next member
    have merged := listed_merge frontier.listed frontier.takenListed
    have stepped := ((mem_apart (follows.listed frontier.listed) merged).1 member).1
    rcases (follows.memIff frontier.listed).1 stepped with ⟨place, isNew, toNext⟩
    exact (follows.reaches toNext).leftAtMost.trans (frontier.bounded place isNew)
  takenBounded := by
    intro place member
    rcases (mem_merge frontier.listed frontier.takenListed).1 member with isNew | isTaken
    · exact frontier.bounded place isNew
    · exact frontier.takenBounded place isTaken
  closed := by
    intro place member next toNext
    have merged := listed_merge frontier.listed frontier.takenListed
    by_cases known : next ∈ merge places taken
    · exact .inl known
    · rcases (mem_merge frontier.listed frontier.takenListed).1 member with isNew | isTaken
      · have stepped := (follows.memIff frontier.listed).2 ⟨place, isNew, toNext⟩
        exact .inr ((mem_apart (follows.listed frontier.listed) merged).2 ⟨stepped, known⟩)
      · have inEither := (frontier.closed place isTaken next toNext).symm
        exact .inl ((mem_merge frontier.listed frontier.takenListed).2 inEither)

theorem Frontier.length_lt {limit : Nat} {places taken : List Cursor}
    (frontier : Frontier text leads limit places taken) {place : Cursor} (isNew : place ∈ places) :
    taken.length < (merge places taken).length := by
  have distinct : (place :: taken).Nodup :=
    List.nodup_cons.2 ⟨frontier.new place isNew, frontier.takenListed.nodup⟩
  have included : place :: taken ⊆ merge places taken := by
    intro other member
    refine (mem_merge frontier.listed frontier.takenListed).2 ?_
    rcases List.mem_cons.1 member with rfl | isTaken
    · exact .inl isNew
    · exact .inr isTaken
  exact (List.subperm_of_subset distinct included).length_le

/-- From a frontier exactly the places behind the new ones are still to be found, be it in one step
or in many. -/
theorem Frontier.reachable_iff {limit : Nat} {places taken : List Cursor}
    (follows : Follows leads step) (frontier : Frontier text leads limit places taken)
    (next : Cursor) :
    (next ∈ merge places taken ∨ ∃ place ∈ apart (step places) (merge places taken),
        Relation.ReflTransGen leads place next) ↔
      next ∈ taken ∨ ∃ place ∈ places, Relation.ReflTransGen leads place next := by
  have merged := listed_merge frontier.listed frontier.takenListed
  have isMerged : ∀ {place : Cursor},
      place ∈ merge places taken ↔ place ∈ places ∨ place ∈ taken :=
    mem_merge frontier.listed frontier.takenListed
  have isApart : ∀ {place : Cursor}, place ∈ apart (step places) (merge places taken) ↔
      place ∈ step places ∧ place ∉ merge places taken :=
    mem_apart (follows.listed frontier.listed) merged
  constructor
  · rintro (inMerged | ⟨place, isNext, reachable⟩)
    · rcases isMerged.1 inMerged with isNew | isTaken
      · exact .inr ⟨next, isNew, .refl⟩
      · exact .inl isTaken
    · rcases (follows.memIff frontier.listed).1 (isApart.1 isNext).1 with ⟨start, isNew, toPlace⟩
      exact .inr ⟨start, isNew, .head toPlace reachable⟩
  · rintro (isTaken | ⟨place, isNew, reachable⟩)
    · exact .inl (isMerged.2 (.inr isTaken))
    · induction reachable with
      | refl => exact .inl (isMerged.2 (.inl isNew))
      | tail _ toNext induction =>
          rcases induction with inMerged | ⟨start, isNext, toMiddle⟩
          · rcases (frontier.advance follows).closed _ inMerged _ toNext with known | further
            · exact .inl known
            · exact .inr ⟨_, further, .refl⟩
          · exact .inr ⟨start, isNext, toMiddle.tail toNext⟩

theorem spread_cases {limit fuel : Nat} {places taken : List Cursor} (follows : Follows leads step)
    (frontier : Frontier text leads limit places taken) (enough : limit < fuel + taken.length) :
    Listed text (spread step fuel places taken) ∧
      ∀ next, next ∈ spread step fuel places taken ↔
        next ∈ taken ∨ ∃ place ∈ places, Relation.ReflTransGen leads place next := by
  induction fuel generalizing places taken with
  | zero =>
      -- All places are taken by now, so none is new.
      have noneNew : places = [] := by
        refine List.eq_nil_iff_forall_not_mem.2 fun place member => ?_
        have merged := listed_merge frontier.listed frontier.takenListed
        have few := merged.length_le (frontier.advance follows).takenBounded
        have more := frontier.length_lt member
        omega
      subst noneNew
      exact ⟨frontier.takenListed, by simp [spread]⟩
  | succ fuel induction =>
      cases places with
      | nil => exact ⟨frontier.takenListed, by simp [spread]⟩
      | cons place places =>
          have more := frontier.length_lt List.mem_cons_self
          rcases induction (frontier.advance follows) (by omega) with ⟨listed, members⟩
          refine ⟨listed, fun next => ?_⟩
          rw [spread, members next]
          exact frontier.reachable_iff follows next

theorem Listed.left_le_last {later : List Cursor} {first : Cursor}
    (listed : Listed text (later ++ [first])) :
    ∀ place ∈ later ++ [first], place.left ≤ first.left := by
  intro place member
  rcases List.mem_append.1 member with inLater | isFirst
  · have ascending := List.pairwise_append.1 listed.ascending
    exact (ascending.2.2 place inLater first List.mem_cons_self).le
  · exact (congrArg left (List.mem_singleton.1 isFirst)).le

theorem closure_cases (follows : Follows leads step) {places : List Cursor}
    (listed : Listed text places) :
    Listed text (closure step places) ∧ ∀ next, next ∈ closure step places ↔
      ∃ place ∈ places, Relation.ReflTransGen leads place next := by
  unfold closure
  cases ends : places.getLast? with
  | none =>
      have isEmpty := List.getLast?_eq_none_iff.1 ends
      subst isEmpty
      exact ⟨listed, by simp⟩
  | some first =>
      rcases List.getLast?_eq_some_iff.1 ends with ⟨later, rfl⟩
      have frontier : Frontier text leads first.left (later ++ [first]) [] :=
        ⟨listed, listed_nil, fun _ _ => List.not_mem_nil, listed.left_le_last, nofun, nofun⟩
      have enough : first.left < first.left + 1 + ([] : List Cursor).length := by simp
      rcases spread_cases follows frontier enough with ⟨spreadListed, members⟩
      exact ⟨spreadListed, fun next => (members next).trans (by simp)⟩

theorem Follows.closure (follows : Follows leads step) :
    Follows (Relation.ReflTransGen leads) (closure step) where
  reaches := by
    intro place next reachable
    induction reachable with
    | refl => exact Reaches.refl _
    | tail _ toNext induction => exact induction.trans (follows.reaches toNext)
  listed := fun listed => (closure_cases follows listed).1
  memIff := fun listed _ => (closure_cases follows listed).2 _

/-! ## Places in a row -/

theorem reaches_of_mem_chain {step : Cursor → Option Cursor}
    (reaches : ∀ {place next : Cursor}, step place = some next → Reaches place next) {fuel : Nat}
    {cursor place : Cursor} {passed : List Cursor}
    (member : place ∈ chain step fuel cursor passed) :
    place ∈ passed ∨ Reaches cursor place := by
  induction fuel generalizing cursor passed with
  | zero =>
      rcases List.mem_cons.1 member with rfl | isPassed
      · exact .inr (Reaches.refl place)
      · exact .inl isPassed
  | succ fuel induction =>
      have stops : place ∈ cursor :: passed → place ∈ passed ∨ Reaches cursor place := by
        intro here
        rcases List.mem_cons.1 here with rfl | isPassed
        · exact .inr (Reaches.refl place)
        · exact .inl isPassed
      rw [chain] at member
      split at member
      next => exact stops member
      next next stepped =>
        split at member
        · rcases induction member with isPassed | further
          · exact stops isPassed
          · exact .inr ((reaches stepped).trans further)
        · exact stops member

theorem chain_cases {front rest : List Char} {passed : List Cursor} (split : text = front ++ rest)
    (listed : Listed text passed) (before : ∀ place ∈ passed, rest.length < place.left) :
    Listed text (chain (pass? .all) rest.length (between front rest) passed) ∧
      ∀ place, place ∈ chain (pass? .all) rest.length (between front rest) passed ↔
        place ∈ passed ∨ (IsIn text place ∧ place.left ≤ rest.length) := by
  have isIn : IsIn text (between front rest) := ⟨front, rest, split, rfl⟩
  -- Each step passes one character and puts its place in front of those passed before.
  induction rest generalizing front passed with
  | nil =>
      refine ⟨listed_cons.2 ⟨isIn, before, listed⟩, fun place => ?_⟩
      rw [List.length_nil, chain, List.mem_cons, or_comm]
      refine or_congr_right ⟨?_, ?_⟩
      · rintro rfl
        exact ⟨isIn, le_rfl⟩
      · rintro ⟨placeIn, atEnd⟩
        exact placeIn.eq_of_left_eq isIn (Nat.le_zero.1 atEnd)
  | cons character rest induction =>
      have passedHere := listed_cons.2 ⟨isIn, before, listed⟩
      have splitNext : text = front ++ [character] ++ rest := by simp [split]
      have advances : (between (front ++ [character]) rest).left <
          (between front (character :: rest)).left := Nat.lt_succ_self rest.length
      have beforeNext : ∀ place ∈ between front (character :: rest) :: passed,
          rest.length < place.left := by
        intro place member
        rcases List.mem_cons.1 member with rfl | isPassed
        · exact advances
        · exact (Nat.lt_succ_self _).trans (before place isPassed)
      rcases induction splitNext passedHere beforeNext ⟨_, _, splitNext, rfl⟩ with
        ⟨nextListed, members⟩
      have passes : (between front (character :: rest)).pass? .all =
          some (between (front ++ [character]) rest) :=
        (pass?_between .all front character rest).trans (if_pos rfl)
      rw [List.length_cons, chain, passes]
      simp only [if_pos advances]
      refine ⟨nextListed, fun place => ?_⟩
      rw [members place, List.mem_cons, or_comm (b := place ∈ passed), or_assoc]
      refine or_congr_right ⟨?_, ?_⟩
      · rintro (rfl | ⟨placeIn, later⟩)
        · exact ⟨isIn, le_rfl⟩
        · exact ⟨placeIn, later.trans (Nat.le_succ _)⟩
      · rintro ⟨placeIn, later⟩
        rcases Nat.lt_or_eq_of_le later with further | same
        · exact .inr ⟨placeIn, Nat.lt_succ_iff.1 further⟩
        · exact .inl (placeIn.eq_of_left_eq isIn same)

theorem listed_all (text : List Char) : Listed text (all text) :=
  (chain_cases (List.nil_append text).symm listed_nil nofun).1

theorem mem_all {text : List Char} {place : Cursor} : place ∈ all text ↔ IsIn text place := by
  refine ((chain_cases (List.nil_append text).symm listed_nil nofun).2 place).trans
    ⟨fun member => ?_, fun isIn => .inr ⟨isIn, ?_⟩⟩
  · exact (member.resolve_left List.not_mem_nil).1
  · rcases isIn with ⟨front, rest, split, rfl⟩
    rw [split, List.length_append]
    exact Nat.le_add_left _ _

end SourceTree.Cursor
