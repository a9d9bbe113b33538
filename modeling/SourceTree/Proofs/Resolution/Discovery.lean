import Mathlib.Data.List.Induction
import SourceTree.Proofs.Engine.Turns

/-! # The order of discovery

Files offer the paths that they import: first the user's files those that no local file answers,
then the fetched files all that they import. A path is discovered when it is offered first, unless
it is a user file. So paths are discovered in the order of the files that offer them first, and
those that one file offers first in the order of its text. -/

namespace SourceTree.Resolution

open ImportPath

/-! ## Offers -/

def foreignImports (files : Listing String String) (importer text : String) : List String :=
  (importPaths text).filter fun path =>
    ((LocalFiles.ofFiles files).resolve (some importer) path).1.isNone

def nestedImports (importer text : String) : List String :=
  (importPaths text).map (meantIn importer)

theorem mem_foreignImports {files : Listing String String} {importer text path : String} :
    path ∈ foreignImports files importer text ↔
      path ∈ importPaths text ∧ Seeds.Foreign files importer path := by
  rw [foreignImports, List.mem_filter, Option.isNone_iff_eq_none, Seeds.Foreign]

def offers (files : Listing String String) (fetched : List (String × String)) :
    List (List String) :=
  (files.entries.map fun file => foreignImports files file.1 file.2) ++
    fetched.map fun file => nestedImports file.1 file.2

theorem offers_concat (files : Listing String String) (fetched : List (String × String))
    (path text : String) :
    offers files (fetched ++ [(path, text)]) =
      offers files fetched ++ [nestedImports path text] := by
  rw [offers, offers, List.map_append, ← List.append_assoc]
  rfl

def fresh (files : Listing String String) : (known : List String) → List String → List String
  | _, [] => []
  | known, path :: rest =>
      if path ∈ files ∨ path ∈ known then fresh files known rest
      else path :: fresh files (known ++ [path]) rest

def discoveredFrom (files : Listing String String) (offers : List (List String)) : List String :=
  offers.foldl (fun known offer => known ++ fresh files known offer) []

theorem discoveredFrom_concat (files : Listing String String) (offers : List (List String))
    (offer : List String) :
    discoveredFrom files (offers ++ [offer]) =
      discoveredFrom files offers ++ fresh files (discoveredFrom files offers) offer := by
  rw [discoveredFrom, List.foldl_append]
  rfl

variable {files : Listing String String}

theorem mem_fresh {known offer : List String} {path : String} :
    path ∈ fresh files known offer ↔ path ∈ offer ∧ path ∉ files ∧ path ∉ known := by
  fun_induction fresh files known offer with
  | case1 known => simp
  | case2 known head rest seen induction =>
      rw [induction, List.mem_cons]
      constructor
      · exact fun isFresh => ⟨Or.inr isFresh.1, isFresh.2⟩
      · rintro ⟨rfl | later, notUser, unknown⟩
        · exact (seen.elim notUser unknown).elim
        · exact ⟨later, notUser, unknown⟩
  | case3 known head rest unseen induction =>
      rw [not_or] at unseen
      rw [List.mem_cons, induction, List.mem_cons, List.mem_append, List.mem_singleton, not_or]
      constructor
      · rintro (rfl | ⟨later, notUser, unknown, _⟩)
        · exact ⟨Or.inl rfl, unseen⟩
        · exact ⟨Or.inr later, notUser, unknown⟩
      · rintro ⟨rfl | later, notUser, unknown⟩
        · exact Or.inl rfl
        · by_cases same : path = head
          · exact Or.inl same
          · exact Or.inr ⟨later, notUser, unknown, same⟩

theorem ne_of_mem_fresh {known offer : List String} {head path : String}
    (seen : head ∈ files ∨ head ∈ known) (isFresh : path ∈ fresh files known offer) :
    head ≠ path := by
  rintro rfl
  exact seen.elim (mem_fresh.1 isFresh).2.1 (mem_fresh.1 isFresh).2.2

theorem mem_discoveredFrom {offers : List (List String)} {path : String} :
    path ∈ discoveredFrom files offers ↔ path ∉ files ∧ ∃ offer ∈ offers, path ∈ offer := by
  induction offers using List.reverseRecOn with
  | nil => simp [discoveredFrom]
  | append_singleton offers offer induction =>
      rw [discoveredFrom_concat, List.mem_append, mem_fresh, induction]
      constructor
      · rintro (⟨notUser, earlier, isOffer, offered⟩ | ⟨offered, notUser, _⟩)
        · exact ⟨notUser, earlier, List.mem_append_left _ isOffer, offered⟩
        · exact ⟨notUser, offer, List.mem_append_right _ List.mem_cons_self, offered⟩
      · rintro ⟨notUser, other, isOffer, offered⟩
        by_cases known : ∃ earlier ∈ offers, path ∈ earlier
        · exact Or.inl ⟨notUser, known⟩
        · rcases List.mem_append.1 isOffer with earlier | isLast
          · exact absurd ⟨other, earlier, offered⟩ known
          · rw [List.mem_singleton.1 isLast] at offered
            exact Or.inr ⟨offered, notUser, fun isKnown => known isKnown.2⟩

theorem nodup_fresh (files : Listing String String) (known offer : List String) :
    (fresh files known offer).Nodup := by
  fun_induction fresh files known offer with
  | case1 known => exact List.nodup_nil
  | case2 known head rest seen induction => exact induction
  | case3 known head rest unseen induction =>
      have seen : head ∈ files ∨ head ∈ known ++ [head] :=
        Or.inr (List.mem_append_right known List.mem_cons_self)
      exact List.nodup_cons.2 ⟨fun again => ne_of_mem_fresh seen again rfl, induction⟩

theorem nodup_discoveredFrom (files : Listing String String) (offers : List (List String)) :
    (discoveredFrom files offers).Nodup := by
  induction offers using List.reverseRecOn with
  | nil => exact List.nodup_nil
  | append_singleton offers offer induction =>
      rw [discoveredFrom_concat, List.nodup_append]
      refine ⟨induction, nodup_fresh files _ offer, ?_⟩
      rintro path known other isFresh rfl
      exact (mem_fresh.1 isFresh).2.2 known

/-! ## First offers -/

def discoverer (offers : List (List String)) (path : String) : Nat :=
  offers.findIdx fun offer => path ∈ offer

def appearance (offers : List (List String)) (path : String) : Nat :=
  (offers[discoverer offers path]?.getD []).idxOf path

/-- Whether a path is offered before another, by an earlier file or further up in the same text. -/
def OfferedBefore (offers : List (List String)) (first second : String) : Prop :=
  discoverer offers first < discoverer offers second ∨
    discoverer offers first = discoverer offers second ∧
      appearance offers first < appearance offers second

theorem discoverer_append {offers : List (List String)} {path : String}
    (offered : ∃ offer ∈ offers, path ∈ offer) (more : List (List String)) :
    discoverer (offers ++ more) path = discoverer offers path ∧
      discoverer offers path < offers.length := by
  have within : discoverer offers path < offers.length :=
    List.findIdx_lt_length.2 (by simpa using offered)
  refine ⟨?_, within⟩
  rw [discoverer, List.findIdx_append]
  exact if_pos within

theorem appearance_append {offers : List (List String)} {path : String}
    (offered : ∃ offer ∈ offers, path ∈ offer) (more : List (List String)) :
    appearance (offers ++ more) path = appearance offers path := by
  rcases discoverer_append offered more with ⟨same, within⟩
  rw [appearance, same, List.getElem?_append_left within]
  rfl

theorem discoverer_concat {offers : List (List String)} {offer : List String} {path : String}
    (unoffered : ∀ earlier ∈ offers, path ∉ earlier) (offered : path ∈ offer) :
    discoverer (offers ++ [offer]) path = offers.length ∧
      appearance (offers ++ [offer]) path = offer.idxOf path := by
  have beyond : discoverer offers path = offers.length :=
    List.findIdx_eq_length_of_false (by simpa using unoffered)
  have last : discoverer (offers ++ [offer]) path = offers.length := by
    rw [discoverer, List.findIdx_append]
    unfold discoverer at beyond
    simp [beyond, List.findIdx_cons, offered]
  refine ⟨last, ?_⟩
  rw [appearance, last, List.getElem?_append_right (Nat.le_refl _), Nat.sub_self]
  rfl

theorem idxOf_cons_lt {head first second : String} {rest : List String}
    (isRest : head ≠ first) (isRestToo : head ≠ second)
    (before : rest.idxOf first < rest.idxOf second) :
    (head :: rest).idxOf first < (head :: rest).idxOf second := by
  rw [List.idxOf_cons_ne rest isRest, List.idxOf_cons_ne rest isRestToo]
  exact Nat.succ_lt_succ before

theorem pairwise_fresh (files : Listing String String) (known offer : List String) :
    (fresh files known offer).Pairwise fun first second =>
      offer.idxOf first < offer.idxOf second := by
  fun_induction fresh files known offer with
  | case1 known => exact .nil
  | case2 known head rest seen induction =>
      exact induction.imp_of_mem fun isFirst isSecond =>
        idxOf_cons_lt (ne_of_mem_fresh seen isFirst) (ne_of_mem_fresh seen isSecond)
  | case3 known head rest unseen induction =>
      have seen : head ∈ files ∨ head ∈ known ++ [head] :=
        Or.inr (List.mem_append_right known List.mem_cons_self)
      refine .cons (fun path isFresh => ?_) (induction.imp_of_mem fun isFirst isSecond =>
        idxOf_cons_lt (ne_of_mem_fresh seen isFirst) (ne_of_mem_fresh seen isSecond))
      rw [List.idxOf_cons_self, List.idxOf_cons_ne rest (ne_of_mem_fresh seen isFresh)]
      exact Nat.succ_pos _

/-- Paths are discovered in the order of their first offers. -/
theorem pairwise_discoveredFrom (files : Listing String String) (offers : List (List String)) :
    (discoveredFrom files offers).Pairwise (OfferedBefore offers) := by
  induction offers using List.reverseRecOn with
  | nil => exact .nil
  | append_singleton offers offer induction =>
      have offered : ∀ path ∈ discoveredFrom files offers, ∃ earlier ∈ offers, path ∈ earlier :=
        fun path known => (mem_discoveredFrom.1 known).2
      have new : ∀ path ∈ fresh files (discoveredFrom files offers) offer,
          discoverer (offers ++ [offer]) path = offers.length ∧
            appearance (offers ++ [offer]) path = offer.idxOf path := by
        intro path isFresh
        rcases mem_fresh.1 isFresh with ⟨inOffer, notUser, unknown⟩
        refine discoverer_concat (fun earlier isOffer inEarlier => unknown ?_) inOffer
        exact mem_discoveredFrom.2 ⟨notUser, earlier, isOffer, inEarlier⟩
      rw [discoveredFrom_concat, List.pairwise_append]
      refine ⟨induction.imp_of_mem fun {first second} isFirst isSecond before => ?_,
        (pairwise_fresh files _ offer).imp_of_mem fun {first second} isFirst isSecond before => ?_,
        fun first isFirst second isSecond => ?_⟩
      · rw [OfferedBefore, (discoverer_append (offered first isFirst) _).1,
          (discoverer_append (offered second isSecond) _).1,
          appearance_append (offered first isFirst), appearance_append (offered second isSecond)]
        exact before
      · rw [OfferedBefore, (new first isFirst).1, (new second isSecond).1, (new first isFirst).2,
          (new second isSecond).2]
        exact Or.inr ⟨rfl, before⟩
      · rcases discoverer_append (offered first isFirst) [offer] with ⟨same, within⟩
        rw [OfferedBefore, same, (new second isSecond).1]
        exact Or.inl within

/-! ## What passes discover -/

theorem discoveries_eq_fresh {importer : String} (paths : List String) {known : List String}
    (isKnown : importer ∈ known) :
    Pass.discoveries files importer known paths =
      fresh files known (paths.map (meantIn importer)) := by
  induction paths generalizing known with
  | nil => rfl
  | cons path rest induction =>
      have same : (meantIn importer path = importer ∨ meantIn importer path ∈ files ∨
          meantIn importer path ∈ known) ↔
            (meantIn importer path ∈ files ∨ meantIn importer path ∈ known) :=
        or_iff_right_of_imp fun isImporter => Or.inr (isImporter.symm ▸ isKnown)
      simp only [Pass.discoveries, List.map_cons, fresh, same, induction isKnown,
        induction (List.mem_append_left [meantIn importer path] isKnown)]

theorem foldl_addImport (importer : String) {paths : List String} {seeds : Seeds}
    (consistent : Seeds.Consistent files seeds)
    (isAsked : ∀ path ∈ paths, (importer, path) ∈ Seeds.asked files) :
    Seeds.Consistent files (paths.foldl (Seeds.addImport importer) seeds) ∧
      (paths.foldl (Seeds.addImport importer) seeds).discovered =
        seeds.discovered ++ fresh files seeds.discovered (paths.filter fun path =>
          ((LocalFiles.ofFiles files).resolve (some importer) path).1.isNone) := by
  induction paths generalizing seeds with
  | nil => exact ⟨consistent, (List.append_nil _).symm⟩
  | cons path rest induction =>
      have next := consistent.addImport (isAsked path List.mem_cons_self)
      rcases induction next fun other later => isAsked other (List.mem_cons_of_mem path later) with
        ⟨last, discovered⟩
      refine ⟨last, discovered.trans ?_⟩
      -- Whether the import has an answer does not depend on what was asked before it.
      have answer := consistent.resolve_eq_none_iff importer path
      unfold Seeds.Foreign at answer
      rw [Seeds.addImport]
      cases isForeign : ((LocalFiles.ofFiles files).resolve (some importer) path).1 with
      | some file =>
          rw [isForeign] at answer
          rw [List.filter_cons_of_neg (by simp [isForeign])]
          generalize seeds.locals.resolve (some importer) path = result at answer
          rcases result with ⟨_ | known, locals⟩
          · cases answer.1 rfl
          · rfl
      | none =>
          rw [isForeign] at answer
          rw [List.filter_cons_of_pos (by simp [isForeign])]
          generalize seeds.locals.resolve (some importer) path = result at answer
          rcases result with ⟨_ | known, locals⟩
          · have notUser : path ∉ files :=
              ((LocalFiles.resolve_fst_eq_none_iff _ _ _).1 isForeign).1
            by_cases isKnown : path ∈ seeds.discovered
            · simp only [ResolutionState.appendNew, fresh, isKnown, or_true, if_true]
            · simp only [ResolutionState.appendNew, fresh, isKnown, notUser, or_false, if_false,
                List.append_assoc, List.cons_append, List.nil_append]
          · cases answer.2 rfl

theorem discovered_foldl_addFile {rest : List (String × String)} {seeds : Seeds}
    (consistent : Seeds.Consistent files seeds) (within : ∀ file ∈ rest, file ∈ files.entries) :
    (rest.foldl Seeds.addFile seeds).discovered =
      (rest.map fun file => foreignImports files file.1 file.2).foldl
        (fun known offer => known ++ fresh files known offer) seeds.discovered := by
  induction rest generalizing seeds with
  | nil => rfl
  | cons file rest induction =>
      have isAsked : ∀ path ∈ importPaths file.2, (file.1, path) ∈ Seeds.asked files :=
        fun path imports => Seeds.mem_asked.2
          ⟨file.2, Listing.get?_eq_some_iff.2 (within file List.mem_cons_self), imports⟩
      rcases foldl_addImport file.1 consistent isAsked with ⟨next, discovered⟩
      rw [List.foldl_cons, List.map_cons, List.foldl_cons, Seeds.addFile,
        induction next fun other later => within other (List.mem_cons_of_mem file later),
        discovered]
      rfl

theorem discovered_ofFiles (files : Listing String String) :
    (Seeds.ofFiles files).discovered = discoveredFrom files (offers files []) := by
  have consistent := Seeds.consistent_unasked files
  rw [Seeds.ofFiles, discovered_foldl_addFile consistent fun _ isFile => isFile, offers,
    List.map_nil, List.append_nil]
  rfl

end SourceTree.Resolution
