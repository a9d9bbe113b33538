import SourceTree.Listing

/-! # Content caches

Fetched contents and final failures by import path, whatever address they came from. A path that
gets content loses its failure. A cache does not look into the failures that it holds. -/

namespace SourceTree

structure ContentCache (E : Type) where
  contents : Listing String String
  failures : Listing String E

namespace ContentCache

variable {E : Type}

def empty : ContentCache E := ⟨.empty, .empty⟩

def content? (cache : ContentCache E) (path : String) : Option String :=
  cache.contents.get? path

def failure? (cache : ContentCache E) (path : String) : Option E :=
  cache.failures.get? path

def put (cache : ContentCache E) (path content : String) : ContentCache E :=
  ⟨cache.contents.insert path content, cache.failures.erase path⟩

def recordFailure (cache : ContentCache E) (path : String) (error : E) : ContentCache E :=
  { cache with failures := cache.failures.insert path error }

theorem content?_put (cache : ContentCache E) (path other content : String) :
    (cache.put path content).content? other =
      if other = path then some content else cache.content? other :=
  Listing.get?_insert cache.contents path other content

theorem failure?_put (cache : ContentCache E) (path other content : String) :
    (cache.put path content).failure? other =
      if other = path then none else cache.failure? other :=
  Listing.get?_erase cache.failures path other

theorem failure?_recordFailure (cache : ContentCache E) (path other : String) (error : E) :
    (cache.recordFailure path error).failure? other =
      if other = path then some error else cache.failure? other :=
  Listing.get?_insert cache.failures path other error

def AgreeAt (left right : ContentCache E) (path : String) : Prop :=
  left.content? path = right.content? path ∧ left.failure? path = right.failure? path

theorem AgreeAt.symm {left right : ContentCache E} {path : String}
    (agree : AgreeAt left right path) : AgreeAt right left path :=
  ⟨agree.1.symm, agree.2.symm⟩

theorem AgreeAt.trans {first second third : ContentCache E} {path : String}
    (left : AgreeAt first second path) (right : AgreeAt second third path) :
    AgreeAt first third path :=
  ⟨left.1.trans right.1, left.2.trans right.2⟩

end ContentCache

end SourceTree
