import Mustache.Proofs.Scope.Noted
import Mustache.Proofs.Scope.Paths

/-!
# The requesting frame

A method that sees a frame is to be given the one from which the path is resolved, wherever its
object was found. What it is given does not show in what a path names, so resolving is gone through
once more, in the way that `Overheard` says: every call of such a method is noted with what it is
given, and is answered from nothing else. That does the same, and all the calls are given the one
frame: `Scope.resolve_overheard`.
-/

namespace Mustache

/-- A call of a method that sees a frame. -/
structure MethodCall where
  /-- The object whose member is read. -/
  identity : Nat
  /-- The member. -/
  accessor : Accessor
  /-- The frame that the method is given, with all frames around it. -/
  given : Scope

/-- A step of resolving that notes the calls of methods that see a frame. -/
abbrev Overheard := Noted Stall AccessorCache MethodCall

namespace Overheard

/-- What a method answers to a call; `resolve` resolves paths from frames. -/
def answer (resolve : Scope → String → Overheard Resolved) (host : Host) (call : MethodCall) :
    ContextCall → Overheard (Option Value)
  | .resolution path => do return (← resolve call.given path).value?
  | other => Noted.of (other.answer (call.given.resolveInMethods host) host call.given call.identity
      call.accessor.route)

/-- What a member of an object answers with on behalf of the frame `origin`. -/
def read (resolve : Scope → String → Overheard Resolved) (host : Host) (origin : Scope)
    (identity : Nat) (accessor : Accessor) : Overheard (Option Value) := do
  let found ← match accessor.member.reading with
    | .field key | .method key => pure (host.fieldAt? identity accessor.route key)
    | .contextMethod asked => do
      let call : MethodCall := ⟨identity, accessor, origin⟩
      Noted.note call
      answer resolve host call asked
  return accessor.member.shape.answer found

/-- What a name names in a value that is not deferred, on behalf of the frame `origin`. -/
def findConcrete (resolve : Scope → String → Overheard Resolved) (host : Host) (origin : Scope)
    (value : Value) (name : String) : Overheard Finding :=
  match value with
  | .object identity => do
    match ← Noted.of (Resolution.ofState
      (AccessorCache.resolve host.schema (host.typeOf identity) name)) with
    | none => return .unknown
    | some accessor => return accessor.finding (← read resolve host origin identity accessor)
  | other => Noted.of (Scope.findConcrete (origin.resolveInMethods host) host origin other name)

/-- What a name names in a value, on behalf of the frame `origin`. -/
def find (resolve : Scope → String → Overheard Resolved) (host : Host) (origin : Scope)
    (value : Value) (name : String) : Overheard Finding := do
  match ← Noted.of (Resolution.ofExcept (host.settle value)) with
  | none => return .unknown
  | some concrete => findConcrete resolve host origin concrete name

/-- What the names `rest` name one after another, beginning in a value. -/
def descend (resolve : Scope → String → Overheard Resolved) (host : Host) (origin : Scope)
    (value : Value) : List String → Overheard Resolved
  | [] => Noted.of (Scope.settled host value)
  | name :: rest => do
    match ← find resolve host origin value name with
    | .found next => descend resolve host origin next rest
    | .empty => return .empty
    | .absent | .unknown => return .absent

/-- What a name names in a frame, as `Scope.findInFrame` has it. -/
def findInFrame (resolve : Scope → String → Overheard Resolved) (host : Host) (origin : Scope)
    (frame : Frame) (name : String) : Overheard Finding :=
  match frame.binding? name with
  | some value => pure (.found value)
  | none =>
    match frame.host with
    | some value => find resolve host origin value name
    | none => pure .unknown

/-- What the name `first` and then the names `rest` name from the innermost of some frames. -/
def resolveNames (resolve : Scope → String → Overheard Resolved) (host : Host) (origin : Scope)
    (first : String) (rest : List String) : List Frame → Overheard Resolved
  | [] => return .absent
  | frame :: outer => do
    match ← findInFrame resolve host origin frame first with
    | .found value => descend resolve host origin value rest
    | .empty => return .empty
    | .absent => return .absent
    | .unknown => resolveNames resolve host origin first rest outer

/-- What a path names from a scope, where methods resolve paths by `resolve`. -/
def resolveUsing (resolve : Scope → String → Overheard Resolved) (host : Host) (scope : Scope)
    (path : String) : Overheard Resolved :=
  if path = Path.implicit then
    match scope.implicitValue? with
    | some value => Noted.of (Scope.settled host value)
    | none => return .absent
  else
    match Path.components path with
    | [] => return .absent
    | first :: rest => resolveNames resolve host scope first rest scope.frames

/-- What a path names from a scope, where methods resolve paths at most `count` deep inside
each other. -/
def resolveWithin (host : Host) : Nat → Scope → String → Overheard Resolved
  | 0 => resolveUsing (fun _ _ => Noted.of (Resolution.stalled .circular)) host
  | count + 1 => resolveUsing (resolveWithin host count) host

/-- What a path names from a scope, as `Scope.resolve` has it, with the calls of methods noted. -/
def resolve (host : Host) (scope : Scope) (path : String) : Overheard Resolved :=
  resolveWithin host host.resolvingMethods scope path

/-- All calls are given one frame. -/
def terms (origin : Scope) : Noted.Terms Stall AccessorCache MethodCall where
  state _ := True
  entry call := call.given = origin
  error _ := True

variable {α : Type} {origin : Scope}

/-- A step without calls. -/
theorem follows_of (step : Resolution α) : Noted.Follows (terms origin) (Noted.of step) step :=
  .of fun _ _ => ⟨trivial, fun _ _ => trivial⟩

variable {noted : Scope → String → Overheard Resolved} {plain : String → Resolution Resolved}
  (resolves : ∀ path, Noted.Follows (terms origin) (noted origin path) (plain path)) (host : Host)

include resolves

theorem answer_follows (identity : Nat) (accessor : Accessor) (asked : ContextCall) :
    Noted.Follows (terms origin) (answer noted host ⟨identity, accessor, origin⟩ asked)
      (asked.answer plain host origin identity accessor.route) := by
  cases asked with
  | resolution path => exact (resolves path).bind fun resolved => .pure resolved.value?
  | own | hostText | depth | hasParent | binding => exact follows_of _

theorem read_follows (identity : Nat) (accessor : Accessor) :
    Noted.Follows (terms origin) (read noted host origin identity accessor)
      (accessor.read plain host origin identity) := by
  unfold read Accessor.read
  cases accessor.member.reading with
  | field key | method key => exact (Noted.Follows.pure _).bind fun _ => .pure _
  | contextMethod asked =>
    exact .noting rfl ((answer_follows resolves host identity accessor asked).bind fun _ => .pure _)

theorem findConcrete_follows (value : Value) (name : String) :
    Noted.Follows (terms origin) (findConcrete noted host origin value name)
      (Scope.findConcrete plain host origin value name) := by
  cases value with
  | object identity =>
    refine (follows_of _).bind fun found => ?_
    cases found with
    | none => exact .pure _
    | some accessor => exact (read_follows resolves host identity accessor).bind fun _ => .pure _
  | map | list | document | bool | int | float | str | deferred => exact follows_of _

theorem find_follows (value : Value) (name : String) :
    Noted.Follows (terms origin) (find noted host origin value name)
      (Scope.find plain host origin value name) := by
  refine (follows_of _).bind fun settled => ?_
  cases settled with
  | none => exact .pure _
  | some concrete => exact findConcrete_follows resolves host concrete name

/-- However many names `descend` looks for in what was found, the frame stays the same. -/
theorem descend_follows (value : Value) (names : List String) :
    Noted.Follows (terms origin) (descend noted host origin value names)
      (Scope.descend plain host origin value names) := by
  induction names generalizing value with
  | nil => exact follows_of _
  | cons name rest inductionHypothesis =>
    refine (find_follows resolves host value name).bind fun finding => ?_
    cases finding with
    | found next => exact inductionHypothesis next
    | empty | absent | unknown => exact .pure _

theorem findInFrame_follows (frame : Frame) (name : String) :
    Noted.Follows (terms origin) (findInFrame noted host origin frame name)
      (Scope.findInFrame plain host origin frame name) := by
  unfold findInFrame Scope.findInFrame
  cases frame.binding? name with
  | some value => exact .pure _
  | none =>
    cases frame.host with
    | some value => exact find_follows resolves host value name
    | none => exact .pure _

/-- However far out `resolveNames` looks for a name, the frame stays the same. -/
theorem resolveNames_follows (first : String) (rest : List String) (frames : List Frame) :
    Noted.Follows (terms origin) (resolveNames noted host origin first rest frames)
      (Scope.resolveNames plain host origin first rest frames) := by
  induction frames with
  | nil => exact .pure _
  | cons frame outer inductionHypothesis =>
    refine (findInFrame_follows resolves host frame first).bind fun finding => ?_
    cases finding with
    | found value => exact descend_follows resolves host value rest
    | empty | absent => exact .pure _
    | unknown => exact inductionHypothesis

theorem resolveUsing_follows (path : String) :
    Noted.Follows (terms origin) (resolveUsing noted host origin path)
      (Scope.resolveUsing plain host origin path) := by
  unfold resolveUsing Scope.resolveUsing
  split
  · cases origin.implicitValue? with
    | some value => exact follows_of _
    | none => exact .pure _
  · cases Path.components path with
    | nil => exact .pure _
    | cons first rest => exact resolveNames_follows resolves host first rest origin.frames

omit resolves

/-- However deep methods resolve paths inside of each other (`resolveWithin`), the frame stays the
same. -/
theorem resolveWithin_follows (count : Nat) (path : String) :
    Noted.Follows (terms origin) (resolveWithin host count origin path)
      (origin.resolveWithin host count path) := by
  induction count generalizing path with
  | zero =>
    rw [resolveWithin, Scope.resolveWithin_zero]
    exact resolveUsing_follows (fun _ => follows_of _) host path
  | succ count inductionHypothesis =>
    rw [resolveWithin, Scope.resolveWithin_succ]
    exact resolveUsing_follows inductionHypothesis host path

end Overheard

/-- Methods that see a frame always see the one from which a path is resolved. For every scope and
every path, and whatever members were found before, `Scope.resolve` can be overheard
(`Overheard.resolve`), and each method of an object that is called then is given that frame, with
its host value, its bound names and all frames around it: in whichever frame, behind whichever names
and through whichever embedded types the object or the method was found, and also if another method
asked for a path. -/
theorem Scope.resolve_overheard (host : Host) (scope : Scope) (path : String)
    (cache : AccessorCache) :
    ∃ calls, Overheard.resolve host scope path (cache, []) =
        ((scope.resolve host path cache).1, ((scope.resolve host path cache).2, calls)) ∧
      ∀ call ∈ calls, call.given = scope :=
  (Overheard.resolveWithin_follows host host.resolvingMethods path).notes cache [] trivial

/-- Two frames further out a method leads to a slot, and behind it a method of an embedded type is
called. Both are given the innermost of the three frames. -/
example :
    let host : Host := ⟨[[.member ⟨"next", .contextMethod (.own "next"), .optional⟩, .inherit 1],
        [.member ⟨"depth", .contextMethod .depth, .required⟩]],
      #[⟨0, none, [("next", .deferred 0)], [(1, 1)]⟩, ⟨1, none, [], []⟩], #[.ready (.object 0)]⟩
    let scope := ((Scope.root (.ofHost (.object 0))).child none).child (some (.str "inner"))
    (Overheard.resolve host scope "next.depth" ({}, [])).2.2.map
        (fun call => (call.identity, call.accessor.route, call.given.depth)) =
      [(0, [], 3), (0, [1], 3)] := by
  decide +kernel

end Mustache
