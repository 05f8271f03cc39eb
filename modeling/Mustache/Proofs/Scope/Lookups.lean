import Mustache.Proofs.Scope.Alike

/-!
# Members that are looked up

Resolving a path looks up members of the objects on its way, and so do the methods that resolve
paths themselves. `Scope.lookups` lists these members, each by its type and its name, as they are
looked up. `Scope.resolve_looksUp` says that this is all the cache is used for: from every sound
cache a path names the same, and the cache is left as looking up one listed member after another
leaves it.
-/

namespace Mustache

namespace AccessorCache

/-- The cache after `AccessorCache.resolve` looked a member up by its type and its name. -/
def lookUp (schema : Schema) (cache : AccessorCache) (key : Nat × String) : AccessorCache :=
  (resolve schema key.1 key.2 cache).2

/-- The cache after members were looked up one after another. -/
def lookUpAll (schema : Schema) (keys : List (Nat × String)) (cache : AccessorCache) :
    AccessorCache :=
  keys.foldl (lookUp schema) cache

variable {schema : Schema} {cache : AccessorCache}

theorem lookUpAll_append (first second : List (Nat × String)) :
    cache.lookUpAll schema (first ++ second) =
      (cache.lookUpAll schema first).lookUpAll schema second :=
  List.foldl_append

/-- A cache stays `Sound` whatever is looked up. -/
theorem Sound.lookUpAll (sound : cache.Sound schema) (keys : List (Nat × String)) :
    (cache.lookUpAll schema keys).Sound schema := by
  induction keys generalizing cache with
  | nil => exact sound
  | cons key rest inductionHypothesis => exact inductionHypothesis (sound.resolve key.1 key.2).2

end AccessorCache

open AccessorCache

namespace Resolution

variable {α β : Type} {schema : Schema}

/-- What a step answers when no member was found before. -/
def answer (step : Resolution α) : Except Stall α :=
  (step {}).1

/-- A step that from every sound cache answers the same and leaves the cache as looking up some
members does. -/
def LooksUp (schema : Schema) (keys : List (Nat × String)) (step : Resolution α) : Prop :=
  ∀ cache : AccessorCache, cache.Sound schema →
    step cache = (step.answer, cache.lookUpAll schema keys)

namespace LooksUp

variable {keys : List (Nat × String)} {step : Resolution α} {next : α → Resolution β}

theorem pure (value : α) : LooksUp schema [] (Pure.pure value : Resolution α) :=
  fun _ _ => rfl

theorem ofExcept (result : Except Stall α) : LooksUp schema [] (Resolution.ofExcept result) :=
  fun _ _ => rfl

theorem stalled (stall : Stall) : LooksUp schema [] (Resolution.stalled stall : Resolution α) :=
  fun _ _ => rfl

/-- A step `LooksUp` some members if from every sound cache it has one result and does so. -/
theorem of_result (result : Except Stall α) (ran : ∀ cache : AccessorCache, cache.Sound schema →
    step cache = (result, cache.lookUpAll schema keys)) : step.LooksUp schema keys := by
  have ended : step.answer = result := congrArg Prod.fst (ran {} (sound_empty schema))
  intro cache sound
  rw [ended]
  exact ran cache sound

/-- A step that did not come to its end `LooksUp` nothing more. -/
theorem bind_error {stall : Stall} (first : step.LooksUp schema keys)
    (failed : step.answer = .error stall) : LooksUp schema keys (step >>= next) := by
  refine of_result (.error stall) fun cache sound => ?_
  rw [bind_apply, first cache sound, failed]

/-- Two steps one after the other look up (`LooksUp`) what the first does and then what the second
does. -/
theorem bind_ok {rest : List (Nat × String)} {value : α} (first : step.LooksUp schema keys)
    (found : step.answer = .ok value) (second : (next value).LooksUp schema rest) :
    LooksUp schema (keys ++ rest) (step >>= next) := by
  refine of_result (next value).answer fun cache sound => ?_
  rw [bind_apply, first cache sound, found, lookUpAll_append]
  exact second _ (sound.lookUpAll keys)

/-- A step after which nothing is looked up. -/
theorem bind_pure (first : step.LooksUp schema keys) (last : α → β) :
    LooksUp schema keys (step >>= fun value => Pure.pure (last value)) := by
  cases ended : step.answer with
  | error stall => exact first.bind_error ended
  | ok value =>
    rw [← List.append_nil keys]
    exact first.bind_ok ended (pure (last value))

/-- A member is resolved by looking it up, and `Schema.find?` tells what it is. -/
theorem member (schema : Schema) (type : Nat) (name : String) :
    LooksUp schema [(type, name)] (ofState (AccessorCache.resolve schema type name)) ∧
      (ofState (AccessorCache.resolve schema type name)).answer =
        .ok (schema.find? type name) := by
  have found : (ofState (AccessorCache.resolve schema type name)).answer =
      .ok (schema.find? type name) :=
    congrArg Except.ok ((sound_empty schema).resolve type name).1
  refine ⟨fun cache sound => ?_, found⟩
  rw [found]
  exact Prod.ext (congrArg Except.ok (sound.resolve type name).1) rfl

end LooksUp

end Resolution

/-- The members that are looked up to read a member, if `asked` lists those for each path that a
method resolves. -/
def Accessor.lookups (asked : String → List (Nat × String)) (accessor : Accessor) :
    List (Nat × String) :=
  match accessor.member.reading with
  | .contextMethod (.resolution path) => asked path
  | _ => []

namespace Scope

/-- The members that are looked up to find a name in a value. -/
def findLookups (asked : String → List (Nat × String)) (host : Host) (value : Value)
    (name : String) : List (Nat × String) :=
  match host.settle value with
  | .ok (some (.object identity)) =>
    let type := host.typeOf identity
    (type, name) :: match host.schema.find? type name with
      | some accessor => accessor.lookups asked
      | none => []
  | _ => []

/-- The members that are looked up to find names one after another, beginning in a value. -/
def descendLookups (resolve : String → Resolution Resolved) (asked : String → List (Nat × String))
    (host : Host) (origin : Scope) (value : Value) : List String → List (Nat × String)
  | [] => []
  | name :: rest =>
    findLookups asked host value name ++
      match (find resolve host origin value name).answer with
      | .ok (.found next) => descendLookups resolve asked host origin next rest
      | _ => []

/-- The members that are looked up to find a name in a frame. -/
def findInFrameLookups (asked : String → List (Nat × String)) (host : Host) (frame : Frame)
    (name : String) : List (Nat × String) :=
  match frame.binding? name with
  | some _ => []
  | none =>
    match frame.host with
    | some value => findLookups asked host value name
    | none => []

/-- The members that are looked up to find names from the innermost of some frames. -/
def resolveNamesLookups (resolve : String → Resolution Resolved)
    (asked : String → List (Nat × String)) (host : Host) (origin : Scope) (first : String)
    (rest : List String) : List Frame → List (Nat × String)
  | [] => []
  | frame :: outer =>
    findInFrameLookups asked host frame first ++
      match (findInFrame resolve host origin frame first).answer with
      | .ok (.found value) => descendLookups resolve asked host origin value rest
      | .ok .unknown => resolveNamesLookups resolve asked host origin first rest outer
      | _ => []

/-- The members that are looked up to resolve a path, where methods resolve paths by `resolve`. -/
def lookupsUsing (resolve : String → Resolution Resolved) (asked : String → List (Nat × String))
    (host : Host) (scope : Scope) (path : String) : List (Nat × String) :=
  if path = Path.implicit then []
  else
    match Path.components path with
    | [] => []
    | first :: rest => resolveNamesLookups resolve asked host scope first rest scope.frames

/-- The members that are looked up to resolve a path, where methods resolve paths at most `count`
deep inside each other. -/
def lookupsWithin (host : Host) (scope : Scope) (count : Nat) (path : String) :
    List (Nat × String) :=
  match count with
  | 0 => lookupsUsing (fun _ => Resolution.stalled .circular) (fun _ => []) host scope path
  | count + 1 =>
    lookupsUsing (scope.resolveWithin host count) (lookupsWithin host scope count) host scope path

/-- The members that `resolve` looks up for a path from a scope, each by its type and its name. -/
def lookups (host : Host) (scope : Scope) (path : String) : List (Nat × String) :=
  lookupsWithin host scope host.resolvingMethods path

end Scope

open Resolution

section Paths

variable {host : Host} {resolve : String → Resolution Resolved}
  {asked : String → List (Nat × String)}
  (inner : ∀ path, (resolve path).LooksUp host.schema (asked path)) (origin : Scope)

include inner

theorem Accessor.read_looksUp (identity : Nat) (accessor : Accessor) :
    (accessor.read resolve host origin identity).LooksUp host.schema (accessor.lookups asked) := by
  unfold read lookups
  cases accessor.member.reading with
  | field | method => exact (LooksUp.pure _).bind_pure _
  | contextMethod call =>
    refine LooksUp.bind_pure ?_ _
    cases call with
    | own | depth | hasParent | binding => exact .pure _
    | hostText =>
      rw [ContextCall.answer]
      cases origin.frame.host with
      | none => exact .pure _
      | some value => exact (LooksUp.ofExcept _).bind_pure _
    | resolution path => exact (inner path).bind_pure _

namespace Scope

theorem find_looksUp (value : Value) (name : String) :
    (find resolve host origin value name).LooksUp host.schema
      (findLookups asked host value name) := by
  unfold find findLookups
  rcases host.settle value with stall | _ | concrete
  · exact (LooksUp.ofExcept _).bind_error rfl
  · exact (LooksUp.ofExcept _).bind_ok rfl (.pure _)
  · refine (LooksUp.ofExcept _).bind_ok rfl ?_
    cases concrete with
    | object identity =>
      obtain ⟨looksUp, found⟩ := LooksUp.member host.schema (host.typeOf identity) name
      refine looksUp.bind_ok found ?_
      cases host.schema.find? (host.typeOf identity) name with
      | none => exact .pure _
      | some accessor => exact (Accessor.read_looksUp inner origin identity accessor).bind_pure _
    | map | list | document | bool | int | float | str | deferred => exact .pure _

omit inner in
theorem settled_looksUp (value : Value) : (settled host value).LooksUp host.schema [] := by
  unfold settled
  rcases host.settle value with stall | _ | concrete
  · exact (LooksUp.ofExcept _).bind_error rfl
  · exact (LooksUp.ofExcept _).bind_ok rfl (.pure _)
  · exact (LooksUp.ofExcept _).bind_ok rfl (.pure _)

theorem descend_looksUp (value : Value) (names : List String) :
    (descend resolve host origin value names).LooksUp host.schema
      (descendLookups resolve asked host origin value names) := by
  induction names generalizing value with
  | nil => exact settled_looksUp value
  | cons name rest inductionHypothesis =>
    have first := find_looksUp inner origin value name
    unfold descend descendLookups
    cases found : (find resolve host origin value name).answer with
    | error stall =>
      rw [List.append_nil]
      exact first.bind_error found
    | ok finding =>
      refine first.bind_ok found ?_
      cases finding with
      | found next => exact inductionHypothesis next
      | empty | absent | unknown => exact .pure _

theorem findInFrame_looksUp (frame : Frame) (name : String) :
    (findInFrame resolve host origin frame name).LooksUp host.schema
      (findInFrameLookups asked host frame name) := by
  unfold findInFrame findInFrameLookups
  cases frame.binding? name with
  | some value => exact .pure _
  | none =>
    cases frame.host with
    | some value => exact find_looksUp inner origin value name
    | none => exact .pure _

theorem resolveNames_looksUp (first : String) (rest : List String) (frames : List Frame) :
    (resolveNames resolve host origin first rest frames).LooksUp host.schema
      (resolveNamesLookups resolve asked host origin first rest frames) := by
  induction frames with
  | nil => exact .pure _
  | cons frame outer inductionHypothesis =>
    have inFrame := findInFrame_looksUp inner origin frame first
    unfold resolveNames resolveNamesLookups
    cases found : (findInFrame resolve host origin frame first).answer with
    | error stall =>
      rw [List.append_nil]
      exact inFrame.bind_error found
    | ok finding =>
      refine inFrame.bind_ok found ?_
      cases finding with
      | found value => exact descend_looksUp inner origin value rest
      | empty | absent => exact .pure _
      | unknown => exact inductionHypothesis

theorem resolveUsing_looksUp (path : String) :
    (resolveUsing resolve host origin path).LooksUp host.schema
      (lookupsUsing resolve asked host origin path) := by
  unfold resolveUsing lookupsUsing
  split
  · cases origin.implicitValue? with
    | some value => exact settled_looksUp value
    | none => exact .pure _
  · cases Path.components path with
    | nil => exact .pure _
    | cons first rest => exact resolveNames_looksUp inner origin first rest origin.frames

end Scope

end Paths

namespace Scope

theorem resolveWithin_zero (host : Host) (scope : Scope) :
    scope.resolveWithin host 0 =
      resolveUsing (fun _ => Resolution.stalled .circular) host scope := rfl

theorem resolveWithin_succ (host : Host) (scope : Scope) (count : Nat) :
    scope.resolveWithin host (count + 1) =
      resolveUsing (scope.resolveWithin host count) host scope := rfl

/-- Resolving a path is `resolveUsing` some way in which methods do so. -/
theorem exists_resolve_eq (host : Host) (scope : Scope) :
    ∃ inner, scope.resolve host = resolveUsing inner host scope := by
  unfold resolve
  cases host.resolvingMethods with
  | zero => exact ⟨_, resolveWithin_zero host scope⟩
  | succ count => exact ⟨_, resolveWithin_succ host scope count⟩

theorem resolveWithin_looksUp (host : Host) (scope : Scope) (count : Nat) (path : String) :
    (scope.resolveWithin host count path).LooksUp host.schema
      (scope.lookupsWithin host count path) := by
  induction count generalizing path with
  | zero =>
    rw [resolveWithin_zero, lookupsWithin]
    exact resolveUsing_looksUp (fun _ => .stalled _) scope path
  | succ count inductionHypothesis =>
    rw [resolveWithin_succ, lookupsWithin]
    exact resolveUsing_looksUp inductionHypothesis scope path

/-- A path names the same from every sound cache, and resolving it does nothing to the cache but
look up the members that `lookups` lists. -/
theorem resolve_looksUp (host : Host) (scope : Scope) (path : String) :
    (scope.resolve host path).LooksUp host.schema (scope.lookups host path) :=
  resolveWithin_looksUp host scope host.resolvingMethods path

/-- A path names the same by `resolve` whatever members a sound cache holds. -/
theorem resolve_alike (host : Host) (scope : Scope) (path : String) :
    Alike (BothSound host.schema) (scope.resolve host path) (scope.resolve host path) := by
  rintro first second ⟨firstSound, secondSound⟩
  rw [resolve_looksUp host scope path first firstSound,
    resolve_looksUp host scope path second secondSound]
  exact ⟨rfl, firstSound.lookUpAll _, secondSound.lookUpAll _⟩

end Scope

end Mustache
