import Mustache.Proofs.Host.Settling
import Mustache.Proofs.Scope.Lookups
import Mustache.Proofs.Storage.Path

/-!
# Longer paths

A path of more names leads on from what a path of fewer names leads to. Frames are only asked for
the first name, so it does not matter at which later dot a path is divided; and what a path names
has settled, so that looking further in it is looking further in what it settled from. With that
`Scope.resolve_append` says what a path names after a dot.
-/

namespace Mustache

/-- What has been found of a path when no names are left. -/
def Finding.resolved (host : Host) : Finding → Resolution Resolved
  | .found value => Scope.settled host value
  | .empty => pure .empty
  | .absent | .unknown => pure .absent

namespace Scope

/-- What a further name leads to from what was found so far. Nothing is looked for where a list
holds nothing or nothing was found. -/
def findNext (resolve : String → Resolution Resolved) (host : Host) (origin : Scope) :
    Finding → String → Resolution Finding
  | .found value, name => find resolve host origin value name
  | ended, _ => pure ended

/-- What names lead to that are looked for one after another with `findNext`: the first one in a
value, each further one in what was found under the one before it. -/
def lookUp (resolve : String → Resolution Resolved) (host : Host) (origin : Scope) (value : Value)
    (names : List String) : Resolution Resolved := do
  let finding ← names.foldlM (findNext resolve host origin) (.found value)
  finding.resolved host

/-- How methods that are given a frame resolve paths, when a path is resolved from that frame. -/
def resolveInMethods (host : Host) (scope : Scope) : String → Resolution Resolved :=
  match host.resolvingMethods with
  | 0 => fun _ => Resolution.stalled .circular
  | count + 1 => scope.resolveWithin host count

theorem resolve_eq_resolveUsing (host : Host) (scope : Scope) :
    scope.resolve host = resolveUsing (scope.resolveInMethods host) host scope := by
  unfold resolve resolveInMethods
  cases host.resolvingMethods with
  | zero => exact resolveWithin_zero host scope
  | succ count => exact resolveWithin_succ host scope count

variable {resolve : String → Resolution Resolved} {host : Host} {origin : Scope}

/-- Where nothing more is looked for by `findNext`, further names change nothing. -/
theorem foldlM_findNext_of_ended {finding : Finding} (ended : ∀ value, finding ≠ .found value)
    (names : List String) :
    names.foldlM (findNext resolve host origin) finding = pure finding := by
  induction names with
  | nil => rfl
  | cons name rest inductionHypothesis =>
    have stays : findNext resolve host origin finding name = pure finding := by
      cases finding with
      | found value => exact absurd rfl (ended value)
      | empty | absent | unknown => rfl
    rw [List.foldlM_cons, stays, pure_bind, inductionHypothesis]

/-- To `descend` is to look names up one after another (`lookUp`). -/
theorem descend_eq_lookUp (value : Value) (names : List String) :
    descend resolve host origin value names = lookUp resolve host origin value names := by
  induction names generalizing value with
  | nil => simp [descend, lookUp, Finding.resolved]
  | cons name rest inductionHypothesis =>
    simp only [descend, lookUp, List.foldlM_cons, findNext, bind_assoc]
    refine bind_congr fun finding => ?_
    cases finding with
    | found next => exact inductionHypothesis next
    | empty | absent | unknown =>
      rw [foldlM_findNext_of_ended (fun _ => Finding.noConfusion), pure_bind]
      rfl

/-- What further names lead to (`descend`) from what a path names. -/
def leadOn (resolve : String → Resolution Resolved) (host : Host) (origin : Scope)
    (names : List String) : Resolved → Resolution Resolved
  | .value value => descend resolve host origin value names
  | .empty => pure .empty
  | .absent => pure .absent

/-- Names lead from a value (`leadOn`) to where they lead from what it settles to. -/
theorem settled_bind_leadOn (value : Value) (names : List String) :
    settled host value >>= leadOn resolve host origin names =
      descend resolve host origin value names := by
  cases settles : host.settle value with
  | error stall => cases names <;> (simp only [descend, find, settled, settles]; rfl)
  | ok last =>
    cases last with
    | none => cases names <;> (simp only [descend, find, settled, settles]; rfl)
    | some last =>
      have stays : host.settle last = .ok (some last) :=
        Host.settle_of_isConcrete (Host.isConcrete_of_settle settles)
      have start : settled host value = pure (.value last) := by
        rw [settled, settles]
        rfl
      rw [start, pure_bind, leadOn]
      cases names with
      | nil => rw [descend, descend, settled, settled, settles, stays]
      | cons name rest => rw [descend, descend, find, find, settles, stays]

/-- To `descend` by more names is to do so by the first of them and then by the others. -/
theorem descend_append (value : Value) (names more : List String) :
    descend resolve host origin value (names ++ more) =
      descend resolve host origin value names >>= leadOn resolve host origin more := by
  induction names generalizing value with
  | nil => exact (settled_bind_leadOn value more).symm
  | cons name rest inductionHypothesis =>
    simp only [List.cons_append, descend, bind_assoc]
    refine bind_congr fun finding => ?_
    cases finding with
    | found next => exact inductionHypothesis next
    | empty | absent | unknown => rfl

/-- More names lead from frames by `resolveNames` to where they lead from what the first of them
name there. -/
theorem resolveNames_append (first : String) (rest more : List String) (frames : List Frame) :
    resolveNames resolve host origin first (rest ++ more) frames =
      resolveNames resolve host origin first rest frames >>= leadOn resolve host origin more := by
  induction frames with
  | nil => rfl
  | cons frame outer inductionHypothesis =>
    simp only [resolveNames, bind_assoc]
    refine bind_congr fun finding => ?_
    cases finding with
    | found value => exact descend_append value rest more
    | empty | absent => rfl
    | unknown => exact inductionHypothesis

end Scope

/-- A path has at least one name among its `components`. -/
theorem Path.components_ne_nil (path : String) : components path ≠ [] := by
  intro nothing
  exact Text.splitOn_ne_nil _ _ (List.map_eq_nil_iff.1 nothing)

/-- The `components` of two paths with a dot between them are those of both. -/
theorem Path.components_append (path more : String) :
    components (path ++ "." ++ more) = components path ++ components more := by
  have characters : (path ++ "." ++ more).toList = path.toList ++ '.' :: more.toList := by
    simp [String.toList_append]
  rw [components, characters, Text.splitOn_append_separator, List.map_append]
  rfl

namespace Scope

/-- Dotted paths are composed by `Scope.resolve` from left to right. What a path names from a scope
after a dot depends on what the path before the dot names: nothing leads to nothing, a list that
holds nothing to one that holds nothing, and from a value the names after the dot are looked up one
after another (`lookUp`), on behalf of the frame from which the path is resolved. No frame is asked
for any of them. -/
theorem resolve_append (host : Host) (scope : Scope) {path more : String}
    (explicit : path ≠ Path.implicit) (wholeExplicit : path ++ "." ++ more ≠ Path.implicit) :
    scope.resolve host (path ++ "." ++ more) = (do
      match ← scope.resolve host path with
      | .absent => return .absent
      | .empty => return .empty
      | .value value =>
        lookUp (scope.resolveInMethods host) host scope value (Path.components more)) := by
  rw [resolve_eq_resolveUsing, resolveUsing, resolveUsing, if_neg explicit, if_neg wholeExplicit,
    Path.components_append]
  cases names : Path.components path with
  | nil => exact absurd names (Path.components_ne_nil path)
  | cons first rest =>
    refine (resolveNames_append first rest (Path.components more) scope.frames).trans ?_
    refine bind_congr fun resolved => ?_
    cases resolved with
    | value value => exact descend_eq_lookUp value (Path.components more)
    | empty | absent => rfl

/-- An item that is computed elsewhere is an object, and its method resolves a path from the frame
on whose behalf the item was found. -/
theorem resolve_append_here :
    let schema : Schema := [[.member ⟨"here", .contextMethod (.resolution "place"), .optional⟩]]
    let host : Host := ⟨schema, #[⟨0, none, [], []⟩], #[.ready (.object 0)]⟩
    let scope : Scope := .ofFrames
      [⟨some (.map [("team", .list [.deferred 0])]), []⟩, ⟨none, [("place", .str "Bern")]⟩]
    "team.0" ≠ Path.implicit ∧ "team.0" ++ "." ++ "here" ≠ Path.implicit ∧
      ((scope.resolve host ("team.0" ++ "." ++ "here")).answer.toOption.bind Resolved.value?).map
        host.concreteText = some "Bern" ∧
      scope.resolve host ("team.0" ++ "." ++ "here") = (do
        match ← scope.resolve host "team.0" with
        | .absent => return .absent
        | .empty => return .empty
        | .value value =>
          lookUp (scope.resolveInMethods host) host scope value (Path.components "here")) := by
  intro schema host scope
  have explicit : "team.0" ≠ Path.implicit := by decide
  have wholeExplicit : "team.0" ++ "." ++ "here" ≠ Path.implicit := by decide
  exact ⟨explicit, wholeExplicit, by decide +kernel,
    resolve_append host scope explicit wholeExplicit⟩

end Scope

end Mustache
