import Mustache.CommandLine.Run
import Mustache.Proofs.Scope.Paths
import Mustache.Proofs.Storage.Entry

/-!
# Bound names

Names are bound as they are, with their dots, but a path is read name by name between its dots, and
the path that is a single dot names the innermost host value. So a bound name is what the path of
the same characters names only if there is no dot in it; then it is so in the frame itself and in
all frames inside that let the name pass (`Scope.resolve_bind`).
-/

namespace Mustache

namespace Frame

variable {name other : String}

@[simp] theorem binding?_bind_self (frame : Frame) (name : String) (value : Value) :
    (frame.bind name value).binding? name = some value :=
  List.lookup_cons_self

/-- What other names are bound to is not changed by `Frame.bind`. -/
theorem binding?_bind_of_ne (differs : other ≠ name) (frame : Frame) (value : Value) :
    (frame.bind name value).binding? other = frame.binding? other := by
  unfold bind binding?
  rw [List.lookup_cons, beq_eq_false_iff_ne.2 differs]
  exact lookup_filter_of_ne differs frame.bindings

/-- A name that is bound again with `Frame.bind` is bound to the later value only. -/
theorem bind_bind_self (frame : Frame) (name : String) (value later : Value) :
    (frame.bind name value).bind name later = frame.bind name later := by
  simp [bind, List.filter_filter]

end Frame

namespace Path

variable {path : String}

/-- A path without a dot has one name among its `components`, itself. -/
theorem components_of_undotted (undotted : '.' ∉ path.toList) : components path = [path] := by
  rw [components, Text.splitOn_of_notMem undotted, List.map_singleton, String.ofList_toList]

theorem ne_implicit_of_undotted (undotted : '.' ∉ path.toList) : path ≠ implicit := by
  rintro rfl
  exact undotted (by decide)

end Path

namespace Scope

variable {host : Host} {scope origin : Scope} {name : String}

/-- A path without a dot is looked for by `resolve` as one name, frame by frame. -/
theorem resolve_of_undotted (undotted : '.' ∉ name.toList) (host : Host) (scope : Scope) :
    scope.resolve host name =
      resolveNames (scope.resolveInMethods host) host scope name [] scope.frames := by
  rw [resolve_eq_resolveUsing, resolveUsing, if_neg (Path.ne_implicit_of_undotted undotted),
    Path.components_of_undotted undotted]

/-- A text has `settled`. -/
theorem settled_str (host : Host) (text : String) :
    settled host (.str text) = pure (.value (.str text)) := by
  have stays : host.settle (.str text) = .ok (some (.str text)) :=
    Host.settle_of_isConcrete fun _ => nofun
  rw [settled, stays]
  rfl

/-- A name without a dot is for `resolveNames` what the innermost frame that is asked binds it to.
-/
theorem resolveNames_of_binding {resolve : String → Resolution Resolved} {frame : Frame}
    {value : Value} (bound : frame.binding? name = some value) (outer : List Frame) :
    resolveNames resolve host origin name [] (frame :: outer) = settled host value := by
  rw [resolveNames, findInFrame, bound]
  simp only [pure_bind, descend]

theorem resolve_of_binding (undotted : '.' ∉ name.toList) {value : Value}
    (bound : scope.frame.binding? name = some value) (host : Host) :
    scope.resolve host name = settled host value := by
  rw [resolve_of_undotted undotted, frames, resolveNames_of_binding bound]

/-- What methods name by paths (`resolveInMethods`) does not depend on the members that were found
before. -/
theorem resolveInMethods_looksUp (host : Host) (scope : Scope) :
    ∃ asked : String → List (Nat × String), ∀ path,
      (scope.resolveInMethods host path).LooksUp host.schema (asked path) := by
  unfold resolveInMethods
  cases host.resolvingMethods with
  | zero => exact ⟨fun _ => [], fun _ => .stalled _⟩
  | succ count => exact ⟨scope.lookupsWithin host count, scope.resolveWithin_looksUp host count⟩

/-- A frame neither binds a name nor has a host value that knows it (`Finding.unknown`), when it is
asked for it on behalf of another frame. -/
def Passes (host : Host) (origin : Scope) (name : String) (frame : Frame) : Prop :=
  (findInFrame (origin.resolveInMethods host) host origin frame name).answer = .ok .unknown

/-- Frames that let a name pass (`Passes`) may be left out, from some sound cache on. -/
theorem exists_resolveNames_append {nearer : List Frame}
    (pass : ∀ frame ∈ nearer, Passes host origin name frame) (rest : List String)
    (outer : List Frame) {cache : AccessorCache} (sound : cache.Sound host.schema) :
    ∃ reached : AccessorCache, reached.Sound host.schema ∧
      resolveNames (origin.resolveInMethods host) host origin name rest (nearer ++ outer) cache =
        resolveNames (origin.resolveInMethods host) host origin name rest outer reached := by
  induction nearer generalizing cache with
  | nil => exact ⟨cache, sound, rfl⟩
  | cons frame nearer inductionHypothesis =>
    obtain ⟨first, others⟩ := List.forall_mem_cons.1 pass
    obtain ⟨asked, inMethods⟩ := origin.resolveInMethods_looksUp host
    have asksFrame := findInFrame_looksUp inMethods origin frame name cache sound
    rw [first] at asksFrame
    obtain ⟨reached, soundAfter, same⟩ := inductionHypothesis others (sound.lookUpAll _)
    refine ⟨reached, soundAfter, ?_⟩
    rw [List.cons_append, resolveNames, bind_apply, asksFrame]
    exact same

end Scope

namespace CommandLine

/-- Binding other names leaves the `binding?` of a name as it is. -/
theorem binding?_foldl_bind {name : String} {entries : List (String × String)}
    (others : ∀ entry ∈ entries, entry.1 ≠ name) (scope : Scope) :
    (entries.foldl (fun scope (name, text) => scope.bind name (.str text)) scope).frame.binding?
      name = scope.frame.binding? name := by
  induction entries generalizing scope with
  | nil => rfl
  | cons entry rest inductionHypothesis =>
    obtain ⟨differs, others⟩ := List.forall_mem_cons.1 others
    rw [List.foldl_cons, inductionHypothesis others]
    exact Frame.binding?_bind_of_ne (Ne.symm differs) scope.frame (.str entry.2)

/-- Of several texts for one name `scopeOf` binds the last one. -/
theorem binding?_scopeOf {name : String} {after : List (String × String)}
    (last : ∀ entry ∈ after, entry.1 ≠ name) (document : Document)
    (before : List (String × String)) (text : String) :
    (scopeOf document (before ++ (name, text) :: after)).frame.binding? name =
      some (.str text) := by
  rw [scopeOf, List.foldl_append, List.foldl_cons, binding?_foldl_bind last]
  exact Frame.binding?_bind_self _ name (.str text)

end CommandLine

namespace Scope

/-- A name without a dot that `Scope.bind` binds to a text names that text by `Scope.resolve`: from
the scope it is bound in, from every scope around which that scope is and whose nearer frames let
the name pass (`Passes`), and from the scope that a command makes of its bindings, where the last
text for a name counts. And for all names, with dots or without, binding a name again replaces its
value, and nothing else changes: no other name, no host value and no frame around. So other bound
names without a dot still name what they named. -/
theorem resolve_bind (host : Host) (scope : Scope) (name text : String) :
    ('.' ∉ name.toList →
      (scope.bind name (.str text)).resolve host name = pure (.value (.str text)) ∧
      (∀ (inner : Scope) (nearer : List Frame),
        inner.frames = nearer ++ (scope.bind name (.str text)).frames →
        (∀ frame ∈ nearer, inner.Passes host name frame) →
        ∀ cache : AccessorCache, cache.Sound host.schema →
          (inner.resolve host name cache).1 = .ok (.value (.str text))) ∧
      ∀ (document : Document) (before after : List (String × String)),
        (∀ entry ∈ after, entry.1 ≠ name) →
        (CommandLine.scopeOf document (before ++ (name, text) :: after)).resolve host name =
          pure (.value (.str text))) ∧
    (∀ value later, (scope.bind name value).bind name later = scope.bind name later) ∧
    ∀ value other, other ≠ name →
      (scope.bind name value).frame.binding? other = scope.frame.binding? other ∧
      (scope.bind name value).frame.host = scope.frame.host ∧
      (scope.bind name value).ancestors = scope.ancestors ∧
      ('.' ∉ other.toList → scope.frame.binding? other ≠ none →
        (scope.bind name value).resolve host other = scope.resolve host other) := by
  refine ⟨fun undotted => ⟨?_, ?_, ?_⟩, fun value later => ?_, fun value other differs => ?_⟩
  · have bound := scope.frame.binding?_bind_self name (.str text)
    rw [← settled_str host]
    exact resolve_of_binding undotted bound host
  · intro inner nearer within pass cache sound
    obtain ⟨reached, _, same⟩ :=
      exists_resolveNames_append pass [] (scope.bind name (.str text)).frames sound
    have bound := scope.frame.binding?_bind_self name (.str text)
    rw [resolve_of_undotted undotted, within, same, frames]
    rw [bind, resolveNames_of_binding bound, settled_str]
    rfl
  · intro document before after last
    rw [← settled_str host]
    exact resolve_of_binding undotted (CommandLine.binding?_scopeOf last document before text) host
  · exact congrArg (fun frame => Scope.mk frame scope.ancestors)
      (scope.frame.bind_bind_self name value later)
  · have kept := Frame.binding?_bind_of_ne differs scope.frame value
    refine ⟨kept, rfl, rfl, fun undotted isBound => ?_⟩
    obtain ⟨known, bound⟩ := Option.ne_none_iff_exists'.1 isBound
    rw [resolve_of_binding undotted bound]
    exact resolve_of_binding undotted (kept.trans bound) host

/-- Inside a block that is run for a text, which lets every name pass, `resolve_bind` tells what a
name that is bound around the block names. The name had blanks around it, which
`CommandLine.binding?` drops, and a name that was bound before still names its text. -/
theorem resolve_bind_passed :
    let host := Host.ofSchema []
    let outer := Scope.root (.ofHost (.document (.object [])))
    let before := outer.bind "role" (.str "x")
    let scope := before.bind "team" (.str "a=b")
    let inner := scope.child (some (.str "item"))
    CommandLine.binding? " team =a=b" = some ("team", "a=b") ∧ '.' ∉ "team".toList ∧
    (∀ frame ∈ [inner.frame], inner.Passes host "team" frame) ∧
    inner.resolve host "team" {} = (.ok (.value (.str "a=b")), {}) ∧
    (CommandLine.scopeOf (.object []) [("team", "c"), ("team", "a=b"), ("role", "x")]).resolve host
      "team" = pure (.value (.str "a=b")) ∧
    before.frame.binding? "role" ≠ none ∧
    scope.resolve host "role" = before.resolve host "role" := by
  intro host outer before scope inner
  have undotted : '.' ∉ "team".toList := by decide +kernel
  have pass : ∀ frame ∈ [inner.frame], inner.Passes host "team" frame := by
    intro frame member
    cases List.mem_singleton.1 member
    rfl
  have isBound : before.frame.binding? "role" ≠ none := nofun
  have last : ∀ entry ∈ [("role", "x")], entry.1 ≠ "team" := by decide +kernel
  obtain ⟨named, _, others⟩ := resolve_bind host before "team" "a=b"
  obtain ⟨_, inside, onCommandLine⟩ := named undotted
  have sound : AccessorCache.Sound host.schema {} := AccessorCache.sound_empty _
  refine ⟨by decide +kernel, undotted, pass, Prod.ext ?_ rfl, ?_, isBound, ?_⟩
  · exact inside inner [inner.frame] rfl pass {} sound
  · exact onCommandLine (.object []) [("team", "c")] [("role", "x")] last
  · exact (others (.str "a=b") "role" (by decide)).2.2.2 (by decide +kernel) isBound

/-- Names with dots are accepted as names of bindings, but they do not name what they are bound to:
a single dot names the innermost host value, and a dot between names leads on in a value. -/
theorem resolve_bind_dotted :
    let host := Host.ofSchema []
    let scope := Scope.root (.ofHost (.document (.object [])))
    CommandLine.binding? ".=x" = some (".", "x") ∧
    (scope.bind "." (.str "x")).resolve host "." ≠ pure (.value (.str "x")) ∧
    CommandLine.binding? "a.b=x" = some ("a.b", "x") ∧
    (scope.bind "a.b" (.str "x")).resolve host "a.b" ≠ pure (.value (.str "x")) := by
  refine ⟨by decide +kernel, fun same => ?_, by decide +kernel, fun same => ?_⟩
  · have answers := congrArg Resolution.answer same
    cases answers
  · have answers := congrArg Resolution.answer same
    cases answers

end Scope

end Mustache
