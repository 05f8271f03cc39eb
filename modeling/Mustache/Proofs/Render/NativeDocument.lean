import Mustache.Proofs.Render.Enquiries
import Mustache.Proofs.Render.InnerScopes
import Mustache.Proofs.Scope.NativeDocument

/-!
# Rendering documents and native data

A program renders the native form of a document as it renders the document, unless it writes a
list or an object: these have a text as documents and none as lists and maps. The two runs are
compared while the paths that the first one resolves are listed. As long as none of them was to
write a list or an object, both runs have gone through the same sessions: `Document.run_native_eq`.
-/

namespace Mustache

/-- What mirrors each other makes equally many frames, of values that mirror each other
(`frameHosts`). -/
theorem Resolved.Corresponds.frameHosts_mirror {host : Host} {shared : Prop} {left right : Resolved}
    (same : left.Corresponds shared (Value.Mirrors host shared) right) :
    List.Forall₂ (Option.Rel (Value.Mirrors host shared)) left.frameHosts right.frameHosts := by
  cases same with
  | empty | absent => exact .nil
  | value values =>
    cases values with
    | document plain =>
      cases plain with
      | bool value =>
        cases value with
        | false => exact .nil
        | true => exact .cons .none .nil
      | integer low high => exact .cons (.some (.document (.integer low high))) .nil
      | string text => exact .cons (.some (.document (.string text))) .nil
      | array plain =>
        rw [Document.native, frameHosts, frameHosts, Document.nativeItems_eq_map, List.map_map,
          List.forall₂_map_left_iff, List.forall₂_map_right_iff, List.forall₂_same]
        exact fun item member => .some (.ofDocument (plain item member))
      | object plain => exact .cons (.some (.document (.object plain))) .nil
    | str text => exact .cons (.some (.str text)) .nil
    | bool value =>
      cases value with
      | false => exact .nil
      | true => exact .cons .none .nil
    | same possible same =>
      have named : Resolved.Corresponds True (host.SameEverywhere host.IsUncontextual) _ _ :=
        .value same
      refine (named.frameHosts_same host.isUncontextual_of_isPlain).imp ?_
      rintro (_ | content) _ ⟨rfl, inside⟩
      · exact .none
      · exact .some (.same possible ⟨rfl, inside content rfl⟩)

/-- The scopes that blocks make of the scope of a document and of the scope of its native form:
the outermost scopes, and from any two the children for frames at the same position that a block
over one path makes. Where `bound` says so, names may be bound, to the same values in both, if no
object that can be got at from such a value has a method that is given a frame
(`Host.IsUncontextual`). -/
inductive Document.Iterated (host : Host) (document : Document) (bound : Prop) :
    Scope → Scope → Prop
  /-- The scopes of the document and of its native form. -/
  | root : Iterated host document bound (.root (.ofHost (.document document)))
      (.root (.ofHost document.native))
  /-- A name is bound. -/
  | bind {scope other : Scope} (possible : bound) (outer : Iterated host document bound scope other)
      (name : String) {value : Value}
      (uncontextual : host.Everywhere host.IsUncontextual value) :
      Iterated host document bound (scope.bind name value) (other.bind name value)
  /-- The scopes inside a block over a path. -/
  | child {scope other : Scope} {path : String} {left right : Resolved} {position : Nat}
      {value native : Option Value} (outer : Iterated host document bound scope other)
      (named : (scope.resolve host path).answer = .ok left)
      (namedNative : (other.resolve host path).answer = .ok right)
      (frame : left.frameHosts[position]? = some value)
      (frameNative : right.frameHosts[position]? = some native) :
      Iterated host document bound (scope.child value) (other.child native)

/-- The scopes that blocks make of a document and of its native form mirror each other. -/
theorem Document.Iterated.mirrors {host : Host} {document : Document} {bound : Prop}
    {scope other : Scope} (plain : document.IsPlain)
    (iterated : document.Iterated host bound scope other) : scope.Mirrors host bound other := by
  induction iterated with
  | root => exact .cons ⟨.some (.document plain), rfl, nofun⟩ .nil
  | bind possible _ name uncontextual inductionHypothesis =>
    exact inductionHypothesis.bind possible name uncontextual
  | child _ named namedNative frame frameNative inductionHypothesis =>
    obtain ⟨_, _, _, leftRun, rightRun, results, _⟩ := Scope.resolve_agree_native
      inductionHypothesis _ {} (AccessorCache.sound_empty host.schema)
    rw [Resolution.answer, leftRun] at named
    rw [Resolution.answer, rightRun] at namedNative
    cases results with
    | stalled => cases named
    | ok corresponds =>
      cases named
      cases namedNative
      obtain ⟨inside, rfl⟩ := List.getElem?_eq_some_iff.1 frame
      obtain ⟨insideNative, rfl⟩ := List.getElem?_eq_some_iff.1 frameNative
      exact inductionHypothesis.child (corresponds.frameHosts_mirror.get inside insideNative)

/-- Whether a list or an object of a document is to be written for a path (`Document.isContainer`).
-/
def Enquiry.writesContainer (enquiry : Enquiry) : Bool :=
  enquiry.isOutput && match enquiry.answer with
    | .ok (.value (.document document)) => document.isContainer
    | _ => false

namespace Traced

variable {σ α β : Type}

/-- A step that lists its enquiries, and another step that goes through the same sessions as long as
none of the listed enquiries `writesContainer`. -/
def Guides (schema : Schema) (traced : Traced σ α) (other : Rendering σ α) : Prop :=
  ∀ session trace, session.accessors.Sound schema → ∃ asked result after,
    traced (session, trace) = (result, after, trace ++ asked) ∧ after.accessors.Sound schema ∧
      ((∀ enquiry ∈ asked, enquiry.writesContainer = false) → other session = (result, after))

namespace Guides

variable {schema : Schema}

/-- A step that leaves the members alone asks nothing, and so `Guides` itself. -/
theorem ofRendering {step : Rendering σ α}
    (keeps : ∀ session, (step session).2.accessors = session.accessors) :
    Guides schema (Traced.ofRendering step) step := by
  intro session trace sound
  refine ⟨[], (step session).1, (step session).2, ?_, ?_, fun _ => rfl⟩
  · rw [List.append_nil]
    rfl
  · rw [keeps]
    exact sound

theorem pure (value : α) :
    Guides schema (Pure.pure value : Traced σ α) (Pure.pure value) :=
  fun session _ sound => ⟨[], .ok value, session, by rw [List.append_nil]; rfl, sound, fun _ => rfl⟩

theorem throw (error : RenderError) :
    Guides schema (MonadExcept.throw error : Traced σ α) (MonadExcept.throw error) :=
  fun session _ sound =>
    ⟨[], .error error, session, by rw [List.append_nil]; rfl, sound, fun _ => rfl⟩

/-- Steps of which the first `Guides` the second may follow each other. -/
theorem bind {traced : Traced σ α} {other : Rendering σ α} {next : α → Traced σ β}
    {nextOther : α → Rendering σ β} (first : Guides schema traced other)
    (second : ∀ value, Guides schema (next value) (nextOther value)) :
    Guides schema (traced >>= next) (other >>= nextOther) := by
  intro session trace sound
  obtain ⟨asked, result, after, ran, afterSound, same⟩ := first session trace sound
  rw [bind_apply, ran]
  cases result with
  | error error =>
    refine ⟨asked, .error error, after, rfl, afterSound, fun good => ?_⟩
    rw [bind_apply, same good]
  | ok value =>
    obtain ⟨more, last, reached, ranOn, lastSound, sameOn⟩ :=
      second value after (trace ++ asked) afterSound
    refine ⟨asked ++ more, last, reached, ?_, lastSound, fun good => ?_⟩
    · rw [← List.append_assoc]
      exact ranOn
    · rw [List.forall_mem_append] at good
      rw [bind_apply, same good.1]
      exact sameOn good.2

/-- Steps of which the first `Guides` the second compose. -/
theorem composes : Composes (Guides schema : Traced σ Unit → Rendering σ Unit → Prop) :=
  ⟨pure (), fun first second => first.bind fun _ => second⟩

end Guides

section Steps

variable {shared : Prop} {host : Host} {scope other : Scope}
  (mirrors : scope.Mirrors host shared other)

include mirrors

/-- What is done with what a path names goes on in native data as in the document, if it does so
for what corresponds. Where the enquiry writes a container, `step` may be any step that goes on as
the one in the document, for then nothing is said about the native data. -/
theorem guides_enquire_bind (path : String) (isOutput : Bool) {left : Resolved → Traced σ α}
    {right : Resolved → Rendering σ α}
    (next : ∀ first second, first.Corresponds shared (Value.Mirrors host shared) second →
      ∃ step, Guides host.schema (left first) step ∧
        (Enquiry.writesContainer ⟨scope, path, isOutput, .ok first⟩ = false →
          step = right second)) :
    Guides host.schema (enquire host scope path isOutput >>= left)
      (Rendering.resolve host other path >>= right) := by
  intro session trace sound
  obtain ⟨_, _, after, leftRun, rightRun, results, afterSound⟩ :=
    Scope.resolve_agree_native mirrors path session.accessors sound
  cases results with
  | stalled possible stall =>
    let enquiry : Enquiry := ⟨scope, path, isOutput, .error stall⟩
    have enquired : (enquire host scope path isOutput : Traced σ Resolved) (session, trace) =
        (.error (.stalled stall), { session with accessors := after }, trace ++ [enquiry]) := by
      rw [enquire, Traced.ofRendering, Rendering.resolve, leftRun]
    refine ⟨[enquiry], .error (.stalled stall), { session with accessors := after }, ?_, afterSound,
      fun _ => ?_⟩
    · rw [bind_apply, enquired]
    · rw [bind_apply, Rendering.resolve, rightRun]
  | @ok named _ corresponds =>
    let enquiry : Enquiry := ⟨scope, path, isOutput, .ok named⟩
    have enquired : (enquire host scope path isOutput : Traced σ Resolved) (session, trace) =
        (.ok named, { session with accessors := after }, trace ++ [enquiry]) := by
      rw [enquire, Traced.ofRendering, Rendering.resolve, leftRun]
    obtain ⟨step, guides, same⟩ := next _ _ corresponds
    obtain ⟨more, last, reached, ranOn, lastSound, sameOn⟩ :=
      guides { session with accessors := after } (trace ++ [enquiry]) afterSound
    refine ⟨enquiry :: more, last, reached, ?_, lastSound, fun good => ?_⟩
    · rw [List.append_cons, bind_apply, enquired]
      exact ranOn
    · rw [List.forall_mem_cons] at good
      -- Only the steps after the enquiry depend on what it was for.
      rw [same good.1] at sameOn
      rw [bind_apply, Rendering.resolve, rightRun]
      exact sameOn good.2

theorem guides_interpolate (path : String) (escaped : Bool) (loader : Loader σ) :
    Guides host.schema ((actions host loader).interpolation path escaped scope)
      ((Rendering.actions host loader).interpolation path escaped other) := by
  refine guides_enquire_bind mirrors path true fun first second corresponds => ?_
  cases corresponds with
  | @value left right values =>
    refine ⟨Rendering.emit host left escaped, .ofRendering (Rendering.emit_keeps host left escaped),
      fun good => ?_⟩
    have single : ∀ document, left = .document document → document.isContainer = false := by
      rintro document rfl
      exact good
    simp only [Rendering.emit, values.text_eq single]
  | empty | absent => exact ⟨_, .pure (), fun _ => rfl⟩

theorem guides_overFrames (kind : BlockKind) (path : String) (loader : Loader σ)
    {body : Scope → Traced σ Unit} {bodyOther : Scope → Rendering σ Unit}
    (bodies : ∀ {first second}, first.Mirrors host shared second →
      Guides host.schema (body first) (bodyOther second)) :
    Guides host.schema ((actions host loader).block kind path scope body)
      ((Rendering.actions host loader).block kind path other bodyOther) := by
  refine guides_enquire_bind mirrors path false fun first second corresponds => ?_
  have hosts := corresponds.frameHosts_mirror
  exact ⟨_, Guides.composes.overHosts kind hosts (fun _ _ inner => bodies (mirrors.child inner))
    (bodies mirrors), fun _ => rfl⟩

end Steps

/-- What is done at an instruction in the document `Guides` what is done in native data if what
happens inside of it does. -/
theorem guides_actions {shared : Prop} {host : Host} (loader : Loader σ) :
    Actions.Related (Scope.Mirrors host shared) (Guides host.schema) (actions host loader)
      (Rendering.actions host loader) where
  done := Guides.composes.done
  andThen := Guides.composes.andThen
  literal _ := .ofRendering (Rendering.write_keeps _)
  interpolation path escaped _ _ mirrors :=
    guides_interpolate mirrors path escaped loader
  block kind path _ _ mirrors _ _ bodies :=
    guides_overFrames mirrors kind path loader bodies
  call name _ _ runs := (Guides.ofRendering (Rendering.load_keeps loader name)).bind runs
  fail error := .throw error

end Traced

/-- A plain document and its `Document.native` form render alike. From the scopes that blocks make
of them `Scope.resolve` names nothing in both, or values that mirror each other and over which a
block makes equally many frames; only where names are bound may it also name an empty list in both,
or the same value that never comes. And `Rendering.run` has the same result in both, with the same
session afterwards, as long as the program writes no list and no object of the document. Bound
names lead to no object with a method that is given a frame (`Document.Iterated.bind`), for such a
method can tell in which form the data of the frame is given. -/
theorem Document.run_native_eq {host : Host} {document : Document} (plain : document.IsPlain)
    {bound : Prop} {scope other : Scope} (iterated : document.Iterated host bound scope other) :
    (∀ (path : String) (cache : AccessorCache), cache.Sound host.schema →
      let named := (scope.resolve host path cache).1
      let namedNative := (other.resolve host path cache).1
      (named = .ok .absent ∧ namedNative = .ok .absent) ∨
      (∃ value native, named = .ok (.value value) ∧ namedNative = .ok (.value native) ∧
        value.Mirrors host bound native ∧ (Resolved.value value).frameHosts.length =
          (Resolved.value native).frameHosts.length) ∨
      (bound ∧ namedNative = named ∧ (named = .ok .empty ∨ ∃ stall, named = .error stall))) ∧
    ∀ {σ : Type} (loader : Loader σ) (program : Program) (session : Session σ),
      session.accessors.Sound host.schema →
      (∀ enquiry ∈ Rendering.enquiries host loader program scope session,
        enquiry.writesContainer = false) →
      Rendering.run host loader program other session =
        Rendering.run host loader program scope session := by
  have mirrors := iterated.mirrors plain
  refine ⟨fun path cache sound => ?_, fun loader program session sound good => ?_⟩
  · obtain ⟨_, _, _, leftRun, rightRun, results, _⟩ :=
      Scope.resolve_agree_native mirrors path cache sound
    rw [leftRun, rightRun]
    cases results with
    | stalled possible stall => exact .inr (.inr ⟨possible, rfl, .inr ⟨stall, rfl⟩⟩)
    | ok corresponds =>
      have frames := corresponds.frameHosts_mirror.length_eq
      cases corresponds with
      | value values => exact .inr (.inl ⟨_, _, rfl, rfl, values, frames⟩)
      | empty possible => exact .inr (.inr ⟨possible, rfl, .inl rfl⟩)
      | absent => exact .inl ⟨rfl, rfl⟩
  · obtain ⟨asked, result, after, ran, _, same⟩ :=
      (Traced.guides_actions loader).perform 0 program 0 program.instructions.size mirrors
        session [] sound
    have whole := Rendering.traced_run_eq host loader program scope session
    rw [Traced.run, ran, List.nil_append, Prod.mk.injEq, Prod.mk.injEq] at whole
    obtain ⟨resultEq, afterEq, askedEq⟩ := whole
    rw [← askedEq] at good
    rw [Rendering.run, Rendering.execute_eq_perform]
    exact (same good).trans (Prod.ext resultEq afterEq)

/-- The program that writes what a path names. -/
def Program.writing (path : String) : Program :=
  ⟨#[.interpolation path false], #[none], _, rfl, rfl⟩

namespace Rendering

variable {σ : Type} {host : Host} {loader : Loader σ} {scope : Scope}

theorem run_writing (path : String) :
    run host loader (.writing path) scope = interpolate host path false scope := by
  rw [run, show (Program.writing path).instructions.size = 1 from rfl,
    execute_interpolation Nat.one_pos rfl, execute_of_le (Nat.le_refl 1), bind_pure_unit]

theorem enquiries_writing (path : String) (session : Session σ) :
    enquiries host loader (.writing path) scope session =
      [⟨scope, path, true, (scope.resolve host path session.accessors).1⟩] := by
  have ends : (Traced.actions host loader).perform 0 (.writing path) 1 1 scope = pure () := by
    rw [Actions.perform, dif_neg (fun inside => Nat.lt_irrefl 1 inside.1)]
  have single : Traced.run host loader (.writing path) scope =
      (Traced.actions host loader).interpolation path false scope := by
    rw [Traced.run, Actions.perform, dif_pos ⟨Nat.one_pos, Nat.one_pos⟩]
    exact (congrArg (_ >>= fun _ => ·) ends).trans bind_pure_unit
  rw [enquiries, single]
  simp only [Traced.actions]
  rw [bind_apply, Traced.enquire, Traced.ofRendering, resolve]
  rcases scope.resolve host path session.accessors with ⟨_ | _ | _ | _, _⟩ <;> rfl

end Rendering

/-- The item of a list in an object, as a document and as `Document.native` data, beside which the
name of an object with a field is bound. -/
theorem Document.run_native_eq_item :
    let host : Host := ⟨[[.member ⟨"name", .field "name", .required⟩]],
      #[⟨0, none, [("name", .str "A")], []⟩], #[]⟩
    let document : Document := .object [("items", .array [.number (.integer (-1)), .bool true])]
    let scope := ((Scope.root (.ofHost (.document document))).bind "o" (.object 0)).child
      (some (.document (.number (.integer (-1)))))
    let other := ((Scope.root (.ofHost document.native)).bind "o" (.object 0)).child
      (some (.int (-1)))
    let loader : Loader Unit := ⟨fun name => throw (.tooDeep name 0)⟩
    let session : Session Unit := ⟨{}, {}, ()⟩
    let writes (path text : String) : Prop :=
      (∀ enquiry ∈ Rendering.enquiries host loader (.writing path) scope session,
        enquiry.writesContainer = false) ∧
      Rendering.run host loader (.writing path) other session =
        Rendering.run host loader (.writing path) scope session ∧
      (Rendering.run host loader (.writing path) scope session).2.sink.written = text.toByteArray
    document.IsPlain ∧ host.Everywhere host.IsUncontextual (.object 0) ∧
    document.Iterated host True scope other ∧ session.accessors.Sound host.schema ∧
    writes "." "-1" ∧ writes "o.name" "A" := by
  intro host document scope other loader session writes
  have plain : document.IsPlain := by
    refine .object fun member among => ?_
    cases List.mem_singleton.1 among
    refine .array fun item among => ?_
    simp only [List.mem_cons, List.not_mem_nil, or_false] at among
    rcases among with rfl | rfl
    · exact .integer (by decide) (by decide)
    · exact .bool true
  have undeclared : ∀ member, .member member ∈ host.schema.flatten →
      member.reading.kind ≠ .contextMethod := by
    intro member declared
    cases List.mem_singleton.1 declared
    exact MemberKind.noConfusion
  have uncontextual : host.Everywhere host.IsUncontextual (.object 0) :=
    fun part _ => Host.isUncontextual_of_flatten undeclared part
  have iterated : document.Iterated host True scope other := by
    refine @Iterated.child _ _ _ _ _ "items"
      (.value (.document (.array [.number (.integer (-1)), .bool true])))
      (.value (.list [.int (-1), .bool true])) 0 _ _ (.bind trivial .root "o" uncontextual)
      ?_ ?_ rfl rfl
    · with_unfolding_all rfl
    · with_unfolding_all rfl
  have sound : session.accessors.Sound host.schema := AccessorCache.sound_empty _
  have agree := (run_native_eq plain iterated).2 loader
  refine ⟨plain, uncontextual, iterated, sound, ?_, ?_⟩
  all_goals
    refine ⟨?_, agree _ session sound ?_, ?_⟩
    · rw [Rendering.enquiries_writing]
      decide +kernel
    · rw [Rendering.enquiries_writing]
      decide +kernel
    · rw [Rendering.run_writing]
      decide +kernel

/-- Two methods that are given the frame can tell a document from its `Document.native` form: one
that answers with the text of the host value, and one with a list that answers with what `.` names.
No list and no object of the document is written on the way. -/
theorem Document.run_native_ne :
    let host : Host := ⟨[[.member ⟨"text", .contextMethod .hostText, .optional⟩,
      .member ⟨"items", .contextMethod (.resolution "."), .list⟩]], #[⟨0, none, [], []⟩], #[]⟩
    let document : Document := .array [.number (.integer 1), .number (.integer 2)]
    let scope := (Scope.root (.ofHost (.document document))).bind "o" (.object 0)
    let other := (Scope.root (.ofHost document.native)).bind "o" (.object 0)
    let loader : Loader Unit := ⟨fun name => throw (.tooDeep name 0)⟩
    let session : Session Unit := ⟨{}, {}, ()⟩
    let writes (path : String) (scope : Scope) (text : String) : Prop :=
      (Rendering.run host loader (.writing path) scope session).2.sink.written = text.toByteArray
    document.IsPlain ∧
    (∀ path ∈ ["o.text", "o.items.1"],
      ∀ enquiry ∈ Rendering.enquiries host loader (.writing path) scope session,
        enquiry.writesContainer = false) ∧
    writes "o.text" scope "[1,2]" ∧ writes "o.text" other "" ∧
    writes "o.items.1" scope "" ∧ writes "o.items.1" other "2" := by
  intro host document scope other loader session writes
  refine ⟨?_, ?_, ?_, ?_, ?_, ?_⟩
  · refine .array fun item among => ?_
    simp only [List.mem_cons, List.not_mem_nil, or_false] at among
    rcases among with rfl | rfl <;> exact .integer (by decide) (by decide)
  · simp only [Rendering.enquiries_writing]
    decide +kernel
  all_goals
    simp only [writes, Rendering.run_writing]
    decide +kernel

end Mustache
