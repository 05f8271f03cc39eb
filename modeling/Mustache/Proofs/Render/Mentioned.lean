import Mustache.Proofs.Render.Alike
import Mustache.Proofs.Render.InertOutput
import Mustache.Proofs.Render.InnerScopes
import Mustache.Proofs.Scope.Mentioned

/-!
# Data that is not mentioned

What is rendered depends on a map at the root of a scope only through the names in the paths of the
program and of the templates that it may come to call, however the map is got at: as the frame
around everything, as the innermost value of a block over it, or as what a dot names
(`run_eq_of_mentioned`).
-/

namespace Mustache

/-- A name is mentioned by an instruction if it is among the `components` of its path. The path that
names the innermost host value mentions no name. -/
def Instruction.Mentions (instruction : Instruction) (name : String) : Prop :=
  ∃ path, instruction.path? = some path ∧ path ≠ Path.implicit ∧ name ∈ Path.components path

/-- A name is mentioned by a program if it is by one of its instructions. -/
def Program.Mentions (program : Program) (name : String) : Prop :=
  ∃ instruction ∈ program.instructions, instruction.Mentions name

/-- A name is mentioned by a program or by one that a loader can answer with (`CanReturn`). -/
def Loader.Mentions {σ : Type} (loader : Loader σ) (loading : σ) (program : Program)
    (name : String) : Prop :=
  program.Mentions name ∨ ∃ called, loader.CanReturn loading called ∧ called.Mentions name

/-- Values that are the same as far as some names go (`SameOn`) make frames of such values. -/
theorem Resolved.Corresponds.frameHosts_sameOn {host : Host} {named : String → Prop}
    {left right : Resolved} (same : left.Corresponds True (host.SameOn named) right) :
    List.Forall₂ (Option.Rel (host.SameOn named)) left.frameHosts right.frameHosts := by
  cases same with
  | empty | absent => exact .nil
  | value values =>
    cases values with
    | same same =>
      have named : Resolved.Corresponds True (host.SameEverywhere host.IsUncontextual)
          (.value _) (.value _) := .value same
      refine (named.frameHosts_same host.isUncontextual_of_isPlain).imp ?_
      rintro (_ | content) _ ⟨rfl, inside⟩
      · exact .none
      · exact .some (.same ⟨rfl, inside content rfl⟩)
    | maps agree everywhere => exact .cons (.some (.maps agree everywhere)) .nil

/-- What some names do not tell apart (`SameOn`) does not show where no other names are mentioned.
-/
theorem Host.showsAlike_sameOn (host : Host) (named : String → Prop) :
    host.ShowsAlike (fun instruction => ∀ name, instruction.Mentions name → named name)
      (Scope.Corresponds (host.SameOn named)) (AccessorCache.SameSound host.schema)
      (host.SameOn named) host where
  resolves permitted path _ _ same _ _ start :=
    (Scope.resolve_agree_sameOn same fun explicit name member =>
      permitted name ⟨_, path, explicit, member⟩).results start
  text_eq same := same.text_eq
  children same _ _ corresponds := corresponds.frameHosts_sameOn.imp fun _ _ => same.child

/-- The frames of a scope that `ofFrames` makes are those it is made of. -/
theorem Scope.frames_ofFrames (first : Frame) (rest : List Frame) :
    (Scope.ofFrames (first :: rest)).frames = (first :: rest).reverse := by
  have entered : ∀ (rest : List Frame) (scope : Scope),
      (rest.foldl enter scope).frames = rest.reverse ++ scope.frames := by
    intro rest
    induction rest with
    | nil => exact fun _ => rfl
    | cons frame rest inductionHypothesis =>
      intro scope
      rw [List.foldl_cons, inductionHypothesis, List.reverse_cons, List.append_assoc]
      rfl
  rw [ofFrames, entered, List.reverse_cons]
  rfl

/-- Two maps at the root of a scope that have the same values under all names that a program
mentions, or a template that it may come to call (`Loader.Mentions`), are rendered alike, where no
object has a method that is given a frame: the result, the output and everything else in the session
afterwards are the same. -/
theorem run_eq_of_mentioned {σ : Type} {host : Host} {loader : Loader σ} {program : Program}
    {session : Session σ} (sound : session.accessors.Sound host.schema)
    {left right bindings : List (String × Value)} {inner : List Frame}
    (agree : ∀ name, loader.Mentions session.loading program name →
      left.lookup name = right.lookup name)
    (uncontextual : (Scope.ofFrames (⟨some (.map left), bindings⟩ :: inner)).Everywhere host
      host.IsUncontextual) :
    Rendering.run host loader program (.ofFrames (⟨some (.map right), bindings⟩ :: inner)) session =
      Rendering.run host loader program (.ofFrames (⟨some (.map left), bindings⟩ :: inner))
        session := by
  have same : (Scope.ofFrames (⟨some (.map left), bindings⟩ :: inner)).Corresponds
      (host.SameOn (loader.Mentions session.loading program))
      (.ofFrames (⟨some (.map right), bindings⟩ :: inner)) := by
    rw [Scope.Everywhere, Scope.frames_ofFrames] at uncontextual
    rw [Scope.Corresponds, Scope.frames_ofFrames, Scope.frames_ofFrames, List.forall₂_reverse_iff]
    obtain ⟨hosts, bound⟩ := uncontextual _ (List.mem_reverse.2 List.mem_cons_self)
    refine .cons ⟨.some (.maps agree (hosts _ rfl)), ?_⟩ (List.forall₂_same.2 ?_)
    · exact List.forall₂_same.2 fun entry member => ⟨.same ⟨rfl, bound entry member⟩⟩
    · intro frame member
      obtain ⟨hosts, bound⟩ :=
        uncontextual frame (List.mem_reverse.2 (List.mem_cons_of_mem _ member))
      exact Frame.corresponds_self (fun value present => .same ⟨rfl, hosts value present⟩)
        (fun entry present => .same ⟨rfl, bound entry present⟩)
  have runs : Alike (Session.Alongside Eq (AccessorCache.SameSound host.schema)
      fun first second => first = second ∧ loader.Reaches session.loading first)
      (Rendering.run host loader program (.ofFrames (⟨some (.map left), bindings⟩ :: inner)))
      (Rendering.run host loader program (.ofFrames (⟨some (.map right), bindings⟩ :: inner))) := by
    refine Rendering.execute_showsAlike Sink.takeAlike_eq ?_ ?_ (host.showsAlike_sameOn _) 0 program
      ?_ 0 program.instructions.size same
    · rintro name _ first _ ⟨rfl, reached⟩
      exact ⟨rfl, rfl, reached.load name⟩
    · rintro name _ first _ called ⟨rfl, reached⟩ answered instruction member other mentions
      exact .inr ⟨called, ⟨first, name, reached, answered⟩, instruction, member, mentions⟩
    · exact fun instruction member name mentions => .inl ⟨instruction, member, mentions⟩
  exact (runs.eq_of_sound (fun same => same.1) sound ⟨rfl, .refl⟩).symm

/-- Two maps of which each holds something that the other does not, got at as what a dot names, and
a called template that mentions a name which neither has. -/
theorem run_eq_of_mentioned_dot :
    let schema : Schema := [[.member ⟨"name", .field "name", .required⟩]]
    let host : Host := ⟨schema, #[⟨0, none, [("name", .str "A")], []⟩], #[]⟩
    let called : Program := ⟨#[.interpolation "b" false], #[none], _, rfl, rfl⟩
    let program : Program :=
      ⟨#[.openBlock .iterable ".", .interpolation "a.name" true, .partialCall "p", .closeBlock],
        #[some 3, none, none, none], _, rfl, rfl⟩
    let loader : Loader Unit :=
      ⟨fun name => if name = "p" then pure called else throw (.templateNotFound name name)⟩
    let left := [("a", Value.object 0), ("x", .bool true)]
    let right := [("a", Value.object 0), ("y", .str "2")]
    let session : Session Unit := ⟨{}, {}, ()⟩
    session.accessors.Sound schema ∧
      (∀ name, loader.Mentions () program name → left.lookup name = right.lookup name) ∧
      (Scope.ofFrames [⟨some (.map left), []⟩, {}]).Everywhere host host.IsUncontextual ∧
      Rendering.run host loader program (.ofFrames [⟨some (.map right), []⟩, {}]) session =
        Rendering.run host loader program (.ofFrames [⟨some (.map left), []⟩, {}]) session := by
  intro schema host called program loader left right session
  have sound : session.accessors.Sound schema := AccessorCache.sound_empty _
  have mentioned : ∀ name, loader.Mentions () program name → name ∈ ["a", "name", "b"] := by
    rintro name (⟨instruction, member, path, named, explicit, part⟩ |
      ⟨other, ⟨_, asked, _, answered⟩, instruction, member, path, named, _, part⟩)
    · simp only [program, List.mem_toArray, List.mem_cons, List.not_mem_nil, or_false] at member
      rcases member with rfl | rfl | rfl | rfl <;> cases named
      · exact absurd rfl explicit
      · rw [show Path.components "a.name" = ["a", "name"] from rfl] at part
        exact List.mem_append_left ["b"] part
    · have found : other = called := by
        simp only [loader] at answered
        split at answered <;> cases answered
        rfl
      rw [found] at member
      simp only [called, List.mem_toArray, List.mem_singleton] at member
      subst member
      cases named
      rw [show Path.components "b" = ["b"] from rfl] at part
      exact List.mem_append_right ["a", "name"] part
  have agree : ∀ name, loader.Mentions () program name →
      left.lookup name = right.lookup name := by
    intro name mentions
    have member := mentioned name mentions
    simp only [List.mem_cons, List.not_mem_nil, or_false] at member
    rcases member with rfl | rfl | rfl <;> rfl
  have uncontextual :
      (Scope.ofFrames [⟨some (.map left), []⟩, {}]).Everywhere host host.IsUncontextual := by
    refine Scope.everywhere_of_forall (Host.isUncontextual_of_flatten fun member declared => ?_) _ _
    cases List.mem_singleton.1 declared
    exact nofun
  exact ⟨sound, agree, uncontextual, run_eq_of_mentioned sound agree uncontextual⟩

end Mustache
