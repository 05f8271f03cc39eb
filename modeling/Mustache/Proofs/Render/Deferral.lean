import Mustache.Proofs.Render.Alike
import Mustache.Proofs.Scope.Deferral

/-!
# Rendering wrapped data

That data is completed elsewhere does not show in what is rendered. A program that runs in a
scope of wrapped data goes through the same sessions as in the scope of plain data: every path
names what corresponds, so texts are the same and blocks have frames that correspond.
-/

namespace Mustache

variable {values : Value → Value → Prop} {objects : Nat → Nat → Prop}

/-- The frames that a block makes over what corresponds (`frameHosts`) hold what corresponds. -/
theorem Resolved.Corresponds.frameHosts_rel {left right : Resolved}
    (wrap : ∀ {plain wrapped}, plain.SameHead objects values wrapped → values plain wrapped)
    (same : left.Corresponds True (Value.SameHead objects values) right) :
    List.Forall₂ (Option.Rel values) left.frameHosts right.frameHosts := by
  cases same with
  | empty | absent => exact .nil
  | value heads =>
    have itself := wrap heads
    cases heads with
    | bool value =>
      cases value with
      | false => exact .nil
      | true => exact .cons .none .nil
    | list items =>
      simp only [frameHosts, List.forall₂_map_left_iff, List.forall₂_map_right_iff]
      exact items.imp fun _ _ => .some
    | document document =>
      cases document with
      | null => exact .nil
      | bool value =>
        cases value with
        | false => exact .nil
        | true => exact .cons .none .nil
      | array items =>
        rw [frameHosts, List.forall₂_map_left_iff, List.forall₂_map_right_iff, List.forall₂_same]
        exact fun item _ => .some (wrap (.ofDocument item))
      | number | string | object => exact .cons (.some itself) .nil
    | int | float | str | map | object => exact .cons (.some itself) .nil

/-- Wrapping data (`Host.Defers`) does not show. -/
theorem Host.Defers.showsAlike {plain wrapped : Host}
    (defers : plain.Defers wrapped objects) :
    plain.ShowsAlike (fun _ => True) (Scope.Corresponds (wrapped.Wraps objects))
      (AccessorCache.SameSound plain.schema) (Value.SameHead objects (wrapped.Wraps objects))
      wrapped where
  resolves _ _ _ _ same _ _ start := by
    obtain ⟨rfl, sound⟩ := start
    obtain ⟨_, _, after, leftRun, rightRun, corresponds, afterSound⟩ :=
      Scope.resolve_agree defers same _ _ sound
    rw [leftRun, rightRun]
    exact ⟨.ok corresponds, rfl, afterSound⟩
  text_eq heads := (defers.text_eq (.same heads)).symm
  children same _ _ named := (named.frameHosts_rel .same).imp fun _ _ inside => same.child inside

namespace Rendering

variable {σ : Type} {plain wrapped : Host} {loader : Loader σ}

/-- Two sessions that are the same and have found no members but those that types have. -/
def SameSound (schema : Schema) (first second : Session σ) : Prop :=
  first = second ∧ first.accessors.Sound schema

/-- A run (`execute`) in wrapped data answers as the run in the plain data. -/
theorem execute_deferral (defers : plain.Defers wrapped objects) (depth : Nat) (program : Program)
    (start stop : Nat) {scope other : Scope}
    (same : scope.Corresponds (wrapped.Wraps objects) other) :
    Alike (SameSound plain.schema)
      (execute plain loader depth program start stop scope)
      (execute wrapped loader depth program start stop other) := by
  rintro first _ ⟨rfl, sound⟩
  obtain ⟨sameResult, after⟩ := execute_showsAlike Sink.takeAlike_eq
    (fun name _ => .of_eq (loader.load name)) (fun _ _ _ _ _ _ _ _ _ => trivial)
    defers.showsAlike depth program (fun _ _ => trivial) start stop same first first
    ⟨rfl, ⟨rfl, sound⟩, rfl⟩
  exact ⟨sameResult, after.eq id, after.accessors.2⟩

end Rendering

/-- Data in which any values were put behind filled slots, any number of times (`Host.Defers`), is
rendered as the plain data is: with every program and loader the result, the output and everything
else in the session afterwards is the same. A path never names a deferred value, and a block over
what it names makes as many frames. -/
theorem run_eq_of_defers {plain wrapped : Host} {objects : Nat → Nat → Prop}
    (defers : plain.Defers wrapped objects) {scope other : Scope}
    (same : scope.Corresponds (wrapped.Wraps objects) other) {σ : Type} (session : Session σ)
    (sound : session.accessors.Sound plain.schema) :
    (∀ (loader : Loader σ) (program : Program),
      Rendering.run wrapped loader program other session =
        Rendering.run plain loader program scope session) ∧
    ∀ path, ∃ left right after,
      scope.resolve plain path session.accessors = (.ok left, after) ∧
      other.resolve wrapped path session.accessors = (.ok right, after) ∧
      (∀ value, right.value? = some value → value.IsConcrete) ∧
      left.frameHosts.length = right.frameHosts.length := by
  refine ⟨fun loader program => ?_, fun path => ?_⟩
  · have agrees : Alike (Rendering.SameSound plain.schema) (Rendering.run plain loader program scope)
        (Rendering.run wrapped loader program other) :=
      Rendering.execute_deferral defers 0 program 0 program.instructions.size same
    obtain ⟨results, sessions, _⟩ := agrees session session ⟨rfl, sound⟩
    exact (Prod.ext results sessions).symm
  · obtain ⟨left, right, after, leftRun, rightRun, corresponds, _⟩ :=
      Scope.resolve_agree defers same path session.accessors sound
    refine ⟨left, right, after, leftRun, rightRun, ?_, (corresponds.frameHosts_rel .same).length_eq⟩
    intro value named
    cases corresponds with
    | value heads =>
      cases named
      exact heads.isConcrete_right
    | empty | absent => cases named

/-- An object whose members are behind slots, in a map that is itself behind two of them, and a
name that is bound to a list behind another one. -/
theorem run_eq_of_defers_object :
    let schema : Schema := [[.member ⟨"name", .field "name", .required⟩,
      .member ⟨"items", .method "items", .list⟩]]
    let plain : Host :=
      ⟨schema, #[⟨0, none, [("name", .str "<a>"), ("items", .list [.bool true])], []⟩], #[]⟩
    let wrapped : Host :=
      ⟨schema, #[⟨0, none, [("name", .deferred 1), ("items", .list [.deferred 0])], []⟩],
        #[.ready (.bool true), .ready (.str "<a>"), .ready (.map [("o", .object 0)]),
          .ready (.deferred 2), .ready (.list [])]⟩
    let scope := Scope.root { host := some (.map [("o", .object 0)]), bindings := [("b", .list [])] }
    let other := Scope.root { host := some (.deferred 3), bindings := [("b", .deferred 4)] }
    let objects (left right : Nat) := left = 0 ∧ right = 0
    let session : Session Unit := ⟨{}, {}, ()⟩
    plain.Defers wrapped objects ∧ scope.Corresponds (wrapped.Wraps objects) other ∧
      session.accessors.Sound schema ∧
      ∀ (loader : Loader Unit) (program : Program),
        Rendering.run wrapped loader program other session =
          Rendering.run plain loader program scope session := by
  intro schema plain wrapped scope other objects session
  have members : schema.members 0 =
      [⟨[], "name", .field "name", .required⟩, ⟨[], "items", .method "items", .list⟩] := by
    rw [Schema.members]
    rfl
  have defers : plain.Defers wrapped objects := by
    refine ⟨rfl, ?_, ?_, ?_, ?_⟩
    · rintro left right ⟨rfl, rfl⟩
      rfl
    · rintro left right ⟨rfl, rfl⟩
      rfl
    · rintro left right ⟨rfl, rfl⟩ accessor member
      rw [show plain.schema.members (plain.typeOf 0) = _ from members] at member
      simp only [List.mem_cons, List.not_mem_nil, or_false] at member
      rcases member with rfl | rfl <;> exact nofun
    · rintro left right ⟨rfl, rfl⟩ accessor member key reading
      rw [show plain.schema.members (plain.typeOf 0) = _ from members] at member
      simp only [List.mem_cons, List.not_mem_nil, or_false] at member
      rcases member with rfl | rfl
      · rcases reading with reading | reading <;> cases reading
        exact .some (.deferred rfl (.same (.str "<a>")))
      · rcases reading with reading | reading <;> cases reading
        exact .some (.list (.cons (.deferred rfl (.same (.bool true))) .nil))
  have same : scope.Corresponds (wrapped.Wraps objects) other := by
    refine .cons ⟨.some (.deferred rfl (.deferred rfl (.same (.map ?_)))), ?_⟩ .nil
    · exact .cons ⟨.same (.object ⟨rfl, rfl⟩)⟩ .nil
    · exact .cons ⟨.deferred rfl (.same (.list .nil))⟩ .nil
  have sound : session.accessors.Sound plain.schema := AccessorCache.sound_empty _
  exact ⟨defers, same, sound, (run_eq_of_defers defers same session sound).1⟩

end Mustache
