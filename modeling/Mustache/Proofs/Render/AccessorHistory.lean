import Mustache.Proofs.Render.Alike
import Mustache.Proofs.Render.Enquiries
import Mathlib.Data.Finset.Card
import Mathlib.Data.Finset.Filter

/-!
# Histories of found members

The members that were found are remembered over many uses: single members are looked up and read,
paths are resolved, programs are run, for any hosts with the same types. Every use does to the
cache what looking up some members one after another does (`AccessorUse.perform_snd`), so a
cache after any history holds what was looked up and is declared, each member once
(`AccessorCache.Remembers.performAll`), and no use answers differently because of it.
-/

namespace Mustache

/-- A use of the `AccessorCache` by hosts that have the types of a schema. -/
inductive AccessorUse (schema : Schema) : Type 1 where
  /-- A member of a type is resolved by its name. -/
  | member (type : Nat) (name : String)
  /-- A member of an object is read on behalf of the innermost frame of a scope. -/
  | reading (host : Host) (typed : host.schema = schema) (origin : Scope) (identity : Nat)
      (accessor : Accessor)
  /-- A path is resolved from a scope. -/
  | path (host : Host) (typed : host.schema = schema) (scope : Scope) (path : String)
  /-- A program is run. -/
  | rendering {σ : Type} (host : Host) (typed : host.schema = schema) (loader : Loader σ)
      (program : Program) (scope : Scope) (sink : Sink) (loading : σ)

namespace AccessorUse

variable {schema : Schema}

/-- What a use answers with; a run answers with how it ended, its sink and its loader. -/
def Answer : AccessorUse schema → Type
  | .member _ _ => Option Accessor
  | .reading .. => Except Stall (Option Value)
  | .path .. => Except Stall Resolved
  | @rendering _ σ .. => Except RenderError Unit × Sink × σ

/-- The answer of a use, and the cache after it. -/
def perform : (use : AccessorUse schema) → AccessorCache → use.Answer × AccessorCache
  | .member type name, cache => AccessorCache.resolve schema type name cache
  | .reading host _ origin identity accessor, cache =>
    accessor.read (origin.resolve host) host origin identity cache
  | .path host _ scope wanted, cache => scope.resolve host wanted cache
  | .rendering host _ loader program scope sink loading, cache =>
    let (ended, session) := Rendering.run host loader program scope ⟨sink, cache, loading⟩
    ((ended, session.sink, session.loading), session.accessors)

/-- The members that are looked up in a use, each by its type and its name. -/
def lookups : AccessorUse schema → AccessorCache → List (Nat × String)
  | .member type name, _ => [(type, name)]
  | .reading host _ origin _ accessor, _ => accessor.lookups (origin.lookups host)
  | .path host _ scope wanted, _ => scope.lookups host wanted
  | .rendering host _ loader program scope sink loading, cache =>
    (Rendering.enquiries host loader program scope ⟨sink, cache, loading⟩).flatMap
      (Enquiry.lookups host)

/-- The cache after some uses, which began with none found, and the members that were looked up
in them. -/
def performAll (uses : List (AccessorUse schema)) : AccessorCache × List (Nat × String) :=
  uses.foldl
    (fun (cache, asked) use => ((use.perform cache).2, asked ++ use.lookups cache)) ({}, [])

/-- An `AccessorUse` does nothing to a cache but to look up its members. -/
theorem perform_snd (use : AccessorUse schema) {cache : AccessorCache}
    (sound : cache.Sound schema) :
    (use.perform cache).2 = cache.lookUpAll schema (use.lookups cache) := by
  cases use with
  | member => rfl
  | reading host typed origin identity accessor =>
    cases typed
    have looksUp := accessor.read_looksUp (origin.resolve_looksUp host) origin identity
    exact congrArg Prod.snd (looksUp cache sound)
  | path host typed scope wanted =>
    cases typed
    exact congrArg Prod.snd (scope.resolve_looksUp host wanted cache sound)
  | rendering host typed loader program scope sink loading =>
    cases typed
    exact Rendering.accessors_run host loader program scope ⟨sink, cache, loading⟩ sound

/-- An `AccessorUse` answers alike from all sound caches. -/
theorem perform_fst (use : AccessorUse schema) {cache other : AccessorCache}
    (sound : cache.Sound schema) (otherSound : other.Sound schema) :
    (use.perform cache).1 = (use.perform other).1 := by
  cases use with
  | member type name =>
    exact (sound.resolve type name).1.trans (otherSound.resolve type name).1.symm
  | reading host typed origin identity accessor =>
    cases typed
    have looksUp := accessor.read_looksUp (origin.resolve_looksUp host) origin identity
    exact (congrArg Prod.fst (looksUp cache sound)).trans
      (congrArg Prod.fst (looksUp other otherSound)).symm
  | path host typed scope wanted =>
    cases typed
    exact (scope.resolve_alike host wanted cache other ⟨sound, otherSound⟩).1
  | rendering host typed loader program scope sink loading =>
    cases typed
    obtain ⟨ended, sessions⟩ := @Rendering.execute_alike _ host loader _ _ _ Sink.takeAlike_eq
      (Scope.resolve_alike host) (fun name => .of_eq (loader.load name)) 0 program 0
      program.instructions.size scope ⟨sink, cache, loading⟩ ⟨sink, other, loading⟩
      ⟨rfl, ⟨sound, otherSound⟩, rfl⟩
    exact Prod.ext ended (Prod.ext sessions.sink sessions.loading)

end AccessorUse

namespace AccessorCache

variable {schema : Schema}

/-- A member that a type has, so that `Schema.find?` finds it. -/
def Declared (schema : Schema) (key : Nat × String) : Prop :=
  (schema.find? key.1 key.2).isSome

instance (key : Nat × String) : Decidable (Declared schema key) :=
  inferInstanceAs (Decidable (_ = true))

/-- A cache that holds the members that types have among those that were looked up, each of them
once. -/
structure Remembers (schema : Schema) (asked : List (Nat × String)) (cache : AccessorCache) :
    Prop where
  /-- It holds what the types have. -/
  sound : cache.Sound schema
  /-- It holds no member twice. -/
  nodup : (cache.entries.map (·.1)).Nodup
  /-- It holds the members that were looked up and that types have. -/
  mem_iff : ∀ key, key ∈ cache.entries.map (·.1) ↔ key ∈ asked ∧ Declared schema key

namespace Remembers

variable {asked : List (Nat × String)} {cache : AccessorCache}

theorem empty : Remembers schema [] {} :=
  ⟨sound_empty schema, List.nodup_nil, by simp⟩

/-- What a cache holds of a member is found in it. -/
theorem lookup_eq_none_iff (key : Nat × String) :
    cache.entries.lookup key = none ↔ key ∉ cache.entries.map (·.1) := by
  induction cache.entries with
  | nil => simp
  | cons entry rest inductionHypothesis =>
    rw [List.lookup_cons, List.map_cons, List.mem_cons, not_or]
    by_cases same : key = entry.1
    · simp [same]
    · simp [same, beq_false_of_ne same, inductionHypothesis]

/-- One more member is looked up. -/
theorem lookUp (remembers : Remembers schema asked cache) (key : Nat × String) :
    Remembers schema (asked ++ [key]) (cache.lookUp schema key) := by
  have sound := (remembers.sound.resolve key.1 key.2).2
  unfold AccessorCache.lookUp at *
  unfold resolve at sound ⊢
  cases known : cache.entries.lookup (key.1, key.2) with
  | some accessor =>
    -- It was found before, so it was also looked up before.
    have held : key ∈ cache.entries.map (·.1) := by
      by_contra absent
      rw [(lookup_eq_none_iff key).2 absent] at known
      cases known
    refine ⟨remembers.sound, remembers.nodup, fun other => ?_⟩
    rw [remembers.mem_iff, List.mem_append, List.mem_singleton]
    have before := (remembers.mem_iff key).1 held
    constructor
    · exact fun ⟨member, declared⟩ => ⟨.inl member, declared⟩
    · rintro ⟨member | rfl, declared⟩
      · exact ⟨member, declared⟩
      · exact before
  | none =>
    have absent := (lookup_eq_none_iff key).1 known
    rw [known] at sound
    cases found : schema.find? key.1 key.2 with
    | none =>
      refine ⟨remembers.sound, remembers.nodup, fun other => ?_⟩
      rw [remembers.mem_iff, List.mem_append, List.mem_singleton]
      constructor
      · exact fun ⟨member, declared⟩ => ⟨.inl member, declared⟩
      · rintro ⟨member | rfl, declared⟩
        · exact ⟨member, declared⟩
        · rw [Declared, found] at declared
          cases declared
    | some accessor =>
      rw [found] at sound
      refine ⟨sound, ?_, fun other => ?_⟩
      · rw [List.map_append, List.nodup_append]
        refine ⟨remembers.nodup, List.nodup_singleton _, ?_⟩
        rintro held member _ (_ | ⟨_, ⟨⟩⟩)
        rintro rfl
        exact absent member
      · rw [List.map_append, List.mem_append, remembers.mem_iff, List.mem_append,
          List.mem_singleton, or_and_right]
        refine or_congr_right ?_
        simp only [List.map_cons, List.map_nil, List.mem_singleton]
        constructor
        · rintro rfl
          exact ⟨rfl, by rw [Declared, found]; rfl⟩
        · exact fun ⟨same, _⟩ => same

/-- More members are looked up. -/
theorem lookUpAll (remembers : Remembers schema asked cache) (keys : List (Nat × String)) :
    Remembers schema (asked ++ keys) (cache.lookUpAll schema keys) := by
  induction keys generalizing asked cache with
  | nil =>
    rw [List.append_nil]
    exact remembers
  | cons key rest inductionHypothesis =>
    rw [← List.singleton_append, ← List.append_assoc]
    exact inductionHypothesis (remembers.lookUp key)

/-- After any uses (`performAll`) a cache `Remembers` what was looked up in them. -/
theorem performAll (uses : List (AccessorUse schema)) :
    Remembers schema (AccessorUse.performAll uses).2 (AccessorUse.performAll uses).1 := by
  have goesOn : ∀ (rest : List (AccessorUse schema)) (cache : AccessorCache)
      (asked : List (Nat × String)), Remembers schema asked cache →
      let reached := rest.foldl (fun (cache, asked) use =>
        ((use.perform cache).2, asked ++ use.lookups cache)) (cache, asked)
      Remembers schema reached.2 reached.1 := by
    intro rest
    induction rest with
    | nil => exact fun _ _ remembers => remembers
    | cons use rest inductionHypothesis =>
      intro cache asked remembers
      refine inductionHypothesis _ _ ?_
      rw [use.perform_snd remembers.sound]
      exact remembers.lookUpAll _
  exact goesOn uses {} [] empty

/-- The `size` of a cache is the number of members that were looked up and that types have, not
counting any twice. -/
theorem size_eq_card (remembers : Remembers schema asked cache) :
    cache.size = (asked.toFinset.filter (Declared schema)).card := by
  have same : (cache.entries.map (·.1)).toFinset = asked.toFinset.filter (Declared schema) := by
    ext key
    rw [List.mem_toFinset, remembers.mem_iff, Finset.mem_filter, List.mem_toFinset]
  rw [← same, List.toFinset_card_of_nodup remembers.nodup, List.length_map, size]

/-- Looking with `AccessorCache.resolve` for a member that a type does not have leaves the cache as
it is. -/
theorem resolve_of_not_declared (remembers : Remembers schema asked cache) {type : Nat}
    {name : String} (missing : schema.find? type name = none) :
    AccessorCache.resolve schema type name cache = (none, cache) := by
  have unknown : cache.entries.lookup (type, name) = none := by
    rw [lookup_eq_none_iff, remembers.mem_iff, Declared, missing]
    exact fun ⟨_, declared⟩ => nomatch declared
  unfold resolve
  rw [unknown, missing]

end Remembers

end AccessorCache

/-- After any uses (`AccessorUse`) by hosts with the same types the cache does not show. A member
resolves to what the types declare, or to nothing where they declare nothing; reading it, resolving
a path and running a program answer as they do when nothing was found before. The cache has as many
entries as different members were looked up and found, and looking for others adds none. -/
theorem accessor_history (schema : Schema) (uses : List (AccessorUse schema)) :
    let (cache, asked) := AccessorUse.performAll uses
    (∀ type name, (AccessorCache.resolve schema type name cache).1 = schema.find? type name) ∧
    (∀ use : AccessorUse schema, (use.perform cache).1 = (use.perform {}).1) ∧
    cache.size =
      (asked.toFinset.filter fun key => (schema.find? key.1 key.2).isSome = true).card ∧
    (∀ type name, schema.find? type name = none →
      (AccessorCache.resolve schema type name cache).2 = cache) := by
  have remembers := AccessorCache.Remembers.performAll uses
  refine ⟨fun type name => ?_, fun use => ?_, ?_, fun type name missing => ?_⟩
  · exact (remembers.sound.resolve type name).1
  · exact use.perform_fst remembers.sound (AccessorCache.sound_empty schema)
  · exact remembers.size_eq_card
  · exact congrArg Prod.snd (remembers.resolve_of_not_declared missing)

end Mustache
