import Mustache.Proofs.Host.Members
import Mustache.Scope.Resolve

/-!
# Members across a hierarchy

A type has the members that it or any type declares which it embeds, directly or not. Of those with
one name it has the fields first, then the methods, and last the methods that see a frame, whichever
of the types declare them. And wherever the member comes from that is found, reading it is reading
what the declaring type itself has under the name, on the object that is embedded there:
`find?_hierarchy`.
-/

namespace Mustache

/-- No two kinds have the same `rank`. -/
theorem MemberKind.eq_of_rank_eq {kind other : MemberKind} (same : kind.rank = other.rank) :
    kind = other := by
  revert same
  cases kind <;> cases other <;> decide

namespace Schema

variable {schema : Schema} {type base declaring : Nat} {route : List Nat} {name : String}
  {accessor : Accessor} {kind : MemberKind}

/-- A type embeds another one. -/
def Embeds (schema : Schema) (type base : Nat) : Prop :=
  .inherit base ∈ schema.declarations type ∧ type < base ∧ base < schema.length

/-- Embedded types (`Embeds`), outermost first, lead from a type to another one. -/
inductive Leads (schema : Schema) : Nat → List Nat → Nat → Prop where
  /-- A type is its own. -/
  | here (type : Nat) : Leads schema type [] type
  /-- A type embeds one from which the others lead on. -/
  | through {type base declaring : Nat} {route : List Nat} (embeds : schema.Embeds type base)
      (leads : Leads schema base route declaring) : Leads schema type (base :: route) declaring

/-- A type, or one that it embeds, directly or not, declares a member with a name and a kind. -/
def Declares (schema : Schema) (type : Nat) (name : String) (kind : MemberKind) : Prop :=
  ∃ route declaring member, schema.Leads type route declaring ∧
    .member member ∈ schema.declarations declaring ∧ member.name = name ∧
      member.reading.kind = kind

/-- A type is `brought` by another one that it embeds the members of that type. -/
theorem brought_of_embeds (embeds : schema.Embeds type base) :
    schema.brought type (.inherit base) = (schema.members base).map (Accessor.through base) :=
  if_pos embeds.2

/-- The `members` of a type are what it declares and what the types it embeds have. -/
theorem mem_members_step : accessor ∈ schema.members type ↔
    (accessor.route = [] ∧ .member accessor.member ∈ schema.declarations type) ∨
      ∃ base inner, schema.Embeds type base ∧ inner ∈ schema.members base ∧
        accessor = inner.through base := by
  rw [members_eq_flatMap, List.mem_flatMap]
  constructor
  · rintro ⟨declaration | base, declared, brought⟩
    · cases List.mem_singleton.1 brought
      exact .inl ⟨rfl, declared⟩
    · rw [Schema.brought] at brought
      split at brought
      · next deeper =>
        obtain ⟨inner, member, rfl⟩ := List.mem_map.1 brought
        exact .inr ⟨base, inner, ⟨declared, deeper⟩, member, rfl⟩
      · cases brought
  · rintro (⟨own, declared⟩ | ⟨base, inner, embeds, member, rfl⟩)
    · refine ⟨_, declared, List.mem_singleton.2 ?_⟩
      rw [← own]
    · refine ⟨_, embeds.1, ?_⟩
      rw [brought_of_embeds embeds]
      exact List.mem_map_of_mem member

/-- The `members` of a type are those that are declared where its embedded types lead to. -/
theorem mem_members_iff : accessor ∈ schema.members type ↔
    ∃ declaring, schema.Leads type accessor.route declaring ∧
      .member accessor.member ∈ schema.declarations declaring := by
  obtain ⟨route, member⟩ := accessor
  induction route generalizing type with
  | nil =>
    rw [mem_members_step]
    constructor
    · rintro (⟨_, declared⟩ | ⟨_, _, _, _, ⟨⟩⟩)
      exact ⟨type, .here type, declared⟩
    · rintro ⟨_, ⟨⟩, declared⟩
      exact .inl ⟨rfl, declared⟩
  | cons base route inductionHypothesis =>
    rw [mem_members_step]
    constructor
    · rintro (⟨⟨⟩, _⟩ | ⟨_, ⟨_, _⟩, embeds, among, ⟨⟩⟩)
      obtain ⟨declaring, leads, declared⟩ := inductionHypothesis.1 among
      exact ⟨declaring, .through embeds leads, declared⟩
    · rintro ⟨declaring, ⟨⟩ | ⟨embeds, leads⟩, declared⟩
      exact .inr ⟨base, ⟨route, member⟩, embeds, inductionHypothesis.2 ⟨declaring, leads, declared⟩,
        rfl⟩

theorem declares_iff : schema.Declares type name kind ↔
    ∃ accessor ∈ schema.members type, accessor.member.name = name ∧ accessor.kind = kind := by
  constructor
  · rintro ⟨route, declaring, member, leads, declared, fits⟩
    exact ⟨⟨route, member⟩, mem_members_iff.2 ⟨declaring, leads, declared⟩, fits⟩
  · rintro ⟨accessor, among, fits⟩
    obtain ⟨declaring, leads, declared⟩ := mem_members_iff.1 among
    exact ⟨accessor.route, declaring, accessor.member, leads, declared, fits⟩

/-- What `find?` finds under a name is declared with the name and its kind. -/
theorem declares_of_find? (found : schema.find? type name = some accessor) :
    schema.Declares type name accessor.kind :=
  declares_iff.2 ⟨accessor, firstOfKind?_eq_some (find?_eq_some found).1⟩

/-- A kind in which a name is declared is the kind of what `find?` finds if the name is declared in
none that is looked at earlier. -/
theorem exists_find?_of_declares (declares : schema.Declares type name kind)
    (best : ∀ better, better.rank < kind.rank → ¬ schema.Declares type name better) :
    ∃ accessor, schema.find? type name = some accessor ∧ accessor.kind = kind := by
  obtain ⟨other, among, rfl, rfl⟩ := declares_iff.1 declares
  obtain ⟨accessor, found⟩ := exists_find?_eq_some among
  refine ⟨accessor, found, ?_⟩
  rcases Nat.lt_or_eq_of_le ((find?_eq_some found).2 other among rfl) with less | same
  · exact absurd (declares_of_find? found) (best _ less)
  · exact MemberKind.eq_of_rank_eq same

/-- Nothing is found by `find?` under a name that is not declared. -/
theorem find?_eq_none (declared : ∀ kind, ¬ schema.Declares type name kind) :
    schema.find? type name = none := by
  cases found : schema.find? type name with
  | none => rfl
  | some accessor => exact absurd (declares_of_find? found) (declared accessor.kind)

/-- The first member with a name and the best kind is found by `find?`. -/
theorem find?_of_first (first : firstOfKind? (schema.members type) name kind = some accessor)
    (best : ∀ better, better.rank < kind.rank → ¬ schema.Declares type name better) :
    schema.find? type name = some accessor := by
  obtain ⟨among, named, ofKind⟩ := firstOfKind?_eq_some first
  obtain ⟨other, found, sameKind⟩ :=
    exists_find?_of_declares (declares_iff.2 ⟨accessor, among, named, ofKind⟩) best
  have firstOther := (find?_eq_some found).1
  rw [sameKind, first] at firstOther
  rw [found, firstOther]

/-- What `find?` finds under a name the type declares itself, or it comes from an embedded type
which has it under the name. -/
theorem find?_step (found : schema.find? type name = some accessor) :
    (accessor.route = [] ∧ .member accessor.member ∈ schema.declarations type) ∨
      ∃ base inner, schema.Embeds type base ∧ schema.find? base name = some inner ∧
        accessor = inner.through base := by
  obtain ⟨first, best⟩ := find?_eq_some found
  rw [firstOfKind?_members] at first
  obtain ⟨declaration, declared, brings⟩ := List.exists_of_findSome?_eq_some first
  cases declaration with
  | member own =>
    cases List.mem_singleton.1 (firstOfKind?_eq_some brings).1
    exact .inl ⟨rfl, declared⟩
  | inherit base =>
    rw [brought] at brings
    split at brings
    · next deeper =>
      have embeds : schema.Embeds type base := ⟨declared, deeper⟩
      rw [firstOfKind?, List.find?_map, Option.map_eq_some_iff] at brings
      obtain ⟨inner, firstInner, rfl⟩ := brings
      refine .inr ⟨base, inner, embeds, find?_of_first firstInner fun better less declares => ?_,
        rfl⟩
      -- A better member of the embedded type would be one of the embedding type, too.
      obtain ⟨other, among, named, rfl⟩ := declares_iff.1 declares
      have member : other.through base ∈ schema.members type :=
        mem_members_step.2 (.inr ⟨base, other, embeds, among, rfl⟩)
      exact absurd (best _ member named) (Nat.not_le.2 less)
    · cases brings

/-- What `find?` finds under a name is what the type that declares it has under the name. -/
theorem exists_find?_declaring (found : schema.find? type name = some accessor) :
    ∃ declaring, schema.Leads type accessor.route declaring ∧
      .member accessor.member ∈ schema.declarations declaring ∧
      schema.find? declaring name = some ⟨[], accessor.member⟩ := by
  obtain ⟨route, member⟩ := accessor
  induction route generalizing type with
  | nil =>
    obtain ⟨_, declared⟩ | ⟨_, _, _, _, ⟨⟩⟩ := find?_step found
    exact ⟨type, .here type, declared, found⟩
  | cons base route inductionHypothesis =>
    obtain ⟨⟨⟩, _⟩ | ⟨_, ⟨_, _⟩, embeds, foundInner, ⟨⟩⟩ := find?_step found
    obtain ⟨declaring, leads, own⟩ := inductionHypothesis foundInner
    exact ⟨declaring, .through embeds leads, own⟩

end Schema

namespace Host

variable {host : Host} {identity inner : Nat} {route : List Nat}

/-- The object of a type that an object embeds. -/
def base? (host : Host) (identity base : Nat) : Option Nat :=
  host.objects[identity]?.bind fun object => object.bases.lookup base

/-- The object that embedded types lead to from an object, one after another. -/
def project? (host : Host) (identity : Nat) (route : List Nat) : Option Nat :=
  route.foldlM host.base? identity

/-- Every object embeds an object of each type that its own type embeds (`base?`). -/
def IsWhole (host : Host) : Prop :=
  ∀ identity < host.objects.size, ∀ base, host.schema.Embeds (host.typeOf identity) base →
    ∃ inner < host.objects.size, host.base? identity base = some inner ∧ host.typeOf inner = base

/-- Where `project?` leads to, the same embedded object is found by going on from there. -/
theorem embedded?_of_project? (reaches : host.project? identity route = some inner) :
    host.embedded? identity route = host.embedded? inner [] := by
  induction route generalizing identity with
  | nil =>
    cases reaches
    rfl
  | cons base route inductionHypothesis =>
    rw [project?, List.foldlM_cons] at reaches
    obtain ⟨next, first, rest⟩ := Option.bind_eq_some_iff.1 reaches
    obtain ⟨object, present, embeds⟩ := Option.bind_eq_some_iff.1 first
    rw [← inductionHypothesis rest, embedded?]
    simp only [present, embeds]

/-- Where every object embeds what its type embeds (`IsWhole`), embedded types lead to an object of
the type that they lead to. -/
theorem IsWhole.exists_project? (whole : host.IsWhole) {declaring : Nat}
    (present : identity < host.objects.size)
    (leads : host.schema.Leads (host.typeOf identity) route declaring) :
    ∃ inner < host.objects.size, host.project? identity route = some inner ∧
      host.typeOf inner = declaring := by
  induction route generalizing identity with
  | nil =>
    cases leads
    exact ⟨identity, present, rfl, rfl⟩
  | cons base route inductionHypothesis =>
    obtain _ | ⟨embeds, leads⟩ := leads
    obtain ⟨next, presentNext, first, rfl⟩ := whole identity present base embeds
    obtain ⟨inner, presentInner, rest, typed⟩ := inductionHypothesis presentNext leads
    refine ⟨inner, presentInner, ?_, typed⟩
    rw [project?, List.foldlM_cons]
    exact Option.bind_eq_some_iff.2 ⟨next, first, rest⟩

end Host

/-- Reading a member of an object through embedded types is reading it as a member of the object
that `project?` leads to, for the same frame. -/
theorem Accessor.read_of_project? {host : Host} {identity inner : Nat} {accessor : Accessor}
    (reaches : host.project? identity accessor.route = some inner)
    (resolve : String → Resolution Resolved) (origin : Scope) :
    accessor.read resolve host origin identity =
      read resolve host origin inner ⟨[], accessor.member⟩ := by
  have fields : ∀ key, host.fieldAt? identity accessor.route key = host.fieldAt? inner [] key := by
    intro key
    rw [Host.fieldAt?, Host.embedded?_of_project? reaches, Host.fieldAt?]
  unfold read
  cases accessor.member.reading with
  | field key | method key => simp only [fields]
  | contextMethod call => cases call <;> simp only [ContextCall.answer, fields]

namespace Schema

/-- A type has under a name, by `Schema.find?`, a field if it or any type declares one that it
embeds, directly or not; else a method if any of them declares one; else a method that sees a frame
if any of them declares one; and else nothing. What is found is what the type that declares it has
under the name itself, and it is iterable as that is. Reading it on an object is, for every frame
and in every state, reading what the declaring type has on the object that the embedded types lead
to; and they do lead to one of the declaring type if objects embed what their types embed. -/
theorem find?_hierarchy (host : Host) (type : Nat) (name : String) :
    (host.schema.Declares type name .field →
      ∃ accessor, host.schema.find? type name = some accessor ∧ accessor.kind = .field) ∧
    (¬ host.schema.Declares type name .field → host.schema.Declares type name .method →
      ∃ accessor, host.schema.find? type name = some accessor ∧ accessor.kind = .method) ∧
    (¬ host.schema.Declares type name .field → ¬ host.schema.Declares type name .method →
      host.schema.Declares type name .contextMethod →
      ∃ accessor, host.schema.find? type name = some accessor ∧
        accessor.kind = .contextMethod) ∧
    ((∀ kind, ¬ host.schema.Declares type name kind) → host.schema.find? type name = none) ∧
    ∀ accessor, host.schema.find? type name = some accessor →
      ∃ declaring own, host.schema.Leads type accessor.route declaring ∧
        .member own.member ∈ host.schema.declarations declaring ∧
        host.schema.find? declaring name = some own ∧ own.route = [] ∧
        own.kind = accessor.kind ∧ own.isIterable = accessor.isIterable ∧
        (∀ identity inner, host.project? identity accessor.route = some inner →
          ∀ resolve origin, accessor.read resolve host origin identity =
            own.read resolve host origin inner) ∧
        (host.IsWhole → ∀ identity < host.objects.size, host.typeOf identity = type →
          ∃ inner < host.objects.size, host.project? identity accessor.route = some inner ∧
            host.typeOf inner = declaring) := by
  refine ⟨fun field => ?_, fun noField method => ?_, fun noField noMethod contextMethod => ?_,
    find?_eq_none, fun accessor found => ?_⟩
  · exact exists_find?_of_declares field fun better less => absurd less (Nat.not_lt_zero _)
  · refine exists_find?_of_declares method fun better less => ?_
    cases better with
    | field => exact noField
    | method => exact absurd less (Nat.lt_irrefl _)
    | contextMethod => exact absurd less (Nat.not_lt.2 (Nat.le_succ 1))
  · refine exists_find?_of_declares contextMethod fun better less => ?_
    cases better with
    | field => exact noField
    | method => exact noMethod
    | contextMethod => exact absurd less (Nat.lt_irrefl _)
  · obtain ⟨declaring, leads, declared, own⟩ := exists_find?_declaring found
    refine ⟨declaring, ⟨[], accessor.member⟩, leads, declared, own, rfl, rfl, rfl,
      fun identity inner reaches => Accessor.read_of_project? reaches, ?_⟩
    rintro whole identity present rfl
    exact whole.exists_project? present leads

/-- A field wins over a method of the type itself though it is declared two types further in, and
the object that it is read from is there. -/
example :
    let x : Member := ⟨"x", .field "x", .list⟩
    let host : Host := ⟨[[.member ⟨"x", .method "x", .optional⟩, .inherit 1], [.inherit 2],
      [.member x]], #[⟨0, none, [], [(1, 1)]⟩, ⟨1, none, [], [(2, 2)]⟩, ⟨2, none, [], []⟩], #[]⟩
    host.IsWhole ∧ host.schema.find? 0 "x" = some ⟨[1, 2], x⟩ ∧
      host.project? 0 [1, 2] = some 2 := by
  refine ⟨fun identity present base embeds => ?_, by decide +kernel, rfl⟩
  obtain rfl | rfl | rfl : identity = 0 ∨ identity = 1 ∨ identity = 2 := by
    change identity < 3 at present
    omega
  · obtain _ | ⟨_, _ | ⟨_, ⟨⟩⟩⟩ := embeds.1
    exact ⟨1, by decide, rfl, rfl⟩
  · obtain _ | ⟨_, ⟨⟩⟩ := embeds.1
    exact ⟨2, by decide, rfl, rfl⟩
  · obtain _ | ⟨_, ⟨⟩⟩ := embeds.1

end Schema

end Mustache
