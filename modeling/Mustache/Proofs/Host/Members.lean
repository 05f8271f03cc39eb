import Mustache.Host.Schema

/-!
# Members of types

Which of the members with one name a type has under it. They are looked for kind by kind, and
within one kind in the order of the declarations, where an embedded type stands for all members
that it has itself (`Schema.firstOfKind?_members`). So what a type declares hides the members of
the same name and kind that come from a type embedded after it, and is hidden by those that come
from a type embedded before it: `Schema.find?_declared`.
-/

namespace Mustache

/-- The place of a kind in the order in which `Schema.find?` looks at kinds. -/
def MemberKind.rank : MemberKind → Nat
  | .field => 0
  | .method => 1
  | .contextMethod => 2

namespace Schema

variable {schema : Schema}

/-- The members that a part of a type's declaration brings. -/
def brought (schema : Schema) (type : Nat) : Declaration → List Accessor
  | .member member => [⟨[], member⟩]
  | .inherit base =>
    if type < base ∧ base < schema.length then (schema.members base).map (Accessor.through base)
    else []

theorem members_eq_flatMap (type : Nat) :
    schema.members type = (schema.declarations type).flatMap (schema.brought type) := by
  rw [members]
  refine congrArg (List.flatMap · _) (funext fun declaration => ?_)
  cases declaration <;> rfl

/-- What a type is `brought` by an embedded one is reached through that type. -/
theorem route_ne_nil_of_mem_brought {type base : Nat} {accessor : Accessor}
    (member : accessor ∈ schema.brought type (.inherit base)) : accessor.route ≠ [] := by
  rw [brought] at member
  split at member
  · obtain ⟨inner, _, rfl⟩ := List.mem_map.1 member
    exact List.cons_ne_nil _ _
  · cases member

/-- What is among the `members` of a type is declared by some type. -/
theorem member_mem_flatten {type : Nat} {accessor : Accessor}
    (member : accessor ∈ schema.members type) : .member accessor.member ∈ schema.flatten := by
  rw [members_eq_flatMap, List.mem_flatMap] at member
  obtain ⟨declaration, declared, member⟩ := member
  cases declaration with
  | member own =>
    cases List.mem_singleton.1 member
    unfold declarations at declared
    cases found : schema[type]? with
    | none =>
      rw [found] at declared
      cases declared
    | some declarations =>
      rw [found] at declared
      exact List.mem_flatten.2 ⟨declarations, List.mem_of_getElem? found, declared⟩
  | inherit base =>
    rw [brought] at member
    split at member
    · next deeper =>
      obtain ⟨inner, innerMember, rfl⟩ := List.mem_map.1 member
      rw [show (Accessor.through base inner).member = inner.member from rfl]
      exact member_mem_flatten innerMember
    · cases member
  termination_by schema.length - type

section Kinds

variable {members : List Accessor} {name : String} {kind : MemberKind} {accessor : Accessor}

/-- The member that `firstOfKind?` finds for a name and a kind has that name and that kind. -/
theorem firstOfKind?_eq_some (found : firstOfKind? members name kind = some accessor) :
    accessor ∈ members ∧ accessor.member.name = name ∧ accessor.kind = kind := by
  have fits := List.find?_some found
  rw [Bool.and_eq_true, beq_iff_eq, beq_iff_eq] at fits
  exact ⟨List.mem_of_find?_eq_some found, fits⟩

/-- There is no `firstOfKind?` for a name and a kind if and only if there is no such member at all.
-/
theorem firstOfKind?_eq_none_iff : firstOfKind? members name kind = none ↔
    ∀ accessor ∈ members, ¬ (accessor.member.name = name ∧ accessor.kind = kind) := by
  simp [firstOfKind?]

/-- Within one kind the first declaration counts by which a member with the name is `brought`. -/
theorem firstOfKind?_members (type : Nat) (name : String) (kind : MemberKind) :
    firstOfKind? (schema.members type) name kind = (schema.declarations type).findSome?
      fun declaration => firstOfKind? (schema.brought type declaration) name kind := by
  rw [members_eq_flatMap]
  exact List.find?_flatMap

/-- What `find?` finds under a name is the first member with that name and with the best kind that
any member with that name has. -/
theorem find?_eq_some {type : Nat} (found : schema.find? type name = some accessor) :
    firstOfKind? (schema.members type) name accessor.kind = some accessor ∧
      ∀ other ∈ schema.members type, other.member.name = name →
        accessor.kind.rank ≤ other.kind.rank := by
  obtain ⟨earlier, kind, later, order, first, passed⟩ := List.findSome?_eq_some_iff.1 found
  obtain ⟨_, _, rfl⟩ := firstOfKind?_eq_some first
  refine ⟨first, fun other member named => ?_⟩
  have kinds : other.kind ∈ earlier ++ accessor.kind :: later := by
    rw [← order]
    cases other.kind <;> decide
  have ranked : (earlier ++ accessor.kind :: later).Pairwise
      fun left right => left.rank < right.rank := by
    rw [← order]
    decide
  -- A kind that is looked at earlier has no member with the name.
  rcases List.mem_append.1 kinds with before | rest
  · exact absurd ⟨named, rfl⟩ (firstOfKind?_eq_none_iff.1 (passed _ before) other member)
  · rcases List.mem_cons.1 rest with same | after
    · exact Nat.le_of_eq (congrArg MemberKind.rank same.symm)
    · have below := (List.pairwise_cons.1 (List.pairwise_append.1 ranked).2.1).1
      exact Nat.le_of_lt (below _ after)

/-- Under the name of one of its `members` a type has something that `find?` finds. -/
theorem exists_find?_eq_some {type : Nat} (member : accessor ∈ schema.members type) :
    ∃ found, schema.find? type accessor.member.name = some found := by
  rw [← Option.ne_none_iff_exists', find?, Ne, List.findSome?_eq_none_iff]
  intro missing
  have kinds : accessor.kind ∈ [.field, .method, .contextMethod] := by
    cases accessor.kind <;> decide
  exact firstOfKind?_eq_none_iff.1 (missing _ kinds) accessor member ⟨rfl, rfl⟩

end Kinds

section Declared

variable {type : Nat} {before after : List Declaration} {own : Member}

/-- Of the members with the name and the kind of a declared one `firstOfKind?` finds what the
declarations before it bring, and else the declared one. -/
theorem firstOfKind?_declared
    (declared : schema.declarations type = before ++ .member own :: after) :
    firstOfKind? (schema.members type) own.name own.reading.kind =
      some ((before.findSome? fun earlier =>
        firstOfKind? (schema.brought type earlier) own.name own.reading.kind).getD ⟨[], own⟩) := by
  have itself : firstOfKind? (schema.brought type (.member own)) own.name own.reading.kind =
      some ⟨[], own⟩ := by
    simp [brought, firstOfKind?, Accessor.kind]
  rw [firstOfKind?_members, declared, List.findSome?_append, List.findSome?_cons, itself]
  cases before.findSome? fun earlier =>
    firstOfKind? (schema.brought type earlier) own.name own.reading.kind <;> rfl

/-- If the type itself declares no such member before, what the declarations before bring is
inherited. So the declared one is the first exactly if no type embedded before has such a
member. -/
theorem firstBrought_eq_own_iff (first : ∀ earlier, .member earlier ∈ before →
      ¬ (earlier.name = own.name ∧ earlier.reading.kind = own.reading.kind)) :
    (before.findSome? fun earlier =>
        firstOfKind? (schema.brought type earlier) own.name own.reading.kind).getD ⟨[], own⟩ =
      ⟨[], own⟩ ↔
    ∀ base, .inherit base ∈ before → ∀ inherited ∈ schema.brought type (.inherit base),
      ¬ (inherited.member.name = own.name ∧ inherited.kind = own.reading.kind) := by
  cases inBefore : before.findSome? fun earlier =>
      firstOfKind? (schema.brought type earlier) own.name own.reading.kind with
  | none =>
    refine ⟨fun _ base embedded => ?_, fun _ => rfl⟩
    exact firstOfKind?_eq_none_iff.1 (List.findSome?_eq_none_iff.1 inBefore _ embedded)
  | some inherited =>
    obtain ⟨earlier, declaredEarlier, brings⟩ := List.exists_of_findSome?_eq_some inBefore
    obtain ⟨member, fits⟩ := firstOfKind?_eq_some brings
    cases earlier with
    | member other =>
      cases List.mem_singleton.1 member
      exact absurd fits (first other declaredEarlier)
    | inherit base =>
      refine ⟨fun same => ?_, fun lacks => ?_⟩
      · exact absurd (congrArg Accessor.route same) (route_ne_nil_of_mem_brought member)
      · exact absurd fits (lacks base declaredEarlier _ member)

/-- Under the name of a member that a type declares `find?` always finds a member, of the best kind
that any member with that name has. If that is the kind of the declared one, the first that the type
declares so, then it is the declared one exactly if no type that is embedded before it has such a
member; otherwise it is the first that those types have. -/
theorem find?_declared (declared : schema.declarations type = before ++ .member own :: after)
    (first : ∀ earlier, .member earlier ∈ before →
      ¬ (earlier.name = own.name ∧ earlier.reading.kind = own.reading.kind)) :
    ∃ accessor, schema.find? type own.name = some accessor ∧ accessor.member.name = own.name ∧
      (∀ other ∈ schema.members type, other.member.name = own.name →
        accessor.kind.rank ≤ other.kind.rank) ∧
      (accessor.kind = own.reading.kind →
        accessor = ((before.findSome? fun earlier =>
          firstOfKind? (schema.brought type earlier) own.name own.reading.kind).getD ⟨[], own⟩) ∧
        (accessor = ⟨[], own⟩ ↔ ∀ base, .inherit base ∈ before →
          ∀ inherited ∈ schema.brought type (.inherit base),
            ¬ (inherited.member.name = own.name ∧ inherited.kind = own.reading.kind))) := by
  have among : ⟨[], own⟩ ∈ schema.members type := by
    rw [members_eq_flatMap, declared, List.mem_flatMap]
    exact ⟨.member own, List.mem_append_right _ List.mem_cons_self, List.mem_singleton_self _⟩
  obtain ⟨accessor, found⟩ := exists_find?_eq_some among
  obtain ⟨firstOfBest, best⟩ := find?_eq_some found
  refine ⟨accessor, found, (firstOfKind?_eq_some firstOfBest).2.1, best, fun kind => ?_⟩
  rw [kind, firstOfKind?_declared declared, Option.some.injEq] at firstOfBest
  rw [← firstOfBest]
  exact ⟨rfl, firstBrought_eq_own_iff first⟩

end Declared

/-- A type that embeds another one after a method which that one has too. -/
theorem find?_declared_sound :
    let tricks : Member := ⟨"tricks", .field "tricks", .optionalList⟩
    let sound : Member := ⟨"sound", .method "sound", .required⟩
    let schema : Schema := [[.member tricks, .member sound, .inherit 1],
      [.member ⟨"name", .field "name", .required⟩, .member sound]]
    schema.declarations 0 = [.member tricks] ++ .member sound :: [.inherit 1] ∧
    (∀ earlier, .member earlier ∈ [Declaration.member tricks] →
      ¬ (earlier.name = sound.name ∧ earlier.reading.kind = sound.reading.kind)) ∧
    ∃ accessor, schema.find? 0 "sound" = some accessor ∧ accessor.kind = .method ∧
      (accessor.kind = .method → accessor = ⟨[], sound⟩) := by
  intro tricks sound schema
  have declared : schema.declarations 0 = [.member tricks] ++ .member sound :: [.inherit 1] := rfl
  have first : ∀ earlier, .member earlier ∈ [Declaration.member tricks] →
      ¬ (earlier.name = sound.name ∧ earlier.reading.kind = sound.reading.kind) := by
    intro earlier among
    cases Declaration.member.inj (List.mem_singleton.1 among)
    decide
  obtain ⟨accessor, found, _, _, decided⟩ := find?_declared declared first
  have evaluated : schema.find? 0 "sound" = some ⟨[], sound⟩ := by decide +kernel
  refine ⟨declared, first, accessor, found, ?_, fun kind => (decided kind).2.2 ?_⟩
  · cases found.symm.trans evaluated
    rfl
  · rintro base (_ | ⟨_, ⟨⟩⟩)

/-- A type that embeds another one before a field which that one has too. -/
theorem find?_embedded_before :
    let own : Member := ⟨"x", .field "x", .optional⟩
    let schema : Schema := [[.inherit 1, .member own], [.member own]]
    .member own ∈ schema.declarations 0 ∧ schema.find? 0 "x" = some ⟨[1], own⟩ := by
  decide +kernel

end Schema

end Mustache
