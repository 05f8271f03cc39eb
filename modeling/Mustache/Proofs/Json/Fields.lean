import Mathlib.Data.List.Perm.Basic
import Mustache.Json.Fields

/-!
# Members in any order

What a record is read from does not depend on the order in which the members of an object stand:
the fields are the same but for their order, and so is the value under each name.
-/

namespace Mustache.Json.Fields

/-- A member whose name stands for a text, as a field. -/
def named? : Option String × Tree → Option (String × Tree)
  | (name, value) => name.map fun text => (text, value)

/-- An object has fields by `ofMembers?` if all names stand for texts, and they are its members
then. -/
theorem ofMembers?_eq (members : List (Option String × Tree)) :
    ofMembers? members =
      if members.all fun member => member.1.isSome then some (members.filterMap named?)
      else none := by
  induction members with
  | nil => rfl
  | cons member rest inductionHypothesis =>
    obtain ⟨_ | name, value⟩ := member
    · rfl
    · rw [ofMembers?, inductionHypothesis]
      simp only [List.all_cons, Option.isSome_some, Bool.true_and]
      split <;> rfl

/-- A field that `ofMembers?` gives is a member. -/
theorem mem_of_mem_ofMembers? {members : List (Option String × Tree)} {fields : Fields}
    (read : ofMembers? members = some fields) {name : String} {value : Tree}
    (member : (name, value) ∈ fields) : (some name, value) ∈ members := by
  rw [ofMembers?_eq, Option.ite_none_right_eq_some] at read
  obtain ⟨_, isFields⟩ := read
  cases isFields
  obtain ⟨⟨found, other⟩, there, same⟩ := List.mem_filterMap.1 member
  obtain ⟨text, rfl, equal⟩ := Option.map_eq_some_iff.1 same
  cases equal
  exact there

/-- What is read from the fields of an object in any order is read from its members in any order. -/
theorem ofMembers?_bind_of_perm {α : Type} {members others : List (Option String × Tree)}
    (order : members.Perm others) {read : Fields → Option α}
    (anyOrder : ∀ fields arranged : Fields, fields.Perm arranged → read fields = read arranged) :
    (ofMembers? members).bind read = (ofMembers? others).bind read := by
  rw [ofMembers?_eq, ofMembers?_eq, order.all_eq]
  split
  · exact anyOrder _ _ (order.filterMap named?)
  · rfl

variable {fields others : Fields}

/-- The value that `optional?` finds under a name does not depend on the order of the fields. -/
theorem optional?_of_perm (order : fields.Perm others) (name : String) :
    fields.optional? name = others.optional? name := by
  have values : (fields.values name).Perm (others.values name) :=
    (order.filter _).map _
  unfold optional?
  generalize fields.values name = found at values
  generalize others.values name = found' at values
  match found, found', values.length_eq with
  | [], [], _ => rfl
  | [value], [value'], _ => rw [List.singleton_perm_singleton.1 values]
  -- More than one value is a fault, whichever comes first.
  | _ :: _ :: _, _ :: _ :: _, _ => rfl

theorem required?_of_perm (order : fields.Perm others) (name : String) :
    fields.required? name = others.required? name := by
  rw [required?, required?, optional?_of_perm order]

/-- The value that `optional?` finds under a name is that of a field. -/
theorem mem_of_optional? {name : String} {value : Tree}
    (found : fields.optional? name = some (some value)) : (name, value) ∈ fields := by
  have member : value ∈ fields.values name := by
    unfold optional? at found
    split at found <;> simp_all
  obtain ⟨⟨other, same⟩, there, rfl⟩ := List.mem_map.1 member
  obtain ⟨isField, named⟩ := List.mem_filter.1 there
  rwa [← eq_of_beq named]

/-- Where `optional?` finds no field of a name, the fields do not start with that name. -/
theorem startsWith_of_optional?_eq_none {name : String}
    (missing : fields.optional? name = some none) (other : String) :
    fields.startsWith name other = false := by
  have absent : fields.values name = [] := by
    unfold optional? at missing
    split at missing <;> simp_all
  rw [startsWith, beq_eq_false_iff_ne]
  intro found
  obtain ⟨⟨same, value⟩, there, rfl⟩ := List.mem_map.1 (List.mem_of_find?_eq_some found)
  have member : value ∈ fields.values same :=
    List.mem_map.2 ⟨(same, value), List.mem_filter.2 ⟨there, beq_self_eq_true same⟩, rfl⟩
  rw [absent] at member
  cases member

end Mustache.Json.Fields
