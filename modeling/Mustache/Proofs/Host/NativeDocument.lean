import Mustache.Proofs.Host.Parts
import Mathlib.Algebra.Group.Int.Defs

/-!
# Native forms of documents

The same data can be given as a document or as texts, truth values, whole numbers, lists and maps:
`Document.native` turns the one into the other. On the way through a document texts and truth
values become plain ones while everything else stays a document, so a run over a document meets
both forms; `Value.Mirrors` says what it meets instead in the native data. The text of a value
shows its form only if it is a list or an object.
-/

namespace Mustache

namespace Document

/-- A document without nulls whose numbers are whole numbers of a signed word. -/
inductive IsPlain : Document → Prop
  | bool (value : Bool) : IsPlain (.bool value)
  | integer {value : Int} (low : -2 ^ 63 ≤ value) (high : value < 2 ^ 63) :
      IsPlain (.number (.integer value))
  | string (text : String) : IsPlain (.string text)
  | array {items : List Document} (plain : ∀ item ∈ items, IsPlain item) : IsPlain (.array items)
  | object {members : List (String × Document)} (plain : ∀ member ∈ members, IsPlain member.2) :
      IsPlain (.object members)

mutual

/-- The value that holds what a document holds and is none. Null has no such form. -/
def native : Document → Value
  | .null => .document .null
  | .bool value => .bool value
  | .number (.integer value) => .int (Int64.ofInt value)
  | .number (.double value) => .float value
  | .string text => .str text
  | .array items => .list (nativeItems items)
  | .object members => .map (nativeMembers members)

/-- The native forms of a list of documents. -/
def nativeItems : List Document → List Value
  | [] => []
  | item :: rest => native item :: nativeItems rest

/-- The native forms of named documents. -/
def nativeMembers : List (String × Document) → List (String × Value)
  | [] => []
  | (name, value) :: rest => (name, native value) :: nativeMembers rest

end

/-- Whether a document is a list or an object. -/
def isContainer : Document → Bool
  | .array _ | .object _ => true
  | _ => false

theorem nativeItems_eq_map (items : List Document) : nativeItems items = items.map native := by
  induction items with
  | nil => rw [nativeItems, List.map_nil]
  | cons item rest inductionHypothesis =>
    rw [nativeItems, List.map_cons, inductionHypothesis]

/-- Under a name stands in `nativeMembers` the native form of what stands there in the document. -/
theorem lookup_nativeMembers (members : List (String × Document)) (name : String) :
    (nativeMembers members).lookup name = (members.lookup name).map native := by
  induction members with
  | nil => rfl
  | cons member rest inductionHypothesis =>
    obtain ⟨other, value⟩ := member
    rw [nativeMembers, List.lookup_cons, List.lookup_cons]
    split
    · rfl
    · exact inductionHypothesis

/-- A `native` form is not deferred. -/
theorem isConcrete_native (document : Document) : document.native.IsConcrete := by
  intro slot
  cases document with
  | number value => cases value <;> exact Value.noConfusion
  | null | bool | string | array | object => exact Value.noConfusion

/-- A document that is no list and no object has the text of its `native` form. -/
theorem IsPlain.text_native {document : Document} (plain : document.IsPlain)
    (single : document.isContainer = false) (host : Host) :
    host.concreteText document.native = document.plainText := by
  cases plain with
  | bool value => cases value <;> rfl
  | integer low high =>
    rw [native, Host.concreteText, Int64.toInt_ofInt_of_le low high]
    exact (String.ofList_toList).symm
  | string => rfl
  | array | object => cases single

end Document

/-- Two values of which the second holds natively what the first holds as a document or as a part
of one. Where `shared` says so, both may also be the same value of any kind, if no object that can
be got at from it has a method that is given a frame (`Host.IsUncontextual`). -/
inductive Value.Mirrors (host : Host) (shared : Prop) : Value → Value → Prop
  | document {document : Document} (plain : document.IsPlain) :
      Mirrors host shared (.document document) document.native
  | str (text : String) : Mirrors host shared (.str text) (.str text)
  | bool (value : Bool) : Mirrors host shared (.bool value) (.bool value)
  | same {left right : Value} (possible : shared)
      (same : host.SameEverywhere host.IsUncontextual left right) : Mirrors host shared left right

namespace Value.Mirrors

variable {host : Host} {shared : Prop} {left right : Value}

/-- A part of a document is mirrored by its `Document.native` form. -/
theorem ofDocument {document : Document} (plain : document.IsPlain) :
    (Value.ofDocument document).Mirrors host shared document.native := by
  cases plain with
  | bool value => exact .bool value
  | string text => exact .str text
  | integer low high => exact .document (.integer low high)
  | array plain => exact .document (.array plain)
  | object plain => exact .document (.object plain)

/-- Only if a value is a list or an object does its `Host.text` show in which form it is given. -/
theorem text_eq (mirrors : left.Mirrors host shared right)
    (single : ∀ document, left = .document document → document.isContainer = false) :
    host.text right = host.text left := by
  cases mirrors with
  | document plain =>
    rw [Host.text, Host.text, Host.settle_of_isConcrete (Document.isConcrete_native _),
      Host.settle_of_isConcrete fun _ => Value.noConfusion]
    exact congrArg Except.ok (plain.text_native (single _ rfl) host)
  | str | bool => rfl
  | same _ same => rw [same.1]

end Value.Mirrors

end Mustache
