import Mustache.Proofs.Program.Balance
import Mathlib.Data.List.Chain

/-!
# Normal forms

A tree is normalised by leaving out what does nothing and putting together the texts that meet then;
instructions are normal if they are balanced, none of their literals is empty, and no two of them
are neighbours. Lowering goes from trees to normal instructions, it does not tell a tree from its
normalised form, and it is one to one on normalised trees. So trees with the same instructions are
the same up to normalising.
-/

namespace Mustache

namespace Node

mutual

/-- A node in front of a normalised tree. Remarks and empty texts are left out, a text joins the
text that follows, and line numbers are forgotten. -/
def consNormalized (node : Node) (following : List Node) : List Node :=
  match node with
  | .text content => if content = "" then following else consText content following
  | .interpolation path escaped _ => .interpolation path escaped 0 :: following
  | .block kind name children _ _ => .block kind name (normalize children) 0 0 :: following
  | .partialCall name _ => .partialCall name 0 :: following
  | .comment _ _ => following

/-- A tree without its remarks, its empty texts and its line numbers, in which texts that meet are
one text. -/
def normalize : List Node → List Node
  | [] => []
  | node :: rest => consNormalized node (normalize rest)

end

/-- Whether a node is a text. -/
def IsText (node : Node) : Prop :=
  ∃ content, node = .text content

/-- Trees without remarks, without empty texts, without texts that meet, and without line
numbers. -/
inductive Normalized : List Node → Prop where
  /-- An empty tree is normalised. -/
  | nil : Normalized []
  /-- A text that is not empty may stand in front of what is no text. -/
  | text {content : String} {rest : List Node} (present : content ≠ "")
      (apart : ∀ next ∈ rest.head?, ¬ next.IsText) (normalized : Normalized rest) :
      Normalized (.text content :: rest)
  /-- The place of a value may stand in front. -/
  | interpolation {rest : List Node} (path : String) (escaped : Bool)
      (normalized : Normalized rest) : Normalized (.interpolation path escaped 0 :: rest)
  /-- A block with a normalised content may stand in front. -/
  | block {children rest : List Node} (kind : BlockKind) (name : String)
      (inner : Normalized children) (normalized : Normalized rest) :
      Normalized (.block kind name children 0 0 :: rest)
  /-- The place of another template may stand in front. -/
  | partialCall {rest : List Node} (name : String) (normalized : Normalized rest) :
      Normalized (.partialCall name 0 :: rest)

/-- Text in front of a normalised tree makes a normalised one. -/
theorem Normalized.consText {content : String} {nodes : List Node} (present : content ≠ "")
    (normalized : Normalized nodes) : Normalized (consText content nodes) := by
  cases normalized with
  | text _ apart rest =>
    refine .text (fun empty => present ?_) apart rest
    exact (String.append_eq_empty_iff.1 empty).1
  | nil => exact .text present (by simp) .nil
  | interpolation path escaped rest =>
    exact .text present (by simp [IsText]) (.interpolation path escaped rest)
  | block kind name inner rest =>
    exact .text present (by simp [IsText]) (.block kind name inner rest)
  | partialCall name rest => exact .text present (by simp [IsText]) (.partialCall name rest)

mutual

theorem normalized_consNormalized (node : Node) {following : List Node}
    (normalized : Normalized following) : Normalized (consNormalized node following) := by
  cases node with
  | text content =>
    rw [consNormalized]
    split
    · exact normalized
    · next present => exact normalized.consText present
  | block kind name children =>
    rw [consNormalized]
    exact .block kind name (normalized_normalize children) normalized
  | interpolation path escaped =>
    rw [consNormalized]
    exact .interpolation path escaped normalized
  | partialCall name =>
    rw [consNormalized]
    exact .partialCall name normalized
  | comment =>
    rw [consNormalized]
    exact normalized

/-- What `normalize` makes of a tree is `Normalized`. -/
theorem normalized_normalize (nodes : List Node) : Normalized (normalize nodes) := by
  cases nodes with
  | nil =>
    rw [normalize]
    exact .nil
  | cons node rest =>
    rw [normalize]
    exact normalized_consNormalized node (normalized_normalize rest)

end

end Node

namespace Instruction

mutual

theorem ofNodes_consNormalized (node : Node) (following : List Node) :
    ofNodes (Node.consNormalized node following) = consNode node (ofNodes following) := by
  cases node with
  | text content =>
    rw [Node.consNormalized, consNode]
    split
    · next empty => simp [empty, consLiteral]
    · rw [ofNodes_consText]
  | block kind name children =>
    rw [Node.consNormalized, ofNodes, consNode, consNode, ofNodes_normalize children]
  | interpolation | partialCall => rw [Node.consNormalized, ofNodes, consNode, consNode]
  | comment => rw [Node.consNormalized, consNode]

/-- A tree and its form by `Node.normalize` do the same. -/
theorem ofNodes_normalize (nodes : List Node) :
    ofNodes (Node.normalize nodes) = ofNodes nodes := by
  cases nodes with
  | nil => rw [Node.normalize]
  | cons node rest =>
    rw [Node.normalize, ofNodes_consNormalized node, ofNodes_normalize rest, ofNodes]

end

/-- Whether an instruction writes a text. -/
def IsLiteral (instruction : Instruction) : Prop :=
  ∃ content, instruction = .literal content

/-- Instructions that are `Balanced`, without empty literals and without literals that are
neighbours. -/
structure Normal (instructions : List Instruction) : Prop where
  /-- The blocks nest. -/
  balanced : Balanced instructions
  /-- No literal is empty. -/
  present : .literal "" ∉ instructions
  /-- No literal comes right after another one. -/
  apart : instructions.IsChain fun first second => ¬ (first.IsLiteral ∧ second.IsLiteral)

/-- What a normalised tree does begins with a literal just where the tree begins with a text. -/
theorem exists_isLiteral_head?_iff {nodes : List Node} (normalized : Node.Normalized nodes) :
    (∃ first ∈ (ofNodes nodes).head?, first.IsLiteral) ↔ ∃ node ∈ nodes.head?, node.IsText := by
  cases normalized with
  | nil => simp [ofNodes]
  | @text content rest present =>
    have begins : ∃ text more, ofNodes (.text content :: rest) = .literal text :: more := by
      rw [ofNodes, consNode, consLiteral.eq_def, if_neg (by simpa using present)]
      split <;> exact ⟨_, _, rfl⟩
    obtain ⟨text, more, begins⟩ := begins
    simp [begins, IsLiteral, Node.IsText]
  | interpolation | block | partialCall => simp [ofNodes, consNode, IsLiteral, Node.IsText]

/-- In what a normalised tree does each of its texts is a literal of its own. -/
theorem ofNodes_text_cons {content : String} {rest : List Node} (present : content ≠ "")
    (apart : ∀ next ∈ rest.head?, ¬ next.IsText) (normalized : Node.Normalized rest) :
    ofNodes (.text content :: rest) = .literal content :: ofNodes rest := by
  rw [ofNodes, consNode, consLiteral.eq_def, if_neg (by simpa using present)]
  split
  · next following more begins =>
    obtain ⟨node, first, isText⟩ := (exists_isLiteral_head?_iff normalized).1
      ⟨.literal following, by simp [begins], following, rfl⟩
    exact absurd isText (apart node first)
  · rfl

namespace Normal

theorem nil : Normal [] :=
  ⟨.nil, List.not_mem_nil, .nil⟩

/-- A literal that is not empty may stand in front of `Normal` instructions that do not begin with
one. -/
theorem literal {content : String} {rest : List Instruction} (normal : Normal rest)
    (present : content ≠ "") (apart : ∀ next ∈ rest.head?, ¬ next.IsLiteral) :
    Normal (.literal content :: rest) where
  balanced := .plain trivial normal.balanced
  present := by simp [present.symm, normal.present]
  apart := normal.apart.cons fun next first both => apart next first both.2

/-- An instruction that is no literal and about no block may stand in front of `Normal` ones. -/
theorem plain {instruction : Instruction} {rest : List Instruction} (normal : Normal rest)
    (isPlain : instruction.IsPlain) (notLiteral : ¬ instruction.IsLiteral) :
    Normal (instruction :: rest) where
  balanced := .plain isPlain normal.balanced
  present := by
    rw [List.mem_cons, not_or]
    exact ⟨fun same => notLiteral ⟨"", same.symm⟩, normal.present⟩
  apart := normal.apart.cons fun _ _ both => notLiteral both.1

/-- A block with a `Normal` body may stand in front of `Normal` instructions. -/
theorem block {body rest : List Instruction} (kind : BlockKind) (path : String)
    (inner : Normal body) (normal : Normal rest) :
    Normal (.openBlock kind path :: (body ++ .closeBlock :: rest)) where
  balanced := .block inner.balanced normal.balanced
  present := by simp [inner.present, normal.present]
  apart := by
    refine (inner.apart.append (normal.apart.cons ?_) ?_).cons ?_
    · simp [IsLiteral]
    · simp [IsLiteral]
    · simp [IsLiteral]

/-- What a `Normalized` tree does is `Normal`. -/
theorem ofNodes {nodes : List Node} (normalized : Node.Normalized nodes) :
    Normal (Instruction.ofNodes nodes) := by
  induction normalized with
  | nil =>
    rw [Instruction.ofNodes]
    exact .nil
  | text present apart normalized inductionHypothesis =>
    rw [ofNodes_text_cons present apart normalized]
    refine inductionHypothesis.literal present fun next first isLiteral => ?_
    obtain ⟨node, firstNode, isText⟩ :=
      (exists_isLiteral_head?_iff normalized).1 ⟨next, first, isLiteral⟩
    exact apart node firstNode isText
  | interpolation path escaped _ inductionHypothesis =>
    rw [Instruction.ofNodes, consNode]
    exact inductionHypothesis.plain trivial (by simp [IsLiteral])
  | block kind name _ _ bodyHypothesis restHypothesis =>
    rw [Instruction.ofNodes, consNode]
    exact .block kind name bodyHypothesis restHypothesis
  | partialCall name _ inductionHypothesis =>
    rw [Instruction.ofNodes, consNode]
    exact inductionHypothesis.plain trivial (by simp [IsLiteral])

/-- Instructions that are `Normal` are what some `Normalized` tree does. -/
theorem exists_normalized {instructions : List Instruction} (normal : Normal instructions) :
    ∃ nodes, Node.Normalized nodes ∧ Instruction.ofNodes nodes = instructions := by
  obtain ⟨balanced, present, apart⟩ := normal
  induction balanced with
  | nil => exact ⟨[], .nil, by rw [Instruction.ofNodes]⟩
  | @plain instruction rest isPlain _ inductionHypothesis =>
    rw [List.mem_cons, not_or] at present
    rw [List.isChain_cons] at apart
    obtain ⟨nodes, normalized, rfl⟩ := inductionHypothesis present.2 apart.2
    cases instruction with
    | literal content =>
      have contentPresent : content ≠ "" := fun empty => present.1 (by rw [empty])
      have textApart : ∀ next ∈ nodes.head?, ¬ next.IsText := by
        intro next first isText
        obtain ⟨other, otherFirst, isLiteral⟩ :=
          (exists_isLiteral_head?_iff normalized).2 ⟨next, first, isText⟩
        exact apart.1 other otherFirst ⟨⟨content, rfl⟩, isLiteral⟩
      exact ⟨.text content :: nodes, .text contentPresent textApart normalized,
        ofNodes_text_cons contentPresent textApart normalized⟩
    | interpolation path escaped =>
      refine ⟨.interpolation path escaped 0 :: nodes, .interpolation path escaped normalized, ?_⟩
      rw [Instruction.ofNodes, consNode]
    | partialCall name =>
      refine ⟨.partialCall name 0 :: nodes, .partialCall name normalized, ?_⟩
      rw [Instruction.ofNodes, consNode]
    | openBlock | closeBlock => exact isPlain.elim
  | @block kind path body rest _ _ bodyHypothesis restHypothesis =>
    simp only [List.mem_cons, List.mem_append, reduceCtorEq, false_or, not_or] at present
    have behind := apart.tail.right_of_append
    obtain ⟨children, inner, rfl⟩ := bodyHypothesis present.1 apart.tail.left_of_append
    obtain ⟨nodes, normalized, rfl⟩ := restHypothesis present.2 behind.tail
    refine ⟨.block kind path children 0 0 :: nodes, .block kind path inner normalized, ?_⟩
    rw [Instruction.ofNodes, consNode]

end Normal

/-- A `Normalized` tree that does nothing is empty. -/
theorem eq_nil_of_ofNodes_eq_nil {nodes : List Node} (normalized : Node.Normalized nodes)
    (same : ofNodes nodes = []) : nodes = [] := by
  cases normalized with
  | nil => rfl
  | text present apart rest =>
    rw [ofNodes_text_cons present apart rest] at same
    cases same
  | interpolation | block | partialCall => simp [ofNodes, consNode] at same

/-- The first instruction of a `Normalized` tree tells what its first node is. -/
theorem eq_cons_of_ofNodes_eq_cons {nodes : List Node} (normalized : Node.Normalized nodes)
    {first : Instruction} {rest : List Instruction} (same : ofNodes nodes = first :: rest) :
    match first with
    | .literal content => ∃ others, nodes = .text content :: others ∧
        Node.Normalized others ∧ ofNodes others = rest
    | .interpolation path escaped => ∃ others, nodes = .interpolation path escaped 0 :: others ∧
        Node.Normalized others ∧ ofNodes others = rest
    | .openBlock kind path => ∃ children others, nodes = .block kind path children 0 0 :: others ∧
        Node.Normalized children ∧ Node.Normalized others ∧
        ofNodes children ++ .closeBlock :: ofNodes others = rest
    | .closeBlock => False
    | .partialCall name => ∃ others, nodes = .partialCall name 0 :: others ∧
        Node.Normalized others ∧ ofNodes others = rest := by
  cases normalized with
  | nil =>
    rw [ofNodes] at same
    cases same
  | text present apart others =>
    rw [ofNodes_text_cons present apart others] at same
    cases same
    exact ⟨_, rfl, others, rfl⟩
  | interpolation path escaped others =>
    rw [ofNodes, consNode] at same
    cases same
    exact ⟨_, rfl, others, rfl⟩
  | block kind path inner others =>
    rw [ofNodes, consNode] at same
    cases same
    exact ⟨_, _, rfl, inner, others, rfl⟩
  | partialCall name others =>
    rw [ofNodes, consNode] at same
    cases same
    exact ⟨_, rfl, others, rfl⟩

/-- Trees that are `Normalized` and do the same are the same. -/
theorem eq_of_ofNodes_eq {left right : List Node} (normalized : Node.Normalized left)
    (others : Node.Normalized right) (same : ofNodes left = ofNodes right) : left = right := by
  induction normalized generalizing right with
  | nil =>
    rw [ofNodes] at same
    exact (eq_nil_of_ofNodes_eq_nil others same.symm).symm
  | text present apart normalized inductionHypothesis =>
    rw [ofNodes_text_cons present apart normalized] at same
    obtain ⟨rest, rfl, restNormalized, following⟩ := eq_cons_of_ofNodes_eq_cons others same.symm
    rw [inductionHypothesis restNormalized following.symm]
  | interpolation path escaped _ inductionHypothesis =>
    rw [ofNodes, consNode] at same
    obtain ⟨rest, rfl, restNormalized, following⟩ := eq_cons_of_ofNodes_eq_cons others same.symm
    rw [inductionHypothesis restNormalized following.symm]
  | block kind name inner _ bodyHypothesis restHypothesis =>
    rw [ofNodes, consNode] at same
    obtain ⟨children, rest, rfl, otherInner, restNormalized, following⟩ :=
      eq_cons_of_ofNodes_eq_cons others same.symm
    -- Both contents are balanced, so they end where the first end without a partner is.
    obtain ⟨sameBody, sameRest⟩ := (Normal.ofNodes otherInner).balanced.append_closeBlock_inj
      (Normal.ofNodes inner).balanced following
    rw [bodyHypothesis otherInner sameBody.symm, restHypothesis restNormalized sameRest.symm]
  | partialCall name _ inductionHypothesis =>
    rw [ofNodes, consNode] at same
    obtain ⟨rest, rfl, restNormalized, following⟩ := eq_cons_of_ofNodes_eq_cons others same.symm
    rw [inductionHypothesis restNormalized following.symm]

end Instruction

/-- A tree is `Normalized` exactly if `normalize` leaves it as it is. -/
theorem Node.normalized_iff_normalize_eq (nodes : List Node) :
    Normalized nodes ↔ normalize nodes = nodes := by
  constructor
  · intro normalized
    exact Instruction.eq_of_ofNodes_eq (normalized_normalize nodes) normalized
      (Instruction.ofNodes_normalize nodes)
  · intro same
    rw [← same]
    exact normalized_normalize nodes

/-- Trees do the same exactly if `Node.normalize` makes the same tree of them. -/
theorem Instruction.ofNodes_eq_iff (left right : List Node) :
    ofNodes left = ofNodes right ↔ Node.normalize left = Node.normalize right := by
  constructor
  · intro same
    apply eq_of_ofNodes_eq (Node.normalized_normalize left) (Node.normalized_normalize right)
    rw [ofNodes_normalize, ofNodes_normalize, same]
  · intro same
    rw [← ofNodes_normalize left, same, ofNodes_normalize]

/-- What a tree does is `Normal`, and its form by `Node.normalize`, which is the same for all trees
that do it, does the same. All normal instructions are what one normalised tree does, and no other.
-/
theorem Instruction.ofNodes_normalForm :
    (∀ nodes, Normal (ofNodes nodes) ∧ ofNodes (Node.normalize nodes) = ofNodes nodes ∧
      Node.Normalized (Node.normalize nodes)) ∧
    (∀ nodes, Node.Normalized nodes ↔ Node.normalize nodes = nodes) ∧
    (∀ instructions, Normal instructions →
      ∃! nodes, Node.Normalized nodes ∧ ofNodes nodes = instructions) ∧
    ∀ left right, ofNodes left = ofNodes right ↔ Node.normalize left = Node.normalize right := by
  refine ⟨fun nodes => ?_, Node.normalized_iff_normalize_eq, fun instructions normal => ?_,
    ofNodes_eq_iff⟩
  · have normal := Normal.ofNodes (Node.normalized_normalize nodes)
    rw [ofNodes_normalize] at normal
    exact ⟨normal, ofNodes_normalize nodes, Node.normalized_normalize nodes⟩
  · obtain ⟨nodes, normalized, rfl⟩ := normal.exists_normalized
    refine ⟨nodes, ⟨normalized, rfl⟩, ?_⟩
    rintro other ⟨otherNormalized, same⟩
    exact eq_of_ofNodes_eq otherNormalized normalized same

end Mustache
