import Reckon.Proofs.SameTrees

/-!
# Records of trees

A tree is read back from its record, and whatever is read as a tree describes it: at each node it
holds what the record of the tree holds, possibly among other things, and it may spell the number of
a leaf in another way. So a record is what is left of a description when all else is dropped. Both
directions walk the tree, so they reach as far as a walk can go.
-/

set_option autoImplicit false

namespace Reckon.Tree

def Holds (members : List (Text × Json)) (key : Text) (value : Json) : Prop :=
  members.lookup key = some value

def IsOfType (members : List (Text × Json)) (nodeType : NodeType) : Prop :=
  Holds members "type" (.text nodeType.name)

/-- What describes a tree: an object for each node that has what the node needs, possibly among
other things. -/
inductive Describes : Json → Tree Json → Prop where
  | number {members : List (Text × Json)} {value : Json} {double : Double} :
      IsOfType members .number → Holds members "value" value → numberOfJson value = .ok double →
      Describes (.object members) (.number double)
  | unary {members : List (Text × Json)} {operator inner : Json} {operand : Tree Json} :
      IsOfType members .unary → Holds members "operator" operator →
      Holds members "operand" inner → Describes inner operand →
      Describes (.object members) (.unary operator operand)
  | binary {members : List (Text × Json)} {operator first second : Json} {left right : Tree Json} :
      IsOfType members .binary → Holds members "operator" operator →
      Holds members "left" first → Holds members "right" second →
      Describes first left → Describes second right →
      Describes (.object members) (.binary operator left right)

section Reading

variable {members : List (Text × Json)} {key : Text} {data value : Json} {nodeType : NodeType}
variable {levels : Nat} {tree : Tree Json}

theorem required_eq_ok_iff : required members key = .ok value ↔ Holds members key value := by
  rw [required, Holds]
  cases members.lookup key <;> simp

theorem nodeType?_eq_some_iff :
    nodeType? value = some nodeType ↔ value = .text nodeType.name := by
  constructor
  · intro found
    cases value with
    | text name =>
        have isName := List.find?_some (a := nodeType) found
        rw [eq_of_beq isName]
    | _ => cases found
  · rintro rfl
    cases nodeType <;> decide

theorem nodeType?_getD_eq_some_iff :
    nodeType? ((Json.member? "type" (.object members)).getD .null) = some nodeType ↔
      IsOfType members nodeType := by
  rw [nodeType?_eq_some_iff, Json.member?, IsOfType, Holds]
  cases List.lookup (Text.ofString "type") members <;> simp

/-- What is read at a node is settled by its type. -/
theorem ofJsonWithin_object (isOfType : IsOfType members nodeType) :
    ofJsonWithin (levels + 1) (.object members) =
      match nodeType with
      | .number => do return .number (← numberOfJson (← required members "value"))
      | .unary => do
        let operator ← required members "operator"
        return .unary operator (← ofJsonWithin levels (← required members "operand"))
      | .binary => do
        let operator ← required members "operator"
        let left ← ofJsonWithin levels (← required members "left")
        let right ← ofJsonWithin levels (← required members "right")
        return .binary operator left right := by
  rw [ofJsonWithin]
  simp only [nodeType?_getD_eq_some_iff.mpr isOfType]
  cases nodeType <;> rfl

theorem exists_type_of_ofJsonWithin (done : ofJsonWithin (levels + 1) data = .ok tree) :
    ∃ members nodeType, data = .object members ∧ IsOfType members nodeType := by
  cases data with
  | object members =>
      cases found : nodeType? ((Json.member? "type" (.object members)).getD .null) with
      | some nodeType => exact ⟨members, nodeType, rfl, nodeType?_getD_eq_some_iff.mp found⟩
      | none =>
          rw [ofJsonWithin] at done
          simp only [found] at done
          cases done
  | _ => cases done

theorem describes_of_ofJsonWithin (done : ofJsonWithin levels data = .ok tree) :
    Describes data tree ∧ tree.depth ≤ levels := by
  induction levels generalizing data tree with
  | zero => cases data <;> cases done
  | succ levels ih =>
      obtain ⟨members, nodeType, rfl, isOfType⟩ := exists_type_of_ofJsonWithin done
      cases nodeType with
      | number =>
          rw [ofJsonWithin_object isOfType] at done
          obtain ⟨value, held, done⟩ := except_bind_ok done
          obtain ⟨double, reads, returned⟩ := except_bind_ok done
          cases returned
          exact ⟨.number isOfType (required_eq_ok_iff.mp held) reads, Nat.succ_le_succ levels.zero_le⟩
      | unary =>
          rw [ofJsonWithin_object isOfType] at done
          obtain ⟨operator, operatorHeld, done⟩ := except_bind_ok done
          obtain ⟨inner, held, done⟩ := except_bind_ok done
          obtain ⟨operand, operandDone, returned⟩ := except_bind_ok done
          cases returned
          obtain ⟨describes, visited⟩ := ih operandDone
          exact ⟨.unary isOfType (required_eq_ok_iff.mp operatorHeld)
            (required_eq_ok_iff.mp held) describes, depth_unary_le_iff.mpr visited⟩
      | binary =>
          rw [ofJsonWithin_object isOfType] at done
          obtain ⟨operator, operatorHeld, done⟩ := except_bind_ok done
          obtain ⟨first, firstHeld, done⟩ := except_bind_ok done
          obtain ⟨left, leftDone, done⟩ := except_bind_ok done
          obtain ⟨second, secondHeld, done⟩ := except_bind_ok done
          obtain ⟨right, rightDone, returned⟩ := except_bind_ok done
          cases returned
          obtain ⟨leftDescribes, leftVisited⟩ := ih leftDone
          obtain ⟨rightDescribes, rightVisited⟩ := ih rightDone
          exact ⟨.binary isOfType (required_eq_ok_iff.mp operatorHeld)
            (required_eq_ok_iff.mp firstHeld) (required_eq_ok_iff.mp secondHeld)
            leftDescribes rightDescribes, depth_binary_le_iff.mpr ⟨leftVisited, rightVisited⟩⟩

theorem Describes.ofJsonWithin_eq (describes : Describes data tree)
    (visited : tree.depth ≤ levels) : ofJsonWithin levels data = .ok tree := by
  induction describes generalizing levels with
  | number isOfType held reads =>
      obtain ⟨lower, rfl⟩ := Nat.exists_eq_add_one.mpr visited
      rw [ofJsonWithin_object isOfType, required_eq_ok_iff.mpr held]
      simp only [reads, bind, Except.bind]
      rfl
  | unary isOfType operatorHeld held _ ih =>
      obtain ⟨lower, rfl⟩ := Nat.exists_eq_add_one.mpr (Nat.lt_of_lt_of_le (depth_pos _) visited)
      rw [ofJsonWithin_object isOfType, required_eq_ok_iff.mpr operatorHeld,
        required_eq_ok_iff.mpr held]
      simp only [bind, Except.bind, ih (depth_unary_le_iff.mp visited)]
      rfl
  | binary isOfType operatorHeld firstHeld secondHeld _ _ leftIH rightIH =>
      obtain ⟨lower, rfl⟩ := Nat.exists_eq_add_one.mpr (Nat.lt_of_lt_of_le (depth_pos _) visited)
      obtain ⟨leftVisited, rightVisited⟩ := depth_binary_le_iff.mp visited
      rw [ofJsonWithin_object isOfType, required_eq_ok_iff.mpr operatorHeld,
        required_eq_ok_iff.mpr firstHeld, required_eq_ok_iff.mpr secondHeld]
      simp only [bind, Except.bind, leftIH leftVisited, rightIH rightVisited]
      rfl

/-- Reading a value gives a tree if and only if the value describes the tree and a walk can visit
it. -/
theorem ofJson_eq_ok_iff :
    ofJson data = .ok tree ↔ Describes data tree ∧ tree.depth ≤ depthLimit :=
  ⟨describes_of_ofJsonWithin, fun ⟨describes, visited⟩ => describes.ofJsonWithin_eq visited⟩

end Reading

section Writing

variable {ω : Type} {operatorJson : ω → Json} {tree : Tree ω}

theorem depth_map {ψ : Type} (change : ω → ψ) (tree : Tree ω) :
    (tree.map change).depth = tree.depth := by
  induction tree with
  | number | foreign => rfl
  | unary operator operand ih => exact congrArg (1 + ·) ih
  | binary operator left right leftIH rightIH =>
      exact congrArg (1 + ·) (congrArg₂ max leftIH rightIH)

theorem foreignType?_map {ψ : Type} (change : ω → ψ) (tree : Tree ω) :
    (tree.map change).foreignType? = tree.foreignType? := by
  induction tree with
  | number | foreign => rfl
  | unary operator operand ih => exact ih
  | binary operator left right leftIH rightIH => exact congrArg₂ Option.or leftIH rightIH

theorem toJsonWith_map (operatorJson : ω → Json) (tree : Tree ω) :
    (tree.map operatorJson).toJsonWith id = tree.toJsonWith operatorJson := by
  induction tree with
  | number | foreign => rfl
  | unary operator operand ih => simp only [map, toJsonWith, ih, id]
  | binary operator left right leftIH rightIH => simp only [map, toJsonWith, leftIH, rightIH, id]

theorem describes_toJsonWith (nodes : tree.foreignType? = none) :
    Describes (tree.toJsonWith operatorJson) (tree.map operatorJson) := by
  induction tree with
  | number value => exact .number rfl rfl rfl
  | unary operator operand ih => exact .unary rfl rfl rfl (ih nodes)
  | binary operator left right leftIH rightIH =>
      obtain ⟨leftNodes, rightNodes⟩ := Option.or_eq_none_iff.mp nodes
      exact .binary rfl rfl rfl rfl (leftIH leftNodes) (rightIH rightNodes)
  | foreign typeName => cases nodes

/-- A walk over nodes writes down all of a tree, or comes to its last level. -/
theorem recordWithin_of_nodes {tree : Tree Text} (nodes : tree.foreignType? = none)
    (levels : Nat) :
    recordWithin levels tree =
      if tree.depth ≤ levels then .ok tree.toJson else .error .callDepth := by
  induction levels generalizing tree with
  | zero =>
      rw [if_neg tree.depth_pos.not_ge]
      cases tree with
      | foreign typeName => cases nodes
      | number | unary | binary => rfl
  | succ levels ih =>
      cases tree with
      | foreign typeName => cases nodes
      | number value => exact (if_pos (Nat.succ_le_succ levels.zero_le)).symm
      | unary operator operand =>
          have operandNodes : operand.foreignType? = none := nodes
          rw [recordWithin, ih operandNodes]
          simp only [depth_unary_le_iff]
          by_cases visited : operand.depth ≤ levels <;>
            simp [visited, toJson, toJsonWith, bind, Except.bind, pure, Except.pure]
      | binary operator left right =>
          obtain ⟨leftNodes, rightNodes⟩ := Option.or_eq_none_iff.mp nodes
          rw [recordWithin, ih leftNodes, ih rightNodes]
          simp only [depth_binary_le_iff]
          by_cases leftVisited : left.depth ≤ levels <;>
            by_cases rightVisited : right.depth ≤ levels <;>
            simp [leftVisited, rightVisited, toJson, toJsonWith, bind, Except.bind, pure,
              Except.pure]

/-- An object that is no node keeps a tree from being written down, at whatever level it stands. -/
theorem foreignType?_of_recordWithin {tree : Tree Text} {levels : Nat} {dict : Json}
    (done : recordWithin levels tree = .ok dict) : tree.foreignType? = none := by
  induction tree generalizing levels dict with
  | number => rfl
  | foreign typeName => cases levels <;> cases done
  | unary operator operand ih =>
      cases levels with
      | zero => cases done
      | succ levels =>
          obtain ⟨_, operandDone, -⟩ := except_bind_ok done
          exact ih operandDone
  | binary operator left right leftIH rightIH =>
      cases levels with
      | zero => cases done
      | succ levels =>
          obtain ⟨_, leftDone, done⟩ := except_bind_ok done
          obtain ⟨_, rightDone, -⟩ := except_bind_ok done
          exact Option.or_eq_none_iff.mpr ⟨leftIH leftDone, rightIH rightDone⟩

theorem record_of_nodes {tree : Tree Text} (nodes : tree.foreignType? = none) :
    tree.record = if tree.depth ≤ depthLimit then .ok tree.toJson else .error .callDepth :=
  recordWithin_of_nodes nodes depthLimit

theorem record_eq_ok_iff {tree : Tree Text} {dict : Json} :
    tree.record = .ok dict ↔ tree.IsVisitable ∧ dict = tree.toJson := by
  rw [IsVisitable]
  constructor
  · intro done
    have nodes := foreignType?_of_recordWithin done
    rw [record_of_nodes nodes] at done
    split_ifs at done with visited
    exact ⟨⟨nodes, visited⟩, (Except.ok.inj done).symm⟩
  · rintro ⟨⟨nodes, visited⟩, rfl⟩
    rw [record_of_nodes nodes, if_pos visited]

theorem ofJson_toJson {tree : Tree Text} (visitable : tree.IsVisitable) :
    ofJson tree.toJson = .ok (tree.map Json.text) := by
  refine ofJson_eq_ok_iff.mpr ⟨describes_toJsonWith visitable.1, ?_⟩
  rw [depth_map]
  exact visitable.2

end Writing

/-- What is left of a description when each node keeps only what it needs, and each leaf the number
that it is read as. -/
inductive Restricts : Json → Json → Prop where
  | number {members : List (Text × Json)} {value : Json} {double : Double} :
      IsOfType members .number → Holds members "value" value → numberOfJson value = .ok double →
      Restricts (.object members)
        (.object [("type", .text NodeType.number.name), ("value", .real double)])
  | unary {members : List (Text × Json)} {operator inner kept : Json} :
      IsOfType members .unary → Holds members "operator" operator →
      Holds members "operand" inner → Restricts inner kept →
      Restricts (.object members)
        (.object [("type", .text NodeType.unary.name), ("operator", operator), ("operand", kept)])
  | binary {members : List (Text × Json)} {operator first second left right : Json} :
      IsOfType members .binary → Holds members "operator" operator →
      Holds members "left" first → Holds members "right" second →
      Restricts first left → Restricts second right →
      Restricts (.object members)
        (.object [("type", .text NodeType.binary.name), ("operator", operator), ("left", left),
          ("right", right)])

theorem Holds.unique {members : List (Text × Json)} {key : Text} {value other : Json}
    (held : Holds members key value) (heldToo : Holds members key other) : value = other :=
  Option.some.inj (held.symm.trans heldToo)

theorem IsOfType.unique {members : List (Text × Json)} {nodeType other : NodeType}
    (isOfType : IsOfType members nodeType) (isOther : IsOfType members other) :
    nodeType = other := by
  have names := Json.text.inj (Holds.unique isOfType isOther)
  cases nodeType <;> cases other <;> first | rfl | exact absurd names (by decide)

theorem Restricts.unique {data kept other : Json} (restricts : Restricts data kept)
    (restrictsToo : Restricts data other) : kept = other := by
  induction restricts generalizing other with
  | number isOfType held reads =>
      cases restrictsToo with
      | number _ heldToo readsToo =>
          obtain rfl := held.unique heldToo
          obtain rfl := Except.ok.inj (reads.symm.trans readsToo)
          rfl
      | unary isOther => cases isOfType.unique isOther
      | binary isOther => cases isOfType.unique isOther
  | unary isOfType operatorHeld held _ ih =>
      cases restrictsToo with
      | number isOther => cases isOfType.unique isOther
      | unary _ operatorHeldToo heldToo keptToo =>
          obtain rfl := operatorHeld.unique operatorHeldToo
          obtain rfl := held.unique heldToo
          rw [ih keptToo]
      | binary isOther => cases isOfType.unique isOther
  | binary isOfType operatorHeld firstHeld secondHeld _ _ leftIH rightIH =>
      cases restrictsToo with
      | number isOther => cases isOfType.unique isOther
      | unary isOther => cases isOfType.unique isOther
      | binary _ operatorHeldToo firstHeldToo secondHeldToo leftToo rightToo =>
          obtain rfl := operatorHeld.unique operatorHeldToo
          obtain rfl := firstHeld.unique firstHeldToo
          obtain rfl := secondHeld.unique secondHeldToo
          rw [leftIH leftToo, rightIH rightToo]

theorem Describes.restricts {data : Json} {tree : Tree Json} (describes : Describes data tree) :
    Restricts data (tree.toJsonWith id) := by
  induction describes with
  | number isOfType held reads => exact .number isOfType held reads
  | unary isOfType operatorHeld held _ ih => exact .unary isOfType operatorHeld held ih
  | binary isOfType operatorHeld firstHeld secondHeld _ _ leftIH rightIH =>
      exact .binary isOfType operatorHeld firstHeld secondHeld leftIH rightIH

theorem Describes.foreignType?_eq_none {data : Json} {tree : Tree Json}
    (describes : Describes data tree) : tree.foreignType? = none := by
  induction describes with
  | number => rfl
  | unary _ _ _ _ ih => exact ih
  | binary _ _ _ _ _ _ leftIH rightIH => rw [foreignType?, leftIH, rightIH, Option.or_none]

/-- A tree that a walk can visit has a record, and is read back from it: the tree that is read is
the same, so it has the same value, trace and dump. What is read as a tree with texts for operators
has the record of that tree for its restriction, and the tree is read back from that record too. No
other tree has a record, and what keeps a tree of nodes from having one is its depth. -/
theorem visitable_trees_are_read_back :
    (∀ tree : Tree Text, tree.IsVisitable →
        ∃ (dict : Json) (rebuilt : Tree Text),
          tree.record = .ok dict ∧ ofJson dict = .ok (rebuilt.map Json.text) ∧
          rebuilt.same tree = .ok true ∧ Evaluation.value rebuilt = Evaluation.value tree ∧
          Evaluation.trace rebuilt = Evaluation.trace tree ∧
          ∀ indent, rebuilt.dump indent = tree.dump indent) ∧
      (∀ (data : Json) (tree : Tree Text), ofJson data = .ok (tree.map Json.text) →
        ∃ (dict : Json) (rebuilt : Tree Text), tree.record = .ok dict ∧
          (∀ kept, Restricts data kept ↔ kept = dict) ∧
          ofJson dict = .ok (rebuilt.map Json.text) ∧ rebuilt.same tree = .ok true) ∧
      (∀ tree : Tree Text, ¬ tree.IsVisitable → ∃ fault, tree.record = .error fault) ∧
      ∀ tree : Tree Text, tree.foreignType? = none → depthLimit < tree.depth →
        tree.record = .error .callDepth := by
  refine ⟨?_, ?_, ?_, ?_⟩
  · intro tree visitable
    exact ⟨tree.toJson, tree, record_eq_ok_iff.mpr ⟨visitable, rfl⟩, ofJson_toJson visitable,
      same_eq_true_iff.mpr ⟨rfl, visitable⟩, rfl, rfl, fun _ => rfl⟩
  · intro data tree done
    obtain ⟨describes, visited⟩ := ofJson_eq_ok_iff.mp done
    have visitable : tree.IsVisitable := by
      rw [IsVisitable, ← foreignType?_map Json.text, ← depth_map Json.text]
      exact ⟨describes.foreignType?_eq_none, visited⟩
    have restricts : Restricts data tree.toJson := by
      rw [toJson, ← toJsonWith_map]
      exact describes.restricts
    exact ⟨tree.toJson, tree, record_eq_ok_iff.mpr ⟨visitable, rfl⟩,
      fun _ => ⟨fun keeps => keeps.unique restricts, fun isDict => isDict ▸ restricts⟩,
      ofJson_toJson visitable, same_eq_true_iff.mpr ⟨rfl, visitable⟩⟩
  · intro tree notVisitable
    cases done : tree.record with
    | ok dict => exact absurd (record_eq_ok_iff.mp done).1 notVisitable
    | error fault => exact ⟨fault, rfl⟩
  · intro tree nodes deep
    rw [record_of_nodes nodes, if_neg (Nat.not_le.mpr deep)]

theorem longSum_is_not_recorded :
    (onesAdded 1199).foreignType? = none ∧ (onesAdded 1199).record = .error .callDepth := by
  have nodes := foreignType?_onesAdded 1199
  refine ⟨nodes, ?_⟩
  rw [record_of_nodes nodes, depth_onesAdded, if_neg (by decide)]

end Reckon.Tree
